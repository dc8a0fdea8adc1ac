import Mathlib.Algebra.Group.Int.Defs
import PureGrpc.GrpcHandler
import PureGrpc.ProtobufFields

/-!
Rich error details: typed messages packed as Any into a google.rpc.Status, whose bytes
are the details of a status. The generated messages and their codec are a parameter;
the type URLs, the variants and the tables between them are the program's.
-/
namespace RichDetails
open LengthFraming GrpcMetadata GrpcStatus GrpcHandler ProtobufFields

inductive MessageType where
  | errorInfo | retryInfo | debugInfo | quotaFailure | preconditionFailure
  | badRequest | requestInfo | resourceInfo | help | localizedMessage
  deriving DecidableEq, Repr

structure Any where
  typeUrl : String
  value : Bytes
  deriving DecidableEq, Repr

structure RpcStatus where
  code : Int32
  message : String
  details : List Any
  deriving DecidableEq, Repr

structure Prost (Message : MessageType → Type) (ε : Type) where
  encode : (t : MessageType) → Message t → Bytes
  decode : (t : MessageType) → Bytes → Except ε (Message t)
  encodeStatus : RpcStatus → Bytes
  decodeStatus : Bytes → Except ε RpcStatus

variable {Message : MessageType → Type} {ε : Type}

structure Prost.Lawful (prost : Prost Message ε) : Prop where
  message : ∀ t m, prost.decode t (prost.encode t m) = .ok m
  status : ∀ s, prost.decodeStatus (prost.encodeStatus s) = .ok s
  default : prost.encodeStatus ⟨0, "", []⟩ = []

inductive ErrorDetail (Message : MessageType → Type) where
  | errorInfo (v : Message .errorInfo)
  | retryInfo (v : Message .retryInfo)
  | debugInfo (v : Message .debugInfo)
  | quotaFailure (v : Message .quotaFailure)
  | preconditionFailure (v : Message .preconditionFailure)
  | badRequest (v : Message .badRequest)
  | requestInfo (v : Message .requestInfo)
  | resourceInfo (v : Message .resourceInfo)
  | help (v : Message .help)
  | localizedMessage (v : Message .localizedMessage)
  | unknown (any : Any)

def typeUrl : MessageType → String
  | .errorInfo => "type.googleapis.com/google.rpc.ErrorInfo"
  | .retryInfo => "type.googleapis.com/google.rpc.RetryInfo"
  | .debugInfo => "type.googleapis.com/google.rpc.DebugInfo"
  | .quotaFailure => "type.googleapis.com/google.rpc.QuotaFailure"
  | .preconditionFailure => "type.googleapis.com/google.rpc.PreconditionFailure"
  | .badRequest => "type.googleapis.com/google.rpc.BadRequest"
  | .requestInfo => "type.googleapis.com/google.rpc.RequestInfo"
  | .resourceInfo => "type.googleapis.com/google.rpc.ResourceInfo"
  | .help => "type.googleapis.com/google.rpc.Help"
  | .localizedMessage => "type.googleapis.com/google.rpc.LocalizedMessage"

def Code.asI32 : Code → Int32
  | .ok => 0
  | .cancelled => 1
  | .unknown => 2
  | .invalidArgument => 3
  | .deadlineExceeded => 4
  | .notFound => 5
  | .alreadyExists => 6
  | .permissionDenied => 7
  | .resourceExhausted => 8
  | .failedPrecondition => 9
  | .aborted => 10
  | .outOfRange => 11
  | .unimplemented => 12
  | .internal => 13
  | .unavailable => 14
  | .dataLoss => 15
  | .unauthenticated => 16

def Status.withDetails (code : Code) (message : String) (details : Bytes) : Status :=
  ⟨code, message, details, MetadataMap.new⟩

section Packing
variable (prost : Prost Message ε)

def intoAny (t : MessageType) (v : Message t) : Any := ⟨typeUrl t, prost.encode t v⟩

def fromAny (t : MessageType) (any : Any) : Except ε (Message t) := prost.decode t any.value

def ErrorDetail.intoAny : ErrorDetail Message → Any
  | .errorInfo v => RichDetails.intoAny prost .errorInfo v
  | .retryInfo v => RichDetails.intoAny prost .retryInfo v
  | .debugInfo v => RichDetails.intoAny prost .debugInfo v
  | .quotaFailure v => RichDetails.intoAny prost .quotaFailure v
  | .preconditionFailure v => RichDetails.intoAny prost .preconditionFailure v
  | .badRequest v => RichDetails.intoAny prost .badRequest v
  | .requestInfo v => RichDetails.intoAny prost .requestInfo v
  | .resourceInfo v => RichDetails.intoAny prost .resourceInfo v
  | .help v => RichDetails.intoAny prost .help v
  | .localizedMessage v => RichDetails.intoAny prost .localizedMessage v
  | .unknown any => any

def decodeAny (any : Any) : Except ε (ErrorDetail Message) :=
  if any.typeUrl = typeUrl .errorInfo then (fromAny prost .errorInfo any).map .errorInfo
  else if any.typeUrl = typeUrl .retryInfo then (fromAny prost .retryInfo any).map .retryInfo
  else if any.typeUrl = typeUrl .debugInfo then (fromAny prost .debugInfo any).map .debugInfo
  else if any.typeUrl = typeUrl .quotaFailure then
    (fromAny prost .quotaFailure any).map .quotaFailure
  else if any.typeUrl = typeUrl .preconditionFailure then
    (fromAny prost .preconditionFailure any).map .preconditionFailure
  else if any.typeUrl = typeUrl .badRequest then (fromAny prost .badRequest any).map .badRequest
  else if any.typeUrl = typeUrl .requestInfo then (fromAny prost .requestInfo any).map .requestInfo
  else if any.typeUrl = typeUrl .resourceInfo then
    (fromAny prost .resourceInfo any).map .resourceInfo
  else if any.typeUrl = typeUrl .help then (fromAny prost .help any).map .help
  else if any.typeUrl = typeUrl .localizedMessage then
    (fromAny prost .localizedMessage any).map .localizedMessage
  else .ok (.unknown any)

def Status.withErrorDetails (code : Code) (message : String)
    (details : List (ErrorDetail Message)) : Status :=
  let anyDetails := details.map (·.intoAny prost)
  let rpcStatus : RpcStatus := ⟨Code.asI32 code, message, anyDetails⟩
  Status.withDetails code message (prost.encodeStatus rpcStatus)

/-- No bytes are no details; the first Any that is not decoded is the error. -/
def Status.errorDetails (self : Status) : Except ε (List (ErrorDetail Message)) :=
  if self.details = [] then .ok []
  else match prost.decodeStatus self.details with
    | .error e => .error e
    | .ok rpcStatus => rpcStatus.details.mapM (decodeAny prost)

def ErrorDetail.variant : (t : MessageType) → ErrorDetail Message → Option (Message t)
  | .errorInfo, .errorInfo v => some v
  | .retryInfo, .retryInfo v => some v
  | .debugInfo, .debugInfo v => some v
  | .quotaFailure, .quotaFailure v => some v
  | .preconditionFailure, .preconditionFailure v => some v
  | .badRequest, .badRequest v => some v
  | .requestInfo, .requestInfo v => some v
  | .resourceInfo, .resourceInfo v => some v
  | .help, .help v => some v
  | .localizedMessage, .localizedMessage v => some v
  | _, _ => none

def implGetDetails (t : MessageType) (self : Status) : Option (Message t) :=
  match Status.errorDetails prost self with
  | .error _ => none
  | .ok details => details.findSome? (ErrorDetail.variant t)

def getDetailsErrorInfo := implGetDetails prost .errorInfo
def getDetailsRetryInfo := implGetDetails prost .retryInfo
def getDetailsDebugInfo := implGetDetails prost .debugInfo
def getDetailsQuotaFailure := implGetDetails prost .quotaFailure
def getDetailsPreconditionFailure := implGetDetails prost .preconditionFailure
def getDetailsBadRequest := implGetDetails prost .badRequest
def getDetailsRequestInfo := implGetDetails prost .requestInfo
def getDetailsResourceInfo := implGetDetails prost .resourceInfo
def getDetailsHelp := implGetDetails prost .help
def getDetailsLocalizedMessage := implGetDetails prost .localizedMessage

/-- The accessor named after each type. -/
def getDetails : (t : MessageType) → Status → Option (Message t)
  | .errorInfo => getDetailsErrorInfo prost
  | .retryInfo => getDetailsRetryInfo prost
  | .debugInfo => getDetailsDebugInfo prost
  | .quotaFailure => getDetailsQuotaFailure prost
  | .preconditionFailure => getDetailsPreconditionFailure prost
  | .badRequest => getDetailsBadRequest prost
  | .requestInfo => getDetailsRequestInfo prost
  | .resourceInfo => getDetailsResourceInfo prost
  | .help => getDetailsHelp prost
  | .localizedMessage => getDetailsLocalizedMessage prost

end Packing

section RoundTrip
variable (prost : Prost Message ε)

theorem type_url_iff (s t : MessageType) : typeUrl s = typeUrl t ↔ s = t := by
  constructor
  · intro same
    cases s <;> cases t <;> first | rfl | simp [typeUrl] at same
  · rintro rfl
    rfl

def Foreign (any : Any) : Prop := ∀ t, any.typeUrl ≠ typeUrl t

section Lawful
variable {prost} (lawful : prost.Lawful)
include lawful

theorem from_any_into_any (t : MessageType) (v : Message t) :
    fromAny prost t (intoAny prost t v) = .ok v :=
  lawful.message t v

theorem decode_any_into_any (detail : ErrorDetail Message)
    (foreign : ∀ any, detail = .unknown any → Foreign any) :
    decodeAny prost (detail.intoAny prost) = .ok detail := by
  have url (t : MessageType) (v : Message t) : (intoAny prost t v).typeUrl = typeUrl t := rfl
  cases detail with
  | unknown any =>
    have other := foreign any rfl
    simp only [decodeAny, ErrorDetail.intoAny, other _, if_false]
  | _ v =>
    simp only [decodeAny, ErrorDetail.intoAny, url, type_url_iff, reduceCtorEq, if_false, if_true,
      from_any_into_any lawful, Except.map]

theorem decode_details (details : List (ErrorDetail Message))
    (foreign : ∀ any, .unknown any ∈ details → Foreign any) :
    (details.map (·.intoAny prost)).mapM (decodeAny prost) = .ok details := by
  induction details with
  | nil => rfl
  | cons detail details ih =>
    have first := decode_any_into_any lawful detail (by
      rintro any rfl
      exact foreign any List.mem_cons_self)
    have rest := ih fun any mem => foreign any (List.mem_cons_of_mem _ mem)
    rw [List.map_cons, List.mapM_cons, first, rest]
    rfl

theorem empty_status {s : RpcStatus} (nothing : prost.encodeStatus s = []) : s.details = [] := by
  have same := lawful.status s
  rw [nothing, ← lawful.default, lawful.status] at same
  cases same
  rfl

theorem error_details_packed {code : Code} {message : String} {details : List (ErrorDetail Message)}
    (foreign : ∀ any, .unknown any ∈ details → Foreign any) {read : Status}
    (carried : read.details = (Status.withErrorDetails prost code message details).details) :
    Status.errorDetails prost read = .ok details := by
  have bytes : read.details =
      prost.encodeStatus ⟨Code.asI32 code, message, details.map (·.intoAny prost)⟩ := carried
  unfold Status.errorDetails
  split
  · rename_i nothing
    have none := empty_status lawful (bytes.symm.trans nothing)
    rw [List.map_eq_nil_iff.mp none]
  · rw [bytes, lawful.status]
    exact decode_details lawful details foreign

end Lawful

/-- These details are read off a status: all of them in order, and by each accessor
    the first of its type. -/
structure Recovered (details : List (ErrorDetail Message)) (read : Status) : Prop where
  errorDetails : Status.errorDetails prost read = .ok details
  getDetails : ∀ t, getDetails prost t read = details.findSome? (ErrorDetail.variant t)

theorem get_details_impl (t : MessageType) : getDetails prost t = implGetDetails prost t := by
  cases t <;> rfl

theorem recovered_packed {prost : Prost Message ε} (lawful : prost.Lawful) {code : Code}
    {message : String} {details : List (ErrorDetail Message)}
    (foreign : ∀ any, .unknown any ∈ details → Foreign any) {read : Status}
    (carried : read.details = (Status.withErrorDetails prost code message details).details) :
    Recovered prost details read := by
  have all := error_details_packed lawful foreign carried
  refine ⟨all, ?_⟩
  intro t
  rw [get_details_impl, implGetDetails, all]

/-- Rich details survive the wire: sent as trailers or as a response of trailers alone,
    a status is read back with its code and message, the same details in the same order,
    and the first of each type. -/
theorem rich_details_survive {σ U : Type} {prost : Prost Message ε} (lawful : prost.Lawful)
    (code : Code) (message : String) (details : List (ErrorDetail Message))
    (foreign : ∀ any, .unknown any ∈ details → Foreign any) :
    (∃ headers read, Status.intoHttp (σ := σ) (U := U)
        (Status.withErrorDetails prost code message details) = ⟨200, headers, .empty⟩ ∧
      Status.fromHeaderMap headers = some read ∧ read.code = code ∧ read.message = message ∧
      Recovered prost details read) ∧
    ∃ map read, (Status.withErrorDetails prost code message details).toHeaderMap = .ok map ∧
      Status.fromHeaderMap map = some read ∧ read.code = code ∧ read.message = message ∧
      Recovered prost details read := by
  constructor
  · obtain ⟨headers, made, written⟩ := into_http_written (σ := σ) (U := U)
      (Status.withErrorDetails prost code message details)
    obtain ⟨read, parsed, sameCode, sameMessage, carried⟩ :=
      from_header_map_written written (by decide) (by decide)
    exact ⟨headers, read, made, parsed, sameCode, sameMessage,
      recovered_packed lawful foreign carried⟩
  · obtain ⟨map, made, written⟩ :=
      to_header_map_written (Status.withErrorDetails prost code message details)
    obtain ⟨read, parsed, sameCode, sameMessage, carried⟩ := from_header_map_written written rfl rfl
    exact ⟨map, read, made, parsed, sameCode, sameMessage,
      recovered_packed lawful foreign carried⟩

end RoundTrip

section Fields

def encodeTexts (texts : String × String) : Bytes :=
  writeFields (bytesField 1 (asBytes texts.1) ++ bytesField 2 (asBytes texts.2))

def decodeTexts (bytes : Bytes) : Except String (String × String) :=
  match readFields bytes with
  | none => .error "invalid field"
  | some fields =>
    match decodeUtf8 (lastBytes 1 fields), decodeUtf8 (lastBytes 2 fields) with
    | .ok first, .ok second => .ok (first, second)
    | .error e, _ => .error e
    | _, .error e => .error e

def encodeAnyFields (any : Any) : Bytes :=
  writeFields (bytesField 1 (asBytes any.typeUrl) ++ bytesField 2 any.value)

def decodeAnyFields (bytes : Bytes) : Except String Any :=
  match readFields bytes with
  | none => .error "invalid field"
  | some fields =>
    match decodeUtf8 (lastBytes 1 fields) with
    | .ok typeUrl => .ok ⟨typeUrl, lastBytes 2 fields⟩
    | .error e => .error e

/-- The code as the 64 bits it is extended to. -/
def statusFields (s : RpcStatus) : List Field :=
  varintField 1 (s.code.toInt % 2 ^ 64).toNat ++
    (bytesField 2 (asBytes s.message) ++ repeatedField 3 (s.details.map encodeAnyFields))

def decodeStatusFields (bytes : Bytes) : Except String RpcStatus :=
  match readFields bytes with
  | none => .error "invalid field"
  | some fields =>
    match decodeUtf8 (lastBytes 2 fields), (repeated 3 fields).mapM decodeAnyFields with
    | .ok message, .ok details => .ok ⟨Int32.ofInt (lastVarint 1 fields), message, details⟩
    | .error e, _ => .error e
    | _, .error e => .error e

def fieldsProst : Prost (fun _ => String × String) String where
  encode _ := encodeTexts
  decode _ := decodeTexts
  encodeStatus s := writeFields (statusFields s)
  decodeStatus := decodeStatusFields

theorem two_bytes_fields (first second : Bytes) :
    lastBytes 1 (bytesField 1 first ++ bytesField 2 second) = first ∧
      lastBytes 2 (bytesField 1 first ++ bytesField 2 second) = second := by
  constructor
  · rw [lastBytes, List.filterMap_append, bytes_of_bytes_field, bytes_of_bytes_field]
    by_cases empty : first = [] <;> simp [empty]
  · rw [lastBytes, List.filterMap_append, bytes_of_bytes_field, bytes_of_bytes_field]
    by_cases empty : second = [] <;> simp [empty]

theorem code_extended (code : Int32) : Int32.ofInt (code.toInt % 2 ^ 64).toNat = code := by
  have low := code.le_toInt
  have high := code.toInt_lt
  have same : ((code.toInt % 2 ^ 64).toNat : Int) = code.toInt % 2 ^ 64 :=
    Int.toNat_of_nonneg (Int.emod_nonneg _ (by decide))
  rw [← Int32.toInt_inj, Int32.toInt_ofInt, same, Int.bmod_def]
  simp only [Int32.size]
  omega

theorem decode_any_fields (any : Any) : decodeAnyFields (encodeAnyFields any) = .ok any := by
  obtain ⟨url, value⟩ := two_bytes_fields (asBytes any.typeUrl) any.value
  simp only [decodeAnyFields, encodeAnyFields, read_fields_write, url, value, decode_utf8_bytes]

theorem status_fields_read (s : RpcStatus) :
    lastVarint 1 (statusFields s) = (s.code.toInt % 2 ^ 64).toNat ∧
      lastBytes 2 (statusFields s) = asBytes s.message ∧
      repeated 3 (statusFields s) = s.details.map encodeAnyFields := by
  refine ⟨?_, ?_, ?_⟩
  · simp only [lastVarint, statusFields, List.filterMap_append, varint_of_varint_field,
      varint_of_bytes_field, varint_of_repeated, List.append_nil]
    by_cases zero : (s.code.toInt % 2 ^ 64).toNat = 0
    · simp only [zero, ne_eq, not_true_eq_false, and_false, if_false, List.getLastD_nil]
    · simp only [zero, ne_eq, not_false_eq_true, and_self, if_true]
      rfl
  · simp only [lastBytes, statusFields, List.filterMap_append, bytes_of_varint_field,
      bytes_of_bytes_field, bytes_of_repeated]
    by_cases empty : asBytes s.message = [] <;> simp [empty]
  · simp only [repeated, statusFields, List.filterMap_append, bytes_of_varint_field,
      bytes_of_bytes_field, bytes_of_repeated]
    simp

theorem fields_prost_lawful : fieldsProst.Lawful := by
  constructor
  case message =>
    intro t texts
    obtain ⟨first, second⟩ := two_bytes_fields (asBytes texts.1) (asBytes texts.2)
    simp only [fieldsProst, decodeTexts, encodeTexts, read_fields_write, first, second,
      decode_utf8_bytes]
  case status =>
    intro s
    have details : (s.details.map encodeAnyFields).mapM decodeAnyFields = .ok s.details := by
      induction s.details with
      | nil => rfl
      | cons any details ih =>
        rw [List.map_cons, List.mapM_cons, decode_any_fields, ih]
        rfl
    obtain ⟨code, message, packed⟩ := status_fields_read s
    simp only [fieldsProst, decodeStatusFields, read_fields_write, code, message, packed, details,
      decode_utf8_bytes, code_extended]
  case default => rfl

end Fields

/-- A request info, a type of another program, and two localized messages. -/
theorem four_details_survive :
    let details : List (ErrorDetail fun _ => String × String) :=
      [.requestInfo ("req-12345", ""), .unknown ⟨"type.googleapis.com/some.Unknown", [1, 2, 3]⟩,
        .localizedMessage ("en-US", "Quota exceeded"), .localizedMessage ("de-DE", "zu viel")]
    (∃ headers read, Status.intoHttp (σ := Unit) (U := Unit)
        (Status.withErrorDetails fieldsProst .resourceExhausted "quota exceeded" details) =
          ⟨200, headers, .empty⟩ ∧
      Status.fromHeaderMap headers = some read ∧ read.code = .resourceExhausted ∧
      read.message = "quota exceeded" ∧ Recovered fieldsProst details read) ∧
    ∃ map read, (Status.withErrorDetails fieldsProst .resourceExhausted "quota exceeded"
        details).toHeaderMap = .ok map ∧
      Status.fromHeaderMap map = some read ∧ read.code = .resourceExhausted ∧
      read.message = "quota exceeded" ∧ Recovered fieldsProst details read := by
  intro details
  apply rich_details_survive fields_prost_lawful .resourceExhausted "quota exceeded" details
  intro any mem t
  simp only [details, List.mem_cons, reduceCtorEq, ErrorDetail.unknown.injEq, List.not_mem_nil,
    or_false, false_or] at mem
  subst mem
  cases t <;> simp [typeUrl]

end RichDetails
