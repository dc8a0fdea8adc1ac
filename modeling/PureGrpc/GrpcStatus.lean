import PureGrpc.GrpcMetadata
import PureGrpc.Base64Groups
import PureGrpc.PercentCoding

/-!
Status codes and statuses, and how a status travels in headers: the code as a
decimal, the message percent-encoded, the details as unpadded base64, the
metadata without reserved names.
-/
namespace GrpcStatus
open KeyedMultimap LengthFraming GrpcMetadata

inductive Code where
  | ok | cancelled | unknown | invalidArgument | deadlineExceeded | notFound | alreadyExists
  | permissionDenied | resourceExhausted | failedPrecondition | aborted | outOfRange
  | unimplemented | internal | unavailable | dataLoss | unauthenticated
  deriving DecidableEq, Repr

def Code.all : List Code :=
  [.ok, .cancelled, .unknown, .invalidArgument, .deadlineExceeded, .notFound, .alreadyExists,
    .permissionDenied, .resourceExhausted, .failedPrecondition, .aborted, .outOfRange,
    .unimplemented, .internal, .unavailable, .dataLoss, .unauthenticated]

def Code.toHeaderValue : Code → HeaderValue
  | .ok => fromStatic "0" (by decide)
  | .cancelled => fromStatic "1" (by decide)
  | .unknown => fromStatic "2" (by decide)
  | .invalidArgument => fromStatic "3" (by decide)
  | .deadlineExceeded => fromStatic "4" (by decide)
  | .notFound => fromStatic "5" (by decide)
  | .alreadyExists => fromStatic "6" (by decide)
  | .permissionDenied => fromStatic "7" (by decide)
  | .resourceExhausted => fromStatic "8" (by decide)
  | .failedPrecondition => fromStatic "9" (by decide)
  | .aborted => fromStatic "10" (by decide)
  | .outOfRange => fromStatic "11" (by decide)
  | .unimplemented => fromStatic "12" (by decide)
  | .internal => fromStatic "13" (by decide)
  | .unavailable => fromStatic "14" (by decide)
  | .dataLoss => fromStatic "15" (by decide)
  | .unauthenticated => fromStatic "16" (by decide)

/-- The code whose decimal these bytes are, and Unknown for any other bytes. -/
def Code.fromBytes (bytes : Bytes) : Code :=
  (Code.all.find? fun c => c.toHeaderValue.bytes = bytes).getD .unknown

structure Status where
  code : Code
  message : String
  details : Bytes
  metadata : MetadataMap
  deriving DecidableEq, Repr

def Status.new (code : Code) (message : String) : Status := ⟨code, message, [], MetadataMap.new⟩

def Status.ok (message : String) : Status := .new .ok message
def Status.cancelled (message : String) : Status := .new .cancelled message
def Status.internal (message : String) : Status := .new .internal message
def Status.outOfRange (message : String) : Status := .new .outOfRange message
def Status.resourceExhausted (message : String) : Status := .new .resourceExhausted message
def Status.unimplemented (message : String) : Status := .new .unimplemented message

def grpcStatus : HeaderName := "grpc-status"
def grpcMessage : HeaderName := "grpc-message"
def grpcStatusDetails : HeaderName := "grpc-status-details-bin"

/-- Controls, everything beyond ASCII, and the ten characters the set adds. -/
def encodingSet (b : UInt8) : Bool :=
  decide (b < 32) || decide (127 ≤ b) ||
    [0x20, 0x22, 0x23, 0x25, 0x3C, 0x3E, 0x60, 0x3F, 0x7B, 0x7D].contains b

def isContinuation (b : UInt8) : Bool := decide (0x80 ≤ b) && decide (b < 0xC0)

/-- How many bytes a character starting with this byte takes, and which second
    byte may follow it; none where no character starts so. -/
def leadingByte (b : UInt8) : Option (Nat × UInt8 × UInt8) :=
  if b < 0x80 then some (1, 0, 0)
  else if b < 0xC2 then none
  else if b < 0xE0 then some (2, 0x80, 0xBF)
  else if b = 0xE0 then some (3, 0xA0, 0xBF)
  else if b = 0xED then some (3, 0x80, 0x9F)
  else if b < 0xF0 then some (3, 0x80, 0xBF)
  else if b = 0xF0 then some (4, 0x90, 0xBF)
  else if b < 0xF4 then some (4, 0x80, 0xBF)
  else if b = 0xF4 then some (4, 0x80, 0x8F)
  else none

/-- The text std gives for the first invalid sequence at or after an index. -/
def utf8ErrorFrom : Nat → Nat → Bytes → String
  | 0, _, _ => ""
  | _, _, [] => ""
  | fuel + 1, index, b :: rest =>
    let invalid (n : Nat) : String :=
      "invalid utf-8 sequence of " ++ toString n ++ " bytes from index " ++ toString index
    let incomplete : String := "incomplete utf-8 byte sequence from index " ++ toString index
    match leadingByte b with
    | none => invalid 1
    | some (width, lo, hi) =>
      match rest.take (width - 1) with
      | [] => if width = 1 then utf8ErrorFrom fuel (index + 1) rest else incomplete
      | second :: later =>
        if second < lo ∨ hi < second then invalid 1
        else match later.findIdx? fun b => !isContinuation b with
          | some n => invalid (n + 2)
          | none =>
            if later.length + 2 < width then incomplete
            else utf8ErrorFrom fuel (index + width) (rest.drop (width - 1))

def decodeUtf8 (bytes : Bytes) : Except String String :=
  match String.fromUTF8? ⟨bytes.toArray⟩ with
  | some s => .ok s
  | none => .error (utf8ErrorFrom bytes.length 0 bytes)

def Status.fromHeaderMap (headerMap : HeaderMap) : Option Status :=
  match getKey headerMap grpcStatus with
  | none => none
  | some value =>
    let code := Code.fromBytes value.bytes
    let errorMessage := match getKey headerMap grpcMessage with
      | some header => decodeUtf8 (PercentCoding.decode header.bytes)
      | none => .ok ""
    let details := match getKey headerMap grpcStatusDetails with
      | some header => Base64Groups.decode .indifferent header.bytes
      | none => some []
    match details with
    | none => some (.new .internal "invalid base64 in grpc-status-details-bin header")
    | some details =>
      let otherHeaders := headerMap.foldl
        (fun hm entry =>
          if entry.1 ≠ grpcStatus ∧ entry.1 ≠ grpcMessage ∧ entry.1 ≠ grpcStatusDetails then
            insertKey hm entry.1 entry.2
          else hm)
        ([] : HeaderMap)
      let message := match errorMessage with
        | .ok message => message
        | .error e => "Error deserializing status message header: " ++ e
      some ⟨code, message, details, ⟨otherHeaders⟩⟩

/-- The result and the target map, which an early return leaves half written. -/
def Status.addHeader (self : Status) (headerMap : HeaderMap) : Except Status Unit × HeaderMap :=
  let base := insertKey (self.metadata.extendSanitizedInto headerMap) grpcStatus
    self.code.toHeaderValue
  let encoded := PercentCoding.encode encodingSet (asBytes self.message)
  let named : Option HeaderMap :=
    if self.message = "" then some base
    else (fromMaybeShared encoded).map (insertKey base grpcMessage)
  match named with
  | none => (.error (.internal "invalid grpc-message header value"), base)
  | some named =>
    if self.details = [] then (.ok (), named)
    else match fromMaybeShared (Base64Groups.encode false self.details) with
      | none => (.error (.internal "invalid grpc-status-details-bin value"), named)
      | some value => (.ok (), insertKey named grpcStatusDetails value)

def Status.toHeaderMap (self : Status) : Except Status HeaderMap :=
  match self.addHeader [] with
  | (.ok (), headerMap) => .ok headerMap
  | (.error e, _) => .error e

def inferGrpcStatus (trailers : Option HeaderMap) (statusCode : Nat) :
    Except (Option Status) Unit :=
  match trailers.bind Status.fromHeaderMap with
  | some status => if status.code = .ok then .ok () else .error (some status)
  | none =>
    let mapped (code : Code) : Except (Option Status) Unit :=
      .error (some (.new code
        ("grpc-status header missing, mapped from HTTP status code " ++ toString statusCode)))
    if statusCode = 400 then mapped .internal
    else if statusCode = 401 then mapped .unauthenticated
    else if statusCode = 403 then mapped .permissionDenied
    else if statusCode = 404 then mapped .notFound
    else if statusCode = 429 ∨ statusCode = 502 ∨ statusCode = 503 ∨ statusCode = 504 then
      mapped .unavailable
    else if statusCode = 200 then .error none
    else mapped .unknown

theorem code_round_trip (c : Code) : Code.fromBytes c.toHeaderValue.bytes = c := by
  cases c <;> decide

theorem decode_utf8_bytes (s : String) : decodeUtf8 (asBytes s) = .ok s := by
  have bytes : (⟨(asBytes s).toArray⟩ : ByteArray) = s.toByteArray := rfl
  have valid := s.isValidUTF8
  simp only [decodeUtf8, bytes, String.fromUTF8?, dif_pos valid]
  rfl

theorem encoded_message_valid (bytes : Bytes) :
    ∀ b ∈ PercentCoding.encode encodingSet bytes, isValidByte b = true := by
  apply PercentCoding.encode_all encodingSet (isValidByte · = true)
  · intro b plain
    have visible : 32 ≤ b ∧ b < 127 := by
      simp only [encodingSet, Bool.or_eq_false_iff, decide_eq_false_iff_not] at plain
      exact ⟨UInt8.not_lt.mp plain.1.1, UInt8.not_le.mp plain.1.2⟩
    have other : b ≠ 127 := by
      rintro rfl
      exact absurd visible.2 (by decide)
    simp [isValidByte, visible.1, other]
  · decide
  · decide

theorem encoded_details_valid (details : Bytes) :
    ∀ b ∈ Base64Groups.encode false details, isValidByte b = true := by
  have table : ∀ k < 64, isValidByte (Base64Groups.symbol k) = true := by decide
  fun_induction Base64Groups.encode false details with
  | case1 => simp
  | case2 a =>
    have ha := a.toNat_lt
    simp only [List.mem_cons, Bool.false_eq_true, if_false, List.not_mem_nil, or_false]
    rintro b (rfl | rfl) <;> exact table _ (by omega)
  | case3 a b =>
    have ha := a.toNat_lt; have hb := b.toNat_lt
    simp only [List.mem_cons, Bool.false_eq_true, if_false, List.not_mem_nil, or_false]
    rintro c (rfl | rfl | rfl) <;> exact table _ (by omega)
  | case4 a b c rest ih =>
    have ha := a.toNat_lt; have hb := b.toNat_lt; have hc := c.toNat_lt
    simp only [List.mem_cons]
    rintro d (rfl | rfl | rfl | rfl | mem)
    · exact table _ (by omega)
    · exact table _ (by omega)
    · exact table _ (by omega)
    · exact table _ (by omega)
    · exact ih d mem

/-- What a status writes for each name, over whatever the target held before. -/
structure Written (s : Status) (before after : HeaderMap) : Prop where
  code : getAll after grpcStatus = [s.code.toHeaderValue]
  message : if s.message = "" then getAll after grpcMessage = getAll before grpcMessage
    else ∃ v, getAll after grpcMessage = [v] ∧
      v.bytes = PercentCoding.encode encodingSet (asBytes s.message)
  details : if s.details = [] then
      getAll after grpcStatusDetails = getAll before grpcStatusDetails
    else ∃ v, getAll after grpcStatusDetails = [v] ∧
      v.bytes = Base64Groups.encode false s.details
  others : ∀ k, k ≠ grpcStatus → k ≠ grpcMessage → k ≠ grpcStatusDetails →
    getAll after k = getAll (s.metadata.extendSanitizedInto before) k

theorem reserved_status_names :
    grpcStatus ∈ grpcReservedHeaders ∧ grpcMessage ∈ grpcReservedHeaders ∧
      grpcStatusDetails ∈ grpcReservedHeaders := by decide

theorem status_names_distinct :
    grpcStatus ≠ grpcMessage ∧ grpcStatus ≠ grpcStatusDetails ∧
      grpcMessage ≠ grpcStatusDetails := by decide

theorem add_header_written (s : Status) (before : HeaderMap) :
    ∃ after, s.addHeader before = (.ok (), after) ∧ Written s before after := by
  obtain ⟨message, hm, messageBytes⟩ :=
    from_maybe_shared_ok (encoded_message_valid (asBytes s.message))
  obtain ⟨details, hd, detailsBytes⟩ := from_maybe_shared_ok (encoded_details_valid s.details)
  obtain ⟨_, reservedMessage, reservedDetails⟩ := reserved_status_names
  have keptMessage := extend_sanitized_reserved s.metadata before grpcMessage reservedMessage
  have keptDetails := extend_sanitized_reserved s.metadata before grpcStatusDetails reservedDetails
  obtain ⟨sm, sd, md⟩ := status_names_distinct
  by_cases noMessage : s.message = "" <;> by_cases noDetails : s.details = []
  · refine ⟨_, by simp only [Status.addHeader, noMessage, noDetails, if_true]; rfl, ?_⟩
    constructor <;> simp_all [Ne.symm]
  · refine ⟨_, by
      simp only [Status.addHeader, noMessage, noDetails, if_true, if_false, hd]; rfl, ?_⟩
    constructor <;> simp_all [Ne.symm]
  · refine ⟨_, by
      simp only [Status.addHeader, noMessage, noDetails, if_true, if_false, hm,
        Option.map_some]; rfl, ?_⟩
    constructor <;> simp_all [Ne.symm]
  · refine ⟨_, by
      simp only [Status.addHeader, noMessage, noDetails, if_false, hm, hd,
        Option.map_some]; rfl, ?_⟩
    constructor <;> simp_all [Ne.symm]

/-- Same code, message and details: what a status is to the peer, metadata apart. -/
def Status.Agrees (s t : Status) : Prop :=
  s.code = t.code ∧ s.message = t.message ∧ s.details = t.details

theorem from_header_map_absent {m : HeaderMap} (absent : getAll m grpcStatus = []) :
    Status.fromHeaderMap m = none := by
  simp [Status.fromHeaderMap, getKey, absent]

theorem from_header_map_written {s : Status} {before after : HeaderMap}
    (written : Written s before after) (noMessage : getAll before grpcMessage = [])
    (noDetails : getAll before grpcStatusDetails = []) :
    ∃ read, Status.fromHeaderMap after = some read ∧ read.Agrees s := by
  have code : getKey after grpcStatus = some s.code.toHeaderValue := by simp [getKey, written.code]
  have details : (match getKey after grpcStatusDetails with
      | some header => Base64Groups.decode .indifferent header.bytes
      | none => some []) = some s.details := by
    have held := written.details
    split at held
    · rename_i empty
      simp [getKey, held, noDetails, empty]
    · obtain ⟨v, single, bytes⟩ := held
      simp [getKey, single, bytes, Base64Groups.decode_encode_unpadded]
  have message : (match getKey after grpcMessage with
      | some header => decodeUtf8 (PercentCoding.decode header.bytes)
      | none => .ok "") = .ok s.message := by
    have held := written.message
    split at held
    · rename_i empty
      simp [getKey, held, noMessage, empty]
    · obtain ⟨v, single, bytes⟩ := held
      have inverse := PercentCoding.decode_encode encodingSet (by decide) (asBytes s.message)
      simp [getKey, single, bytes, inverse, decode_utf8_bytes]
  refine ⟨_, by simp only [Status.fromHeaderMap, code, details, message]; rfl, ?_⟩
  exact ⟨code_round_trip s.code, rfl, rfl⟩

theorem to_header_map_written (s : Status) :
    ∃ after, s.toHeaderMap = .ok after ∧ Written s [] after := by
  obtain ⟨after, run, written⟩ := add_header_written s []
  exact ⟨after, by rw [Status.toHeaderMap, run], written⟩

/-- A status in the trailers decides the outcome, whatever the HTTP status. -/
theorem infer_written {s : Status} {trailers : HeaderMap} (written : Written s [] trailers)
    (statusCode : Nat) :
    if s.code = .ok then inferGrpcStatus (some trailers) statusCode = .ok ()
    else ∃ read, inferGrpcStatus (some trailers) statusCode = .error (some read) ∧
      read.Agrees s := by
  obtain ⟨read, parsed, agrees⟩ := from_header_map_written written rfl rfl
  split
  · rename_i good
    simp [inferGrpcStatus, parsed, agrees.1, good]
  · rename_i bad
    exact ⟨read, by simp [inferGrpcStatus, parsed, agrees.1, bad], agrees⟩

end GrpcStatus
