import PureGrpc.GrpcClient
import PureGrpc.TruncationDetection

/-!
What a caller is told of a response that is not from a gRPC server: an HTTP status
other than 200 and no status of the protocol. The HTTP status is looked at only
when the body has been read to a clean end, and the body is read as messages.
-/
namespace HttpFailures
open KeyedMultimap LengthFraming GrpcMetadata GrpcStatus GrpcCompression GrpcCodec PolledMachines
open HttpBodies MessageEncoding StreamingDecode StreamingScan TruncationDetection AwaitedMessages
open GrpcHandler GrpcClient

variable {X σ δ T U : Type} (dec : Decoder δ U) (z : Compressors)

def inferredCode (statusCode : Nat) : Option Code :=
  match inferGrpcStatus none statusCode with
  | .error (some status) => some status.code
  | _ => none

/-- The call fails with the code of the HTTP status, and its body gives no message. -/
def KeepsMeaning (client : GrpcClient.Grpc σ δ) (transport : Transport X σ T)
    (request : Request X T) (path : String) (response : HttpResponse (Body Status)) : Prop :=
  (∃ e, client.unary dec z transport request path = .error e ∧
    some e.code = inferredCode response.status) ∧
  ∀ made, client.createResponse response = .ok made → ∀ msgs o t,
    Reads (Streaming.pollNext dec z) made.message msgs o t → msgs = []

/-- An end of the body that leaves the code to the HTTP status, or has the same one. -/
def KeepsCode (code : Option Code) : Fate → Tail Status → Prop
  | .bad status, _ => some status.code = code
  | .finished left, .eof => left = [] ∨ code = some .internal
  | .finished _, .trailers _ => True
  | .finished _, .error status => some status.code = code

/-- The encoding header is acceptable, and the bytes of the body make no message and
    no error, up to an error that has the code of the HTTP status by chance. -/
def Inconspicuous (client : GrpcClient.Grpc σ δ) (response : HttpResponse (Body Status)) : Prop :=
  match CompressionEncoding.fromEncodingHeader response.headers
      client.acceptCompressionEncodings with
  | .error status => some status.code = inferredCode response.status
  | .ok encoding =>
    ∃ fate, Received dec z encoding client.maxDecodingMessageSize client.decoder []
        response.body.chunks [] fate ∧
      KeepsCode (inferredCode response.status) fate response.body.tail

theorem inferred_code_some {statusCode : Nat} (failed : statusCode ≠ 200) :
    ∃ status, inferGrpcStatus none statusCode = .error (some status) ∧
      inferredCode statusCode = some status.code := by
  have mapped : ∃ status, inferGrpcStatus none statusCode = .error (some status) := by
    simp only [inferGrpcStatus, Option.bind_none]
    repeat' split
    all_goals exact ⟨_, rfl⟩
  obtain ⟨status, mapped⟩ := mapped
  exact ⟨status, mapped, by simp only [inferredCode, mapped]⟩

theorem verdict_code {statusCode : Nat} (failed : statusCode ≠ 200) {tail : Tail Status}
    (noTrailers : ∀ map, tail = .trailers map → getAll map grpcStatus = []) (fate : Fate) :
    ∃ e, fate.verdict (.response statusCode) tail = some e ∧
      (some e.code = inferredCode statusCode ↔ KeepsCode (inferredCode statusCode) fate tail) := by
  obtain ⟨status, mapped, code⟩ := inferred_code_some failed
  have without : inferred (.response statusCode) none = some status := by
    simp only [inferred, mapped]
  cases fate with
  | bad e => exact ⟨e, rfl, Iff.rfl⟩
  | finished left =>
    cases tail with
    | eof =>
      by_cases empty : left = []
      · refine ⟨status, ?_, ?_⟩
        · simp only [Fate.verdict, ending, empty, ne_eq, not_true_eq_false, if_false, without]
        · simp only [KeepsCode, empty, true_or, code]
      · refine ⟨.internal "Unexpected EOF decoding stream.", ?_, ?_⟩
        · simp only [Fate.verdict, ending, empty, ne_eq, not_false_eq_true, if_true]
        · simp only [KeepsCode, empty, false_or]
          exact eq_comm
    | trailers map =>
      have absent := from_header_map_absent (noTrailers map rfl)
      have same : inferGrpcStatus (some map) statusCode = inferGrpcStatus none statusCode := by
        simp only [inferGrpcStatus, Option.bind_some, absent, Option.bind_none]
      refine ⟨status, ?_, ?_⟩
      · simp only [Fate.verdict, ending, inferred, same, mapped]
      · simp only [KeepsCode, code]
    | error e =>
      refine ⟨e, ?_, Iff.rfl⟩
      simp [Fate.verdict, ending]

section Calls
variable {client : GrpcClient.Grpc σ δ} {transport : Transport X σ T} {request : Request X T}
  {path : String} {sent : HttpRequest X (EncodeBody σ T)} {response : HttpResponse (Body Status)}
  (prepared : client.prepareRequest
    (client.encodeRequest (request.map fun message => [some message])) path = .ok sent)
  (answers : transport sent = .ok response)

include prepared answers in
theorem unary_rejected {status : Status} (rejected : client.createResponse response = .error status) :
    client.unary dec z transport request path = .error status := by
  simp only [GrpcClient.Grpc.unary, GrpcClient.Grpc.clientStreaming, GrpcClient.Grpc.streaming,
    prepared, answers, rejected]

include prepared answers in
theorem unary_fails {made : Response (Streaming δ)} {e : Status} {t : Streaming δ}
    (created : client.createResponse response = .ok made)
    (reads : Reads (Streaming.pollNext dec z) made.message [] (some e) t) :
    client.unary dec z transport request path =
      .error { e with metadata := e.metadata.merge made.metadata } := by
  have first : Streaming.message dec z made.message = (.error e, t) := message_reads dec z reads
  simp only [GrpcClient.Grpc.unary, GrpcClient.Grpc.clientStreaming, GrpcClient.Grpc.streaming,
    prepared, answers, created, first]

include prepared answers in
/-- The HTTP status keeps its meaning exactly when the body and the encoding header
    stay out of the way. -/
theorem http_failure_kept_iff (failed : response.status ≠ 200)
    (noHeader : getAll response.headers grpcStatus = [])
    (noTrailers : ∀ map, response.body.tail = .trailers map → getAll map grpcStatus = []) :
    KeepsMeaning dec z client transport request path response ↔
      Inconspicuous dec z client response := by
  unfold KeepsMeaning Inconspicuous
  cases encoding : CompressionEncoding.fromEncodingHeader response.headers
      client.acceptCompressionEncodings with
  | error status =>
    have rejected : client.createResponse response = .error status := by
      simp only [GrpcClient.Grpc.createResponse, encoding]
    have call := unary_rejected dec z prepared answers rejected
    constructor
    · intro holds
      obtain ⟨⟨e, fails, code⟩, _⟩ := holds
      rw [call] at fails
      cases fails
      exact code
    · intro code
      refine ⟨⟨status, call, code⟩, ?_⟩
      intro made wrong
      rw [rejected] at wrong
      cases wrong
  | ok encoding' =>
    have created : client.createResponse response = .ok ⟨⟨response.headers⟩,
        .newResponse client.decoder response.body response.status encoding'
          client.maxDecodingMessageSize⟩ := by
      simp only [GrpcClient.Grpc.createResponse, encoding, from_header_map_absent noHeader]
    obtain ⟨msgs, fate, received⟩ := received_total dec z encoding' client.maxDecodingMessageSize
      client.decoder [] response.body.chunks
    obtain ⟨t, reads, _⟩ := new_received dec z encoding' client.maxDecodingMessageSize client.decoder
      response.body (.response response.status) received
    obtain ⟨e, verdict, code⟩ := verdict_code failed noTrailers fate
    rw [verdict] at reads
    constructor
    · intro holds
      obtain ⟨⟨e', fails, same⟩, silent⟩ := holds
      have none := silent _ created msgs _ t reads
      subst none
      rw [unary_fails dec z prepared answers created reads] at fails
      cases fails
      exact ⟨fate, received, code.mp same⟩
    · intro holds
      obtain ⟨fate', received', keeps⟩ := holds
      obtain ⟨none, same⟩ := received_unique dec z encoding' client.maxDecodingMessageSize received
        received'
      subst none same
      refine ⟨⟨_, unary_fails dec z prepared answers created reads, code.mpr keeps⟩, ?_⟩
      intro other made msgs o u run
      rw [created] at made
      cases made
      exact (reads_unique _ run reads).1

end Calls

section Pages

def pageClient : GrpcClient.Grpc Unit Unit :=
  ⟨(), (), .ok, ⟨false, false, false⟩, none, some 64, none⟩

def noCompressors : Compressors :=
  ⟨fun _ _ => .error "not compressed", fun _ _ => .error "not compressed"⟩

def pageRequest : Request Unit Bytes := ⟨MetadataMap.new, [7], ()⟩

def proxyResponse (status : Nat) (page : Bytes) : HttpResponse (Body Status) :=
  ⟨status, [], ⟨[.data page], .eof⟩⟩

theorem page_flag (dec : Decoder Unit Bytes) :
    Received dec noCompressors none (some 64) () [] [.data (asBytes "<html>")] []
      (.bad (.internal ("invalid compression flag: " ++ toString 60 ++ " (valid: 0 or 1)"))) := by
  have flag : scanFrame dec noCompressors none (some 64) () (asBytes "<html>") =
      .bad (.internal ("invalid compression flag: " ++ toString 60 ++ " (valid: 0 or 1)")) := rfl
  exact .data rfl (.bad flag)

/-- A page that is no gRPC is an internal error, as is the status 400 itself. -/
theorem bad_request_page_kept :
    let dec := plainDecoder fun bytes : Bytes => (.ok bytes : Except Status Bytes)
    KeepsMeaning dec noCompressors pageClient
      (fun _ => .ok (proxyResponse 400 (asBytes "<html>"))) pageRequest "/greeter"
      (proxyResponse 400 (asBytes "<html>")) := by
  intro dec
  refine (http_failure_kept_iff dec noCompressors rfl rfl (by decide) rfl
    (by simp [proxyResponse])).mpr ?_
  exact ⟨_, page_flag dec, rfl⟩

/-- The first byte of a page is taken for a compression flag, and a page of zeros for
    an empty message. -/
theorem error_page_changes_code :
    let dec := plainDecoder fun bytes : Bytes => (.ok bytes : Except Status Bytes)
    inferredCode 503 = some .unavailable ∧
      (∃ e, pageClient.unary dec noCompressors (fun _ => .ok (proxyResponse 503 (asBytes "<html>")))
        pageRequest "/greeter" = .error e ∧ e.code = .internal) ∧
      ¬ KeepsMeaning dec noCompressors pageClient
        (fun _ => .ok (proxyResponse 503 (asBytes "<html>"))) pageRequest "/greeter"
        (proxyResponse 503 (asBytes "<html>")) ∧
      ∃ made t, pageClient.createResponse (proxyResponse 503 [0, 0, 0, 0, 0]) = .ok made ∧
        Reads (Streaming.pollNext dec noCompressors) made.message [[]]
          (some (.new .unavailable
            ("grpc-status header missing, mapped from HTTP status code " ++ toString 503))) t := by
  intro dec
  have code : inferredCode 503 = some .unavailable := by decide
  have fails : ∃ e, pageClient.unary dec noCompressors
      (fun _ => .ok (proxyResponse 503 (asBytes "<html>"))) pageRequest "/greeter" = .error e ∧
        e.code = .internal := by
    obtain ⟨t, reads, _⟩ := new_received dec noCompressors none (some 64) ()
      (proxyResponse 503 (asBytes "<html>")).body (.response 503) (page_flag dec)
    exact ⟨_, unary_fails dec noCompressors rfl rfl rfl reads, rfl⟩
  refine ⟨code, fails, ?_, ?_⟩
  · intro holds
    obtain ⟨⟨e, failed, same⟩, _⟩ := holds
    obtain ⟨e', failed', internal⟩ := fails
    cases failed.symm.trans failed'
    rw [internal] at same
    cases same.trans code
  · have waits : idle dec noCompressors none (some 64) () [] = some ((), [], []) := rfl
    have header : scanFrame dec noCompressors none (some 64) () [0, 0, 0, 0, 0] =
        scanBody dec noCompressors () none 0 [] := rfl
    have message : scanFrame dec noCompressors none (some 64) () [0, 0, 0, 0, 0] =
        .message [] () [] := header
    obtain ⟨t, reads, _⟩ := new_received dec noCompressors none (some 64) ()
      (proxyResponse 503 [0, 0, 0, 0, 0]).body (.response 503)
      (.data waits (.message message (.finished waits)))
    exact ⟨_, t, rfl, reads⟩

end Pages

end HttpFailures
