import PureGrpc.ConveyedFrames
import PureGrpc.StatusPropagation

/-!
How both ends of a call agree on compression. A peer names its encoding in a header
and in the flag of every frame; the server takes the first encoding of the caller's
offer that it may send. Everything a peer sends is read by the other end as it was
encoded, or refused before a service is called.
-/
namespace CompressionNegotiation
open KeyedMultimap LengthFraming GrpcMetadata GrpcStatus GrpcCompression GrpcCodec PolledMachines
open HttpBodies MessageEncoding StreamingDecode StreamingScan
open AwaitedMessages GrpcHandler GrpcClient StatusPropagation ConveyedFrames
open EncodeOrder (writeAll)
open FramingRoundTrip (payloadOf Fits framesOf paced_reads)

section Offers

def listed (acceptStr : String) : List String :=
  (acceptStr.toList.splitOn ',').map fun part => String.ofList (trim part)

def sendable (sendEncodings : EnabledCompressionEncodings) (name : String) :
    Option CompressionEncoding :=
  (CompressionEncoding.parse name).filter sendEncodings.isEnabled

theorem parse_some_iff (name : String) (encoding : CompressionEncoding) :
    CompressionEncoding.parse name = some encoding ↔ name = encoding.asStr := by
  constructor
  · intro parsed
    have named := List.find?_some parsed
    exact (of_decide_eq_true named).symm
  · rintro rfl
    cases encoding <;> decide

theorem sendable_iff (sendEncodings : EnabledCompressionEncodings) (name : String)
    (encoding : CompressionEncoding) :
    sendable sendEncodings name = some encoding ↔
      name = encoding.asStr ∧ sendEncodings.isEnabled encoding = true := by
  rw [sendable, Option.filter_eq_some_iff, parse_some_iff]

theorem picked_listed {headers : HeaderMap} {value : HeaderValue} {acceptStr : String}
    (offered : getKey headers acceptEncodingHeader = some value)
    (visible : value.toStr = some acceptStr) (sendEncodings : EnabledCompressionEncodings) :
    CompressionEncoding.fromAcceptEncodingHeader headers sendEncodings =
      (listed acceptStr).findSome? (sendable sendEncodings) := by
  rw [listed, List.findSome?_map]
  simp only [CompressionEncoding.fromAcceptEncodingHeader, offered, Option.bind_some, visible]
  congr 1
  funext part
  simp only [Function.comp_apply, sendable]
  cases CompressionEncoding.parse (String.ofList (trim part)) with
  | none => rfl
  | some encoding => simp only [Option.filter_some]

theorem picked_iff {headers : HeaderMap} {value : HeaderValue} {acceptStr : String}
    (offered : getKey headers acceptEncodingHeader = some value)
    (visible : value.toStr = some acceptStr) (sendEncodings : EnabledCompressionEncodings)
    (encoding : CompressionEncoding) :
    CompressionEncoding.fromAcceptEncodingHeader headers sendEncodings = some encoding ↔
      ∃ before after, listed acceptStr = before ++ encoding.asStr :: after ∧
        sendEncodings.isEnabled encoding = true ∧
        ∀ other, other.asStr ∈ before → sendEncodings.isEnabled other = false := by
  rw [picked_listed offered visible, List.findSome?_eq_some_iff]
  have skipped (name : String) : sendable sendEncodings name = none ↔
      ∀ other : CompressionEncoding, other.asStr = name → sendEncodings.isEnabled other = false := by
    constructor
    · rintro none other rfl
      by_contra enabled
      rw [(sendable_iff sendEncodings _ other).mpr ⟨rfl, by simpa using enabled⟩] at none
      cases none
    · intro disabled
      by_contra known
      obtain ⟨other, known⟩ := Option.ne_none_iff_exists'.mp known
      obtain ⟨rfl, enabled⟩ := (sendable_iff sendEncodings name other).mp known
      rw [disabled other rfl] at enabled
      cases enabled
  constructor
  · intro given
    obtain ⟨before, name, after, split, chosen, earlier⟩ := given
    obtain ⟨rfl, enabled⟩ := (sendable_iff sendEncodings name encoding).mp chosen
    refine ⟨before, after, split, enabled, ?_⟩
    intro other mem
    exact (skipped _).mp (earlier _ mem) other rfl
  · intro chosen
    obtain ⟨before, after, split, enabled, earlier⟩ := chosen
    refine ⟨before, _, after, split, (sendable_iff sendEncodings _ encoding).mpr ⟨rfl, enabled⟩, ?_⟩
    intro name mem
    rw [skipped]
    rintro other rfl
    exact earlier other mem

theorem offer_listed : ∀ gzip deflate zstd,
    let accepted := EnabledCompressionEncodings.mk gzip deflate zstd
    (accepted.intoAcceptEncodingHeaderValue.bind HeaderValue.toStr).map listed =
      if CompressionEncoding.encodings.any accepted.isEnabled then
        some ((CompressionEncoding.encodings.filter accepted.isEnabled).map (·.asStr))
      else none := by
  decide

theorem picked_sendable {headers : HeaderMap} {sendEncodings : EnabledCompressionEncodings}
    {encoding : CompressionEncoding}
    (picked : CompressionEncoding.fromAcceptEncodingHeader headers sendEncodings = some encoding) :
    sendEncodings.isEnabled encoding = true := by
  unfold CompressionEncoding.fromAcceptEncodingHeader at picked
  split at picked
  · cases picked
  · obtain ⟨part, _, chosen⟩ := List.exists_of_findSome?_eq_some picked
    split at chosen
    · split at chosen
      · rename_i enabled
        cases chosen
        exact enabled
      · cases chosen
    · cases chosen

theorem picked_common {headers : HeaderMap} {accepted : EnabledCompressionEncodings}
    (offered : getKey headers acceptEncodingHeader = accepted.intoAcceptEncodingHeaderValue)
    (sendEncodings : EnabledCompressionEncodings) :
    ((CompressionEncoding.fromAcceptEncodingHeader headers sendEncodings).isSome = true ↔
      ∃ c, accepted.isEnabled c = true ∧ sendEncodings.isEnabled c = true) ∧
    ∀ c, CompressionEncoding.fromAcceptEncodingHeader headers sendEncodings = some c →
      accepted.isEnabled c = true ∧ sendEncodings.isEnabled c = true := by
  have both (c : CompressionEncoding)
      (picked : CompressionEncoding.fromAcceptEncodingHeader headers sendEncodings = some c) :
      accepted.isEnabled c = true ∧ sendEncodings.isEnabled c = true :=
    ⟨picked_encoding_enabled offered picked, picked_sendable picked⟩
  refine ⟨?_, both⟩
  constructor
  · intro picked
    obtain ⟨c, picked⟩ := Option.isSome_iff_exists.mp picked
    exact ⟨c, both c picked⟩
  · intro chosen
    obtain ⟨c, accepts, sends⟩ := chosen
    have known : c ∈ CompressionEncoding.encodings := by
      cases c <;> decide
    have names := offer_listed accepted.gzip accepted.deflate accepted.zstd
    have some_enabled : CompressionEncoding.encodings.any accepted.isEnabled = true :=
      List.any_eq_true.mpr ⟨c, known, accepts⟩
    dsimp only at names
    rw [if_pos some_enabled] at names
    obtain ⟨acceptStr, read, listing⟩ := Option.map_eq_some_iff.mp names
    obtain ⟨value, made, visible⟩ := Option.bind_eq_some_iff.mp read
    rw [picked_listed (offered.trans made) visible, List.findSome?_isSome_iff]
    refine ⟨c.asStr, ?_, ?_⟩
    · rw [listing]
      exact List.mem_map.mpr ⟨c, List.mem_filter.mpr ⟨known, accepts⟩, rfl⟩
    · rw [(sendable_iff sendEncodings _ c).mpr ⟨rfl, sends⟩]
      rfl

end Offers

section Calls
variable {X σ σ' δ δ' T U : Type} (clientEnc : Encoder σ T) (clientDec : Decoder δ U)
  (serverEnc : Encoder σ' U) (serverDec : Decoder δ' T) (z : Compressors)

/-- The responses to a request, whatever the service is. -/
inductive Handles (server : GrpcHandler.Grpc σ' δ') (req : HttpRequest X (Body Status)) :
    HttpResponse (ResponseBody σ' U) → Prop where
  | unary (service : Request X T → Except Status (Response U)) :
      Handles server req (server.unary serverDec z service req)
  | serverStreaming (service : Request X T → Except Status (Response (List (SourceEvent U)))) :
      Handles server req (server.serverStreaming serverDec z service req)
  | clientStreaming (service : Request X (Streaming δ') → Except Status (Response U)) :
      Handles server req (server.clientStreaming service req)
  | streaming (service : Request X (Streaming δ') → Except Status (Response (List (SourceEvent U)))) :
      Handles server req (server.streaming service req)

/-- The responses of handlers whose service returned Ok, with what it returned. -/
inductive Answered (server : GrpcHandler.Grpc σ' δ') (req : HttpRequest X (Body Status)) :
    Response (List (SourceEvent U)) → HttpResponse (ResponseBody σ' U) → Prop where
  | unary {service : Request X T → Except Status (Response U)} {r answer}
      (called : server.mapRequestUnary serverDec z req = .ok r) (returned : service r = .ok answer) :
      Answered server req (answer.map once) (server.unary serverDec z service req)
  | serverStreaming {service : Request X T → Except Status (Response (List (SourceEvent U)))}
      {r answer} (called : server.mapRequestUnary serverDec z req = .ok r)
      (returned : service r = .ok answer) :
      Answered server req answer (server.serverStreaming serverDec z service req)
  | clientStreaming {service : Request X (Streaming δ') → Except Status (Response U)} {r answer}
      (called : server.mapRequestStreaming req = .ok r) (returned : service r = .ok answer) :
      Answered server req (answer.map once) (server.clientStreaming service req)
  | streaming {service : Request X (Streaming δ') → Except Status (Response (List (SourceEvent U)))}
      {r answer} (called : server.mapRequestStreaming req = .ok r)
      (returned : service r = .ok answer) :
      Answered server req answer (server.streaming service req)

/-- A request is not mapped, or refused by the service, or answered. -/
theorem outcome_cases {R A : Type} (mapped : Except Status R) (service : R → Except Status A) :
    (∃ s, mapped = .error s) ∨ (∃ r s, mapped = .ok r ∧ service r = .error s) ∨
      ∃ r answer, mapped = .ok r ∧ service r = .ok answer := by
  cases mapped with
  | error s => exact .inl ⟨s, rfl⟩
  | ok r =>
    cases returned : service r with
    | error s => exact .inr (.inl ⟨r, s, rfl, returned⟩)
    | ok answer => exact .inr (.inr ⟨r, answer, rfl, returned⟩)

theorem handled_cases {server : GrpcHandler.Grpc σ' δ'} {req : HttpRequest X (Body Status)}
    {response : HttpResponse (ResponseBody σ' U)} (handles : Handles serverDec z server req response) :
    (∃ s, response = Status.intoHttp s) ∨ ∃ answer, Answered serverDec z server req answer response := by
  cases handles with
  | unary service =>
    rcases outcome_cases (server.mapRequestUnary serverDec z req) service with
      ⟨s, called⟩ | ⟨r, s, called, returned⟩ | ⟨r, answer, called, returned⟩
    · exact .inl ⟨s, by simp only [GrpcHandler.Grpc.unary, called]⟩
    · exact .inl ⟨s, by simp only [GrpcHandler.Grpc.unary, called, returned]; rfl⟩
    · exact .inr ⟨_, .unary called returned⟩
  | serverStreaming service =>
    rcases outcome_cases (server.mapRequestUnary serverDec z req) service with
      ⟨s, called⟩ | ⟨r, s, called, returned⟩ | ⟨r, answer, called, returned⟩
    · exact .inl ⟨s, by simp only [GrpcHandler.Grpc.serverStreaming, called]⟩
    · exact .inl ⟨s, by simp only [GrpcHandler.Grpc.serverStreaming, called, returned]; rfl⟩
    · exact .inr ⟨_, .serverStreaming called returned⟩
  | clientStreaming service =>
    rcases outcome_cases (server.mapRequestStreaming req) service with
      ⟨s, called⟩ | ⟨r, s, called, returned⟩ | ⟨r, answer, called, returned⟩
    · exact .inl ⟨s, by simp only [GrpcHandler.Grpc.clientStreaming, called]⟩
    · exact .inl ⟨s, by simp only [GrpcHandler.Grpc.clientStreaming, called, returned]; rfl⟩
    · exact .inr ⟨_, .clientStreaming called returned⟩
  | streaming service =>
    rcases outcome_cases (server.mapRequestStreaming req) service with
      ⟨s, called⟩ | ⟨r, s, called, returned⟩ | ⟨r, answer, called, returned⟩
    · exact .inl ⟨s, by simp only [GrpcHandler.Grpc.streaming, called]⟩
    · exact .inl ⟨s, by simp only [GrpcHandler.Grpc.streaming, called, returned]; rfl⟩
    · exact .inr ⟨_, .streaming called returned⟩

theorem answered_response {server : GrpcHandler.Grpc σ' δ'} {req : HttpRequest X (Body Status)}
    {answer : Response (List (SourceEvent U))} {response : HttpResponse (ResponseBody σ' U)}
    (answered : Answered serverDec z server req answer response) :
    response = server.mapResponse (.ok answer) (server.acceptEncoding req) := by
  cases answered with
  | unary called returned => simp only [GrpcHandler.Grpc.unary, called, returned]; rfl
  | serverStreaming called returned =>
    simp only [GrpcHandler.Grpc.serverStreaming, called, returned]
  | clientStreaming called returned =>
    simp only [GrpcHandler.Grpc.clientStreaming, called, returned]; rfl
  | streaming called returned => simp only [GrpcHandler.Grpc.streaming, called, returned]

theorem unmapped_rejected {server : GrpcHandler.Grpc σ' δ'} {req : HttpRequest X (Body Status)}
    {s : Status} (unary : server.mapRequestUnary serverDec z req = .error s)
    (streaming : server.mapRequestStreaming req = .error s)
    {response : HttpResponse (ResponseBody σ' U)} (handles : Handles serverDec z server req response) :
    response = Status.intoHttp s := by
  cases handles with
  | unary service => simp only [GrpcHandler.Grpc.unary, unary]
  | serverStreaming service => simp only [GrpcHandler.Grpc.serverStreaming, unary]
  | clientStreaming service => simp only [GrpcHandler.Grpc.clientStreaming, streaming]
  | streaming service => simp only [GrpcHandler.Grpc.streaming, streaming]

theorem map_request_unary_fails {server : GrpcHandler.Grpc σ' δ'}
    {req : HttpRequest X (Body Status)} {encoding : Option CompressionEncoding}
    (named : CompressionEncoding.fromEncodingHeader req.parts.headers
      server.acceptCompressionEncodings = .ok encoding) {msgs : List T} {o : Option Status}
    {t : Streaming δ'} (reads : Reads (Streaming.pollNext serverDec z)
      (.newRequest server.decoder req.body encoding server.maxDecodingMessageSize) msgs o t)
    {s : Status} (failed : server.mapRequestUnary serverDec z req = .error s) :
    o = some s ∨ s = .internal "Missing request message." := by
  have awaited := message_reads serverDec z reads
  simp only [GrpcHandler.Grpc.mapRequestUnary, named] at failed
  cases msgs with
  | nil =>
    cases o with
    | none =>
      simp only [Awaited] at awaited
      simp only [awaited, Except.error.injEq] at failed
      exact .inr failed.symm
    | some e =>
      simp only [Awaited] at awaited
      simp only [awaited, Except.error.injEq] at failed
      exact .inl (congrArg some failed)
  | cons msg msgs =>
    obtain ⟨u, message, rest⟩ := awaited
    have drained := drain_reads serverDec z rest
    simp only [message, Streaming.trailers] at failed
    cases held : u.inner.trailers with
    | some map => simp only [held, reduceCtorEq] at failed
    | none =>
      simp only [held, drained] at failed
      cases o with
      | none =>
        simp only [Option.elim] at failed
        cases arrived : t.inner.trailers with
        | none => simp only [arrived, Option.map_none, reduceCtorEq] at failed
        | some map => simp only [arrived, Option.map_some, reduceCtorEq] at failed
      | some e =>
        simp only [Option.elim, Except.error.injEq] at failed
        exact .inl (congrArg some failed)

section Headers

theorem prepared_encoding {β : Type} {client : GrpcClient.Grpc σ δ} {request : Request X β}
    {path : String} {sent : HttpRequest X β}
    (prepared : client.prepareRequest request path = .ok sent) :
    getAll sent.parts.headers encodingHeader =
        (client.sendCompressionEncoding.map (·.intoHeaderValue)).toList ∧
      sent.body = request.message := by
  have reserved : getAll request.metadata.intoSanitizedHeaders encodingHeader = [] := by
    rw [sanitized_values, if_pos (by decide)]
  have names : te ≠ encodingHeader ∧ contentType ≠ encodingHeader ∧
      acceptEncodingHeader ≠ encodingHeader := by decide
  unfold GrpcClient.Grpc.prepareRequest at prepared
  split at prepared
  · cases prepared
  · cases prepared
    refine ⟨?_, rfl⟩
    cases client.acceptCompressionEncodings.intoAcceptEncodingHeaderValue with
    | none => cases client.sendCompressionEncoding <;> simp [reserved, names]
    | some value => cases client.sendCompressionEncoding <;> simp [reserved, names]

theorem answer_encoding (server : GrpcHandler.Grpc σ' δ')
    (answer : Response (List (SourceEvent U))) (picked : Option CompressionEncoding) :
    getAll (server.mapResponse (.ok answer) picked).headers encodingHeader =
      (picked.map (·.intoHeaderValue)).toList := by
  have reserved : getAll answer.metadata.intoSanitizedHeaders encodingHeader = [] := by
    rw [sanitized_values, if_pos (by decide)]
  have names : contentType ≠ encodingHeader := by decide
  cases picked <;> simp [GrpcHandler.Grpc.mapResponse, Response.intoHttp, reserved, names]

theorem rejection_encoding {τ V : Type} (s : Status) :
    ∃ headers, Status.intoHttp (σ := τ) (U := V) s = ⟨200, headers, .empty⟩ ∧
      getAll headers encodingHeader = [] := by
  obtain ⟨headers, made, written⟩ := into_http_written (σ := τ) (U := V) s
  refine ⟨headers, made, ?_⟩
  rw [written.others encodingHeader (by decide) (by decide) (by decide),
    extend_sanitized_reserved _ _ _ (by decide)]
  decide

def unsupported (encoding : CompressionEncoding) : Status :=
  .unimplemented ("compression `" ++ encoding.asStr ++ "` is not supported")

theorem unsupported_refused {headers : HeaderMap} {accepted : EnabledCompressionEncodings}
    {encoding : CompressionEncoding}
    (named : getAll headers encodingHeader = [encoding.intoHeaderValue])
    (disabled : accepted.isEnabled encoding = false) :
    CompressionEncoding.fromEncodingHeader headers accepted = .error (unsupported encoding) := by
  have header : getKey headers encodingHeader = some encoding.intoHeaderValue := by
    rw [getKey, named]
    rfl
  have read : encoding.intoHeaderValue.toStr = some encoding.asStr ∧
      encoding.asStr ≠ "identity" ∧
      CompressionEncoding.parse encoding.asStr = some encoding := by
    cases encoding <;> decide
  simp only [CompressionEncoding.fromEncodingHeader, header, read, if_false, disabled,
    Bool.false_eq_true, unsupported]

theorem create_response_fails {client : GrpcClient.Grpc σ δ} {received : HttpResponse (Body Status)}
    {encoding : Option CompressionEncoding} (named : CompressionEncoding.fromEncodingHeader
      received.headers client.acceptCompressionEncodings = .ok encoding) {e : Status}
    (failed : client.createResponse received = .error e) :
    Status.fromHeaderMap received.headers = some e := by
  simp only [GrpcClient.Grpc.createResponse, named] at failed
  split at failed
  · rename_i status parsed
    split at failed
    · cases failed
      exact parsed
    · cases failed
  · cases failed

end Headers

/-- Every kind of call for this request fails with such a status. -/
def CallsFail (client : GrpcClient.Grpc σ δ) (transport : Transport X σ T)
    (request : Request X (List (Option T))) (path : String) (such : Status → Prop) : Prop :=
  (∃ e, client.streaming transport request path = .error e ∧ such e) ∧
  (∃ e, client.clientStreaming clientDec z transport request path = .error e ∧ such e) ∧
  ∀ single, request = single.map (fun message => [some message]) →
    (∃ e, client.serverStreaming transport single path = .error e ∧ such e) ∧
    ∃ e, client.unary clientDec z transport single path = .error e ∧ such e

/-- What both ends make of each other's compression, for one request and all its responses. -/
structure Coherent (client : GrpcClient.Grpc σ δ) (server : GrpcHandler.Grpc σ' δ')
    (request : Request X (List (Option T))) (path : String)
    (sent : HttpRequest X (EncodeBody σ T)) (req : HttpRequest X (Body Status)) : Prop where
  requestHeader : getAll sent.parts.headers encodingHeader =
    (client.sendCompressionEncoding.map (·.intoHeaderValue)).toList
  requestFrames : ∀ n bytes, answerAt (EncodeBody.pollFrame clientEnc z) sent.body n =
      .ready (some (.ok (.data bytes))) →
    Flagged (compressionFlag client.sendCompressionEncoding) bytes
  accepted : (∀ c, client.sendCompressionEncoding = some c →
      server.acceptCompressionEncodings.isEnabled c = true) →
    Understood clientEnc serverDec z client.sendCompressionEncoding client.maxEncodingMessageSize
      server.maxDecodingMessageSize (paced request.message) req.parts.headers
      server.acceptCompressionEncodings req.body ∧
    (∃ r, server.mapRequestStreaming req = .ok r) ∧
    (serverDec.Whole → ∀ s, server.mapRequestUnary serverDec z req = .error s →
      ReadFailure serverDec server.maxDecodingMessageSize s ∨
        ending .request req.body.tail [] = some s ∨ s = .internal "Missing request message.")
  refused : ∀ c, client.sendCompressionEncoding = some c →
    server.acceptCompressionEncodings.isEnabled c = false →
    server.mapRequestUnary serverDec z req = .error (unsupported c) ∧
    server.mapRequestStreaming req = .error (unsupported c) ∧
    (∀ response : HttpResponse (ResponseBody σ' U), Handles serverDec z server req response →
      response = Status.intoHttp (unsupported c)) ∧
    ∀ transport received,
      ResponseArrives serverEnc z (Status.intoHttp (unsupported c)) received →
      transport sent = .ok received →
      CallsFail clientDec z client transport request path fun e =>
        e.code = .unimplemented ∧ e.message = (unsupported c).message
  handled : ∀ response : HttpResponse (ResponseBody σ' U), Handles serverDec z server req response →
    (∃ s, response = Status.intoHttp s) ∨ ∃ answer, Answered serverDec z server req answer response
  rejected : ∀ s received, ResponseArrives serverEnc z (Status.intoHttp s) received →
    Understood serverEnc clientDec z none server.maxEncodingMessageSize
      client.maxDecodingMessageSize [] received.headers client.acceptCompressionEncodings
      received.body ∧
    ∀ e, client.createResponse received = .error e → Status.fromHeaderMap received.headers = some e
  picked : ((server.acceptEncoding req).isSome = true ↔
      ∃ c, client.acceptCompressionEncodings.isEnabled c = true ∧
        server.sendCompressionEncodings.isEnabled c = true) ∧
    ∀ c, server.acceptEncoding req = some c →
      client.acceptCompressionEncodings.isEnabled c = true ∧
        server.sendCompressionEncodings.isEnabled c = true
  answered : ∀ answer response, Answered serverDec z server req answer response →
    getAll response.headers encodingHeader =
      ((server.acceptEncoding req).map (·.intoHeaderValue)).toList ∧
    (∀ n bytes, answerAt (ResponseBody.pollFrame serverEnc z) response.body n =
        .ready (some (.ok (.data bytes))) →
      Flagged (compressionFlag (server.acceptEncoding req)) bytes) ∧
    ∀ received, ResponseArrives serverEnc z response received →
      Understood serverEnc clientDec z (server.acceptEncoding req) server.maxEncodingMessageSize
        client.maxDecodingMessageSize answer.message received.headers
        client.acceptCompressionEncodings received.body ∧
      client.createResponse received = .ok ⟨⟨received.headers⟩, .newResponse client.decoder
        received.body received.status (server.acceptEncoding req) client.maxDecodingMessageSize⟩

section Agreement
variable (total : ∀ e plain, ∃ packed, z.compress e plain = .ok packed) (inverse : z.Inverse)
  {client : GrpcClient.Grpc σ δ} {server : GrpcHandler.Grpc σ' δ'}
  {request : Request X (List (Option T))} {path : String}
  {sent : HttpRequest X (EncodeBody σ T)} {req : HttpRequest X (Body Status)}
  (prepared : client.prepareRequest (client.encodeRequest request) path = .ok sent)
  (arrives : RequestArrives clientEnc z sent req)

include prepared in
theorem request_sender : BodySender clientEnc z client.sendCompressionEncoding
    client.maxEncodingMessageSize (paced request.message) sent.body := by
  rw [(prepared_encoding prepared).2]
  exact body_sender_new clientEnc z client.sendCompressionEncoding client.maxEncodingMessageSize
    client.encoder (paced request.message) ⟨none, .client, false⟩ rfl

include total inverse prepared arrives in
theorem request_accepted (enabled : ∀ c, client.sendCompressionEncoding = some c →
      server.acceptCompressionEncodings.isEnabled c = true) :
    Understood clientEnc serverDec z client.sendCompressionEncoding client.maxEncodingMessageSize
      server.maxDecodingMessageSize (paced request.message) req.parts.headers
      server.acceptCompressionEncodings req.body ∧
    (∃ r, server.mapRequestStreaming req = .ok r) ∧
    (serverDec.Whole → ∀ s, server.mapRequestUnary serverDec z req = .error s →
      ReadFailure serverDec server.maxDecodingMessageSize s ∨
        ending .request req.body.tail [] = some s ∨ s = .internal "Missing request message.") := by
  have named : CompressionEncoding.fromEncodingHeader req.parts.headers
      server.acceptCompressionEncodings = .ok client.sendCompressionEncoding := by
    apply encoding_header_accepted _ enabled
    rw [arrives.parts, getKey, (prepared_encoding prepared).1]
    cases client.sendCompressionEncoding <;> rfl
  have understood := conveyed_understood clientEnc serverDec z client.sendCompressionEncoding
    client.maxEncodingMessageSize server.maxDecodingMessageSize inverse
    (poll_frame_sends clientEnc z client.sendCompressionEncoding client.maxEncodingMessageSize total)
    (request_sender clientEnc z prepared) arrives.body named
  refine ⟨understood, ⟨_, by simp only [GrpcHandler.Grpc.mapRequestStreaming, named]; rfl⟩, ?_⟩
  intro whole s failed
  obtain ⟨msgs, o, t, reads, blame⟩ := understood.reads whole server.decoder .request
  rcases map_request_unary_fails serverDec z named reads failed with same | missing
  · rcases blame s same with failure | sent
    · exact .inl failure
    · exact .inr (.inl sent)
  · exact .inr (.inr missing)

include prepared arrives in
theorem request_refused {c : CompressionEncoding} (send : client.sendCompressionEncoding = some c)
    (disabled : server.acceptCompressionEncodings.isEnabled c = false) :
    server.mapRequestUnary serverDec z req = .error (unsupported c) ∧
      server.mapRequestStreaming req = .error (unsupported c) := by
  have named := (prepared_encoding prepared).1
  rw [send, ← arrives.parts] at named
  have refusal := unsupported_refused named disabled
  exact ⟨by simp only [GrpcHandler.Grpc.mapRequestUnary, refusal],
    by simp only [GrpcHandler.Grpc.mapRequestStreaming, refusal]⟩

include prepared in
theorem rejection_fails {s : Status} (bad : s.code ≠ .ok) {transport : Transport X σ T}
    {received : HttpResponse (Body Status)}
    (returned : ResponseArrives (U := U) serverEnc z (Status.intoHttp s) received)
    (answers : transport sent = .ok received) :
    CallsFail clientDec z client transport request path fun e =>
      e.code = s.code ∧ e.message = s.message := by
  obtain ⟨headers, made, written⟩ := into_http_written (σ := σ') (U := U) s
  rw [made] at returned
  have same : received.headers = headers := returned.headers
  rw [← same] at written
  obtain ⟨e, failed, code, message, _⟩ := rejection_observed client bad written
  have call : client.streaming transport request path = .error e := by
    simp only [GrpcClient.Grpc.streaming, prepared, answers, failed]
  have single : client.clientStreaming clientDec z transport request path = .error e := by
    simp only [GrpcClient.Grpc.clientStreaming, call]
  refine ⟨⟨e, call, code, message⟩, ⟨e, single, code, message⟩, ?_⟩
  rintro one rfl
  exact ⟨⟨e, call, code, message⟩, ⟨e, single, code, message⟩⟩

include total inverse in
theorem rejection_understood {s : Status} {received : HttpResponse (Body Status)}
    (returned : ResponseArrives serverEnc z (Status.intoHttp s) received) :
    Understood serverEnc clientDec z none server.maxEncodingMessageSize
      client.maxDecodingMessageSize [] received.headers client.acceptCompressionEncodings
      received.body := by
  obtain ⟨headers, made, unnamed⟩ := rejection_encoding (τ := σ') (V := U) s
  rw [made] at returned
  have named : CompressionEncoding.fromEncodingHeader received.headers
      client.acceptCompressionEncodings = .ok none := by
    apply encoding_header_accepted
    · rw [returned.headers, getKey, unnamed]
      rfl
    · intro e wrong
      cases wrong
  exact conveyed_understood serverEnc clientDec z none server.maxEncodingMessageSize
    client.maxDecodingMessageSize inverse
    (response_frame_sends serverEnc z none server.maxEncodingMessageSize total)
    (s := .empty) trivial returned.body named

include prepared arrives in
theorem request_offers : getKey req.parts.headers acceptEncodingHeader =
    client.acceptCompressionEncodings.intoAcceptEncodingHeaderValue := by
  rw [arrives.parts]
  exact prepared_accept_encoding prepared

theorem answer_sender (answer : Response (List (SourceEvent U))) :
    ResponseSender serverEnc z (server.acceptEncoding req) server.maxEncodingMessageSize
      answer.message (server.mapResponse (.ok answer) (server.acceptEncoding req)).body :=
  body_sender_new serverEnc z (server.acceptEncoding req) server.maxEncodingMessageSize
    server.encoder answer.message ⟨none, .server, false⟩ rfl

include total inverse prepared arrives in
theorem answer_understood {answer : Response (List (SourceEvent U))}
    {received : HttpResponse (Body Status)} (returned : ResponseArrives serverEnc z
      (server.mapResponse (.ok answer) (server.acceptEncoding req)) received) :
    Understood serverEnc clientDec z (server.acceptEncoding req) server.maxEncodingMessageSize
        client.maxDecodingMessageSize answer.message received.headers
        client.acceptCompressionEncodings received.body ∧
      client.createResponse received = .ok ⟨⟨received.headers⟩, .newResponse client.decoder
        received.body received.status (server.acceptEncoding req) client.maxDecodingMessageSize⟩ := by
  have named : CompressionEncoding.fromEncodingHeader received.headers
      client.acceptCompressionEncodings = .ok (server.acceptEncoding req) := by
    apply encoding_header_accepted
    · rw [returned.headers, getKey, answer_encoding]
      cases server.acceptEncoding req <;> rfl
    · intro e picked
      exact picked_encoding_enabled (request_offers clientEnc z prepared arrives) picked
  have noStatus : getAll received.headers grpcStatus = [] := by
    obtain ⟨headers, made, absent, _⟩ :=
      map_response_headers server answer (server.acceptEncoding req)
    rw [returned.headers, made]
    exact absent
  refine ⟨conveyed_understood serverEnc clientDec z (server.acceptEncoding req)
    server.maxEncodingMessageSize client.maxDecodingMessageSize inverse
    (response_frame_sends serverEnc z _ _ total) (answer_sender serverEnc z answer)
    returned.body named, ?_⟩
  simp only [GrpcClient.Grpc.createResponse, named, from_header_map_absent noStatus]

include total inverse prepared arrives in
/-- Both ends agree on compression. The request names the client's encoding and its
    frames have that flag; a server that accepts it reads them, and one that does not
    refuses the call before any service is called. An answer is sent in the encoding
    the server picks, which is one both have enabled if there is one, and the client
    reads it in that encoding. Of any offer the first name is picked that is enabled. -/
theorem compression_coherent :
    Coherent clientEnc clientDec serverEnc serverDec z client server request path sent req ∧
    ∀ (other : HttpRequest X (Body Status)) (value : HeaderValue) (acceptStr : String),
      getKey other.parts.headers acceptEncodingHeader = some value →
      value.toStr = some acceptStr → ∀ encoding,
        server.acceptEncoding other = some encoding ↔
          ∃ before after, listed acceptStr = before ++ encoding.asStr :: after ∧
            server.sendCompressionEncodings.isEnabled encoding = true ∧
            ∀ skipped, skipped.asStr ∈ before →
              server.sendCompressionEncodings.isEnabled skipped = false := by
  have offers := request_offers clientEnc z prepared arrives
  constructor
  · constructor
    case requestHeader => exact (prepared_encoding prepared).1
    case requestFrames =>
      exact data_flagged clientEnc z _ _ (poll_frame_sends clientEnc z _ _ total)
        (request_sender clientEnc z prepared)
    case accepted =>
      exact request_accepted clientEnc serverDec z total inverse prepared arrives
    case refused =>
      intro c send disabled
      obtain ⟨unary, streaming⟩ :=
        request_refused clientEnc serverDec z prepared arrives send disabled
      refine ⟨unary, streaming, fun _ => unmapped_rejected serverDec z unary streaming, ?_⟩
      intro transport received returned answers
      exact rejection_fails clientDec serverEnc z prepared
        (by intro wrong; cases wrong) returned answers
    case handled => exact fun _ => handled_cases serverDec z
    case rejected =>
      intro s received returned
      have understood : Understood serverEnc clientDec z none server.maxEncodingMessageSize
          client.maxDecodingMessageSize [] received.headers client.acceptCompressionEncodings
          received.body :=
        rejection_understood clientDec serverEnc z total inverse returned
      exact ⟨understood, fun _ => create_response_fails understood.named⟩
    case picked => exact picked_common offers server.sendCompressionEncodings
    case answered =>
      intro answer response answered
      cases answered_response serverDec z answered
      refine ⟨answer_encoding server answer _, ?_, ?_⟩
      · exact data_flagged serverEnc z _ _ (response_frame_sends serverEnc z _ _ total)
          (answer_sender serverEnc z answer)
      · intro received returned
        exact answer_understood clientEnc clientDec serverEnc z total inverse prepared arrives
          returned
  · intro other value acceptStr offered visible encoding
    exact picked_iff offered visible server.sendCompressionEncodings encoding

end Agreement

end Calls

/-- A call in deflate, with a reserved name in its metadata. -/
theorem deflate_call_coherent :
    let enc := plainEncoder (fun m : Bytes => m) .default
    let dec := plainDecoder fun bytes : Bytes => .ok bytes
    let z := storedCompressors
    let client : GrpcClient.Grpc Unit Unit :=
      ⟨(), (), .ok, ⟨true, true, false⟩, some .deflate, none, none⟩
    let server : GrpcHandler.Grpc Unit Unit :=
      ⟨(), (), ⟨false, true, false⟩, ⟨false, true, true⟩, none, none⟩
    let request : Request Unit (List (Option Bytes)) :=
      ⟨⟨[(encodingHeader, fromStatic "br" (by decide))]⟩, [some unshortened], ()⟩
    let body : Body Status :=
      ⟨[.data ([1, 0, 0, 0, 45] ++ ([1, 40, 0, 215, 255] ++ unshortened))], .eof⟩
    ∃ sent, client.prepareRequest (client.encodeRequest request) "/greeter" = .ok sent ∧
      RequestArrives enc z sent ⟨sent.parts, body⟩ ∧
      Coherent enc dec enc dec z client server request "/greeter" sent ⟨sent.parts, body⟩ := by
  intro enc dec z client server request body
  have total : ∀ e plain, ∃ packed, z.compress e plain = .ok packed :=
    fun _ plain => ⟨deflateStored plain, rfl⟩
  obtain ⟨sent, prepared⟩ : ∃ sent, client.prepareRequest (client.encodeRequest request)
      "/greeter" = .ok sent := ⟨_, rfl⟩
  have payload : payloadOf enc z (some .deflate) () unshortened =
      some ([1, 40, 0, 215, 255] ++ unshortened) := congrArg some unshortened_stored
  have fits : Fits enc z (some .deflate) none none () [unshortened] :=
    ⟨⟨_, payload, by decide, by decide, by decide⟩, trivial⟩
  have frames : body.data = writeAll (framesOf enc z (some .deflate) () [unshortened]) := by
    simp only [framesOf, payload]
    decide
  have arrives : RequestArrives enc z sent ⟨sent.parts, body⟩ := by
    obtain ⟨chunks, last, run, same⟩ :=
      paced_reads enc z (some .deflate) none none () [some unshortened] fits
    refine ⟨rfl, ?_⟩
    rw [(prepared_encoding prepared).2, frames]
    change Carries _ _ (writeAll (framesOf enc z (some .deflate) ()
      [some unshortened].reduceOption)) .eof
    rw [← same]
    exact client_carries enc z rfl run
  exact ⟨sent, prepared, arrives,
    (compression_coherent enc dec enc dec z total stored_inverse prepared arrives).1⟩

end CompressionNegotiation
