import PureGrpc.CompressionNegotiation
import PureGrpc.MergedMetadata

/-!
A call at a distance against the function it is a call of. The server offers a function of
one of four kinds; the caller asks for a stream of messages or for a single one. Whatever
the transport does to the cut of the bytes, the function is asked with the caller's
messages and metadata, and the caller is told the function's answer.
-/
namespace RemoteCalls
open KeyedMultimap LengthFraming GrpcMetadata GrpcStatus GrpcCompression GrpcCodec PolledMachines
open HttpBodies MessageEncoding EncodeOrder StreamingDecode StreamingScan FramingRoundTrip
open AwaitedMessages GrpcHandler StatusPropagation InterceptedMetadata UnaryCardinality
open CompressionNegotiation (prepared_encoding)
open MergedMetadata (Overlaid overlaid_base success_overlaid)

variable {X X' σ σ' δ δ' T U : Type}

/-- What a service function says: an error, or a response and the source of its messages. -/
abbrev Answer (U : Type) := Except Status (Response (List (SourceEvent U)))

inductive Handler (X δ T U : Type) where
  | unary (service : Request X T → Except Status (Response U))
  | serverStreaming (service : Request X T → Answer U)
  | clientStreaming (service : Request X (Streaming δ) → Except Status (Response U))
  | streaming (service : Request X (Streaming δ) → Answer U)

def results : List (SourceEvent U) → List (Except Status U)
  | [] => []
  | .pending :: rest => results rest
  | .item result :: rest => result :: results rest

/-- What a caller can be told: a refusal, or metadata, messages and an end. -/
inductive Reply (U : Type) where
  | refused (status : Status)
  | streamed (metadata : MetadataMap) (messages : List U) (failure : Option Status)

def Reply.messages : Reply U → List U
  | .refused _ => []
  | .streamed _ messages _ => messages

def Reply.failure : Reply U → Option Status
  | .refused status => some status
  | .streamed _ _ failure => failure

/-- The messages of an answer before its first error, and that error. -/
def reply : Answer U → Reply U
  | .error status => .refused status
  | .ok response => .streamed response.metadata (goodItems (results response.message))
      (firstError (results response.message))

/-- The values a user may set are the same. -/
def Conveyed (md other : MetadataMap) : Prop :=
  ∀ key ∉ grpcReservedHeaders, getAll other.headers key = getAll md.headers key

/-- The same end of a stream: none, or errors that agree. -/
def SameEnd : Option Status → Option Status → Prop
  | none, none => True
  | some s, some e => e.Agrees s
  | _, _ => False

section Server
variable (dec : Decoder δ T) (z : Compressors)

def serve (server : GrpcHandler.Grpc σ δ) :
    Handler X δ T U → HttpRequest X (Body Status) → HttpResponse (ResponseBody σ U)
  | .unary service => server.unary dec z service
  | .serverStreaming service => server.serverStreaming dec z service
  | .clientStreaming service => server.clientStreaming service
  | .streaming service => server.streaming service

/-- A function asked with these messages and this metadata gives this answer. One that takes a
    single message is asked with the first, and is not asked without one. -/
inductive Asked (metadata : MetadataMap) (extensions : X) :
    List T → Handler X δ T U → Answer U → Prop where
  | unary {service msg rest} : Asked metadata extensions (msg :: rest) (.unary service)
      ((service ⟨metadata, msg, extensions⟩).map (·.map once))
  | serverStreaming {service msg rest} :
      Asked metadata extensions (msg :: rest) (.serverStreaming service)
        (service ⟨metadata, msg, extensions⟩)
  | noMessage {service} :
      Asked metadata extensions [] (.unary service) (.error missingRequest)
  | noFirstMessage {service} :
      Asked metadata extensions [] (.serverStreaming service) (.error missingRequest)
  | clientStreaming {service msgs stream t}
      (reads : Reads (Streaming.pollNext dec z) stream msgs none t) :
      Asked metadata extensions msgs (.clientStreaming service)
        ((service ⟨metadata, stream, extensions⟩).map (·.map once))
  | streaming {service msgs stream t}
      (reads : Reads (Streaming.pollNext dec z) stream msgs none t) :
      Asked metadata extensions msgs (.streaming service)
        (service ⟨metadata, stream, extensions⟩)

end Server

section Caller
variable (dec : Decoder δ U) (z : Compressors)

/-- One who asks for a stream gets an error, or the messages of the reply and its end. -/
def Streamed : Reply U → Except Status (Response (Streaming δ)) → Prop
  | .refused s, .error e => e.Agrees s
  | .streamed metadata msgs failure, .ok got => Conveyed metadata got.metadata ∧
      ∃ o t, Reads (Streaming.pollNext dec z) got.message msgs o t ∧ SameEnd failure o
  | _, _ => False

/-- One who asks for a single message gets the first of the reply, unless it fails or has none. -/
structure Single (told : Reply U) (got : Except Status (Response U)) : Prop where
  message : Same (got.map (·.message)) (single missingResponse told.messages told.failure)
  metadata : ∀ metadata msgs failure response, told = .streamed metadata msgs failure →
    got = .ok response → Conveyed metadata response.metadata

end Caller

def Proper (told : Reply U) : Prop := ∀ s, told.failure = some s → s.code ≠ .ok

section Sources

theorem source_cases (events : List (SourceEvent U)) :
    (∃ schedule, events = paced schedule ∧ goodItems (results events) = schedule.reduceOption ∧
        firstError (results events) = none) ∨
      ∃ schedule s more, events = failing schedule s more ∧
        goodItems (results events) = schedule.reduceOption ∧
        firstError (results events) = some s := by
  induction events with
  | nil => exact .inl ⟨[], rfl, rfl, rfl⟩
  | cons event rest ih =>
    cases event with
    | pending =>
      rcases ih with ⟨schedule, rfl, good, bad⟩ | ⟨schedule, s, more, rfl, good, bad⟩
      · exact .inl ⟨none :: schedule, rfl, good, bad⟩
      · exact .inr ⟨none :: schedule, s, more, rfl, good, bad⟩
    | item result =>
      cases result with
      | error s => exact .inr ⟨[], s, rest, rfl, rfl, rfl⟩
      | ok msg =>
        rcases ih with ⟨schedule, rfl, good, bad⟩ | ⟨schedule, s, more, rfl, good, bad⟩
        · exact .inl ⟨some msg :: schedule, rfl, by simp [results, goodItems, good], bad⟩
        · exact .inr ⟨some msg :: schedule, s, more, rfl, by simp [results, goodItems, good], bad⟩

variable (enc : Encoder σ U) (z : Compressors)

theorem source_reads (encoding : Option CompressionEncoding) (sendLimit recvLimit : Option Nat)
    (encoder : σ) (events : List (SourceEvent U))
    (fits : Fits enc z encoding sendLimit recvLimit encoder (goodItems (results events))) :
    ∃ chunks t, Reads (EncodedBytes.pollNext enc z)
        (.new encoder events encoding sendLimit) chunks (firstError (results events)) t ∧
      chunks.flatten = writeAll (framesOf enc z encoding encoder (goodItems (results events))) := by
  obtain ⟨schedule, paces, good, bad⟩ | ⟨schedule, s, more, fails, good, bad⟩ := source_cases events
  · rw [good] at fits ⊢
    rw [bad, paces]
    exact paced_reads enc z encoding sendLimit recvLimit encoder schedule fits
  · rw [good] at fits ⊢
    rw [bad, fails]
    apply sent_reads enc z encoding sendLimit recvLimit schedule (.item (.error s) :: more) encoder
      (some s) fits
    intro threshold last kept
    rw [emitted, spread_flushed, spread_error]
    obtain ⟨good, bad⟩ := good_items_append kept (.error s :: spread (emitted enc z encoding
      sendLimit (enc.bufferSettings last).yieldThreshold more last []))
    exact ⟨good.trans (List.append_nil _), bad⟩

theorem source_trailers (encoding : Option CompressionEncoding) (sendLimit recvLimit : Option Nat)
    (encoder : σ) (events : List (SourceEvent U))
    (fits : Fits enc z encoding sendLimit recvLimit encoder (goodItems (results events))) :
    ∃ trailers, ((firstError (results events)).getD (.ok "")).toHeaderMap = .ok trailers ∧
      Carries (ResponseBody.pollFrame enc z)
        (.encoded (.newServer encoder events encoding sendLimit))
        (writeAll (framesOf enc z encoding encoder (goodItems (results events))))
        (.trailers trailers) := by
  obtain ⟨chunks, t, run, bytes⟩ := source_reads enc z encoding sendLimit recvLimit encoder events
    fits
  obtain ⟨trailers, same, carries⟩ := server_carries enc z run
  rw [bytes] at carries
  exact ⟨trailers, same, encoded_body_carries enc z carries⟩

theorem source_carries (encoding : Option CompressionEncoding) (sendLimit recvLimit : Option Nat)
    (encoder : σ) (events : List (SourceEvent U))
    (fits : Fits enc z encoding sendLimit recvLimit encoder (goodItems (results events))) :
    ∃ trailers, Written ((firstError (results events)).getD (.ok "")) [] trailers ∧
      Carries (ResponseBody.pollFrame enc z)
        (.encoded (.newServer encoder events encoding sendLimit))
        (writeAll (framesOf enc z encoding encoder (goodItems (results events))))
        (.trailers trailers) := by
  obtain ⟨trailers, same, carries⟩ := source_trailers enc z encoding sendLimit recvLimit encoder
    events fits
  obtain ⟨after, run, written⟩ := to_header_map_written ((firstError (results events)).getD (.ok ""))
  cases same.symm.trans run
  exact ⟨trailers, written, carries⟩

end Sources

section Requests
variable (dec : Decoder δ T) (z : Compressors)

/-- A stream over a body without trailers, which has seen none. -/
def Untrailed (self : Streaming δ) : Prop :=
  self.inner.trailers = none ∧ ∀ map, self.inner.body.tail ≠ .trailers map

theorem frame_untrailed {inner next : StreamingInner} {answer : Poll (Except Status (Option Unit))}
    (clear : inner.trailers = none ∧ ∀ map, inner.body.tail ≠ .trailers map)
    (frame : inner.pollFrame = (answer, next)) :
    next.trailers = none ∧ ∀ map, next.body.tail ≠ .trailers map := by
  obtain ⟨noTrailers, bare⟩ := clear
  obtain ⟨⟨chunks, tail⟩, state, direction, buf, trailers, encoding, size⟩ := inner
  dsimp only at noTrailers bare
  subst noTrailers
  cases chunks with
  | cons chunk rest => cases chunk <;> cases frame <;> exact ⟨rfl, bare⟩
  | nil =>
    cases tail with
    | trailers map => exact absurd rfl (bare map)
    | eof =>
      simp only [StreamingInner.pollFrame, Body.pollFrame] at frame
      split at frame <;> cases frame <;> exact ⟨rfl, bare⟩
    | error status =>
      simp only [StreamingInner.pollFrame, Body.pollFrame] at frame
      split at frame
      all_goals
        cases frame
        refine ⟨rfl, ?_⟩
        intro map wrong
        cases wrong

theorem response_untrailed {inner next : StreamingInner} {good : Except Status Unit}
    (clear : inner.trailers = none ∧ ∀ map, inner.body.tail ≠ .trailers map)
    (answer : inner.response = (good, next)) :
    next.trailers = none ∧ ∀ map, next.body.tail ≠ .trailers map := by
  unfold StreamingInner.response at answer
  repeat' split at answer
  all_goals
    cases answer
    exact ⟨by simp only [clear.1], clear.2⟩

theorem attempt_untrailed {self t : Streaming δ} {result : Except Status (Option T)}
    (clear : Untrailed self) (attempt : self.decodeChunk dec z = (result, t)) : Untrailed t := by
  have same := decode_chunk_same dec z self
  rw [attempt] at same
  exact ⟨by rw [same.trailers, clear.1], by rw [same.body]; exact clear.2⟩

theorem poll_untrailed (self : Streaming δ) (clear : Untrailed self) :
    Untrailed (self.pollNext dec z).2 := by
  apply run_rule (Streaming.loop dec z) Untrailed (fun _ t => Untrailed t) _ _ self clear
  · intro s t kept turn
    have exit := turned dec z s
    rw [show s.turn dec z = .again t from turn] at exit
    cases exit with
    | feeds running attempt frame => exact frame_untrailed (attempt_untrailed dec z kept attempt) frame
    | refused running attempt frame answer =>
      obtain ⟨noTrailers, bare⟩ :=
        response_untrailed (frame_untrailed (attempt_untrailed dec z kept attempt) frame) answer
      exact ⟨noTrailers, bare⟩
  · intro s answer t kept turn
    have exit := turned dec z s
    rw [show s.turn dec z = .done answer t from turn] at exit
    cases exit with
    | errored state => exact kept
    | rejected running attempt => exact attempt_untrailed dec z kept attempt
    | decoded running attempt => exact attempt_untrailed dec z kept attempt
    | waits running attempt frame => exact frame_untrailed (attempt_untrailed dec z kept attempt) frame
    | fails running attempt frame => exact frame_untrailed (attempt_untrailed dec z kept attempt) frame
    | ends running attempt frame answer =>
      exact response_untrailed (frame_untrailed (attempt_untrailed dec z kept attempt) frame) answer

theorem reads_untrailed {s t : Streaming δ} {msgs : List T} {o : Option Status}
    (clear : Untrailed s) (run : Reads (Streaming.pollNext dec z) s msgs o t) : Untrailed t := by
  induction run with
  | @stop s t h =>
    have next := poll_untrailed dec z s clear
    rwa [h] at next
  | @fail s t e h =>
    have next := poll_untrailed dec z s clear
    rwa [h] at next
  | @wait s t _ _ _ h _ ih =>
    have next := poll_untrailed dec z s clear
    rw [h] at next
    exact ih next
  | @item s t _ _ _ _ h _ ih =>
    have next := poll_untrailed dec z s clear
    rw [h] at next
    exact ih next

theorem untrailed_request (server : GrpcHandler.Grpc σ δ) {req : HttpRequest X (Body Status)}
    {encoding : Option CompressionEncoding} {msgs : List T} {last : Streaming δ}
    (complete : req.body.tail = .eof)
    (accepted : CompressionEncoding.fromEncodingHeader req.parts.headers
      server.acceptCompressionEncodings = .ok encoding)
    (reads : Reads (Streaming.pollNext dec z) (.newRequest server.decoder req.body encoding
      server.maxDecodingMessageSize) msgs none last) :
    server.mapRequestUnary dec z req = msgs.head?.elim (.error missingRequest)
      fun msg => .ok ⟨⟨req.parts.headers⟩, msg, req.parts.extensions⟩ := by
  have awaited := message_reads dec z reads
  cases msgs with
  | nil =>
    simp only [Awaited] at awaited
    simp only [GrpcHandler.Grpc.mapRequestUnary, accepted, awaited]
    rfl
  | cons msg rest =>
    obtain ⟨u, first, later⟩ := awaited
    have underway := request_underway server req.body encoding server.maxDecodingMessageSize
    have open_yet := ((message_underway dec z _ underway).1 msg u first).trailers
    have start : Untrailed (Streaming.newRequest server.decoder req.body encoding
        server.maxDecodingMessageSize) :=
      ⟨rfl, fun map trailing => by cases complete.symm.trans trailing⟩
    have bare : last.inner.trailers = none := (reads_untrailed dec z start reads).1
    have drained := drain_reads dec z later
    have fetched : Streaming.trailers dec z u =
        (.ok none, { last with inner := { last.inner with trailers := none } }) := by
      simp only [Streaming.trailers, open_yet, drained, Option.elim, bare, Option.map_none]
    simp only [GrpcHandler.Grpc.mapRequestUnary, accepted, first, fetched, Request.fromHttpParts]
    rfl

/-- The server asks its function with the messages of the body, and maps what it answers. -/
theorem request_asks (server : GrpcHandler.Grpc σ δ) {req : HttpRequest X (Body Status)}
    {encoding : Option CompressionEncoding} {msgs : List T} {last : Streaming δ}
    (handler : Handler X δ T U) (complete : req.body.tail = .eof)
    (accepted : CompressionEncoding.fromEncodingHeader req.parts.headers
      server.acceptCompressionEncodings = .ok encoding)
    (reads : Reads (Streaming.pollNext dec z) (.newRequest server.decoder req.body encoding
      server.maxDecodingMessageSize) msgs none last) :
    ∃ answer, Asked dec z ⟨req.parts.headers⟩ req.parts.extensions msgs handler answer ∧
      serve dec z server handler req = server.mapResponse answer (server.acceptEncoding req) := by
  have single := untrailed_request dec z server complete accepted reads
  cases handler with
  | unary service =>
    cases msgs with
    | nil => exact ⟨_, .noMessage, by simp only [serve, GrpcHandler.Grpc.unary, single]; rfl⟩
    | cons msg rest => exact ⟨_, .unary, by simp only [serve, GrpcHandler.Grpc.unary, single]; rfl⟩
  | serverStreaming service =>
    cases msgs with
    | nil =>
      exact ⟨_, .noFirstMessage, by simp only [serve, GrpcHandler.Grpc.serverStreaming, single]; rfl⟩
    | cons msg rest =>
      exact ⟨_, .serverStreaming, by simp only [serve, GrpcHandler.Grpc.serverStreaming, single]; rfl⟩
  | clientStreaming service =>
    exact ⟨_, .clientStreaming reads, by
      simp only [serve, GrpcHandler.Grpc.clientStreaming, GrpcHandler.Grpc.mapRequestStreaming,
        accepted, Request.fromHttp, Request.fromHttpParts]⟩
  | streaming service =>
    exact ⟨_, .streaming reads, by
      simp only [serve, GrpcHandler.Grpc.streaming, GrpcHandler.Grpc.mapRequestStreaming,
        accepted, Request.fromHttp, Request.fromHttpParts]⟩

end Requests

section Answers
variable (enc : Encoder σ' U) (dec : Decoder δ U) (z : Compressors)

theorem written_ends {s : Status} {trailers : HeaderMap} (written : Written s [] trailers)
    (statusCode : Nat) :
    if s.code = .ok then inferred (.response statusCode) (some trailers) = none
    else ∃ read, inferred (.response statusCode) (some trailers) = some read ∧ read.Agrees s := by
  have status := infer_written written statusCode
  split at status <;> rename_i code
  · rw [if_pos code]
    simp only [inferred, status]
  · rw [if_neg code]
    obtain ⟨read, same, agrees⟩ := status
    exact ⟨read, by simp only [inferred, same], agrees⟩

theorem source_ends {end_ : Option Status} (proper : ∀ s, end_ = some s → s.code ≠ .ok)
    {trailers : HeaderMap} (written : Written (end_.getD (.ok "")) [] trailers) (statusCode : Nat) :
    SameEnd end_ (inferred (.response statusCode) (some trailers)) := by
  cases end_ with
  | none =>
    have good : inferred (.response statusCode) (some trailers) = none := written_ends written statusCode
    rw [good]
    trivial
  | some s =>
    have failed := written_ends (s := s) written statusCode
    rw [if_neg (proper s rfl)] at failed
    obtain ⟨read, same, agrees⟩ := failed
    rw [same]
    exact agrees

theorem ok_trailers_free {trailers : HeaderMap} (written : Written (.ok "") [] trailers)
    {key : HeaderName} (user : key ∉ grpcReservedHeaders) : containsKey trailers key = false := by
  obtain ⟨code, message, details⟩ := reserved_status_names
  have values := written.others key (fun same => user (same ▸ code))
    (fun same => user (same ▸ message)) (fun same => user (same ▸ details))
  rw [Bool.eq_false_iff, ne_eq, contains_key_iff, not_not, values]
  rfl

theorem mapped_headers (server : GrpcHandler.Grpc σ' δ') (response : Response (List (SourceEvent U)))
    (encoding : Option CompressionEncoding) :
    Conveyed response.metadata ⟨(server.mapResponse (.ok response) encoding).headers⟩ := by
  intro key user
  have names : contentType ∈ grpcReservedHeaders ∧ encodingHeader ∈ grpcReservedHeaders := by decide
  have first : contentType ≠ key := fun same => user (same ▸ names.1)
  have second : encodingHeader ≠ key := fun same => user (same ▸ names.2)
  have kept : getAll response.metadata.intoSanitizedHeaders key =
      getAll response.metadata.headers key := by rw [sanitized_values, if_neg user]
  cases encoding <;>
    simp [GrpcHandler.Grpc.mapResponse, Response.intoHttp, kept, first, second]

variable {client : GrpcClient.Grpc σ δ} {server : GrpcHandler.Grpc σ' δ'}
  {request : Request X (List (Option T))} {path : String}
  {sent : HttpRequest X (EncodeBody σ T)} {received : HttpResponse (Body Status)}
  {transport : GrpcClient.Transport X σ T}

theorem single_same {got : Except Status U} {msgs : List U} {s o : Option Status}
    (same : SameEnd s o) (told : Same got (single missingResponse msgs o)) :
    Same got (single missingResponse msgs s) := by
  cases s with
  | none =>
    cases o with
    | none => exact told
    | some e => exact same.elim
  | some s =>
    cases o with
    | none => exact same.elim
    | some e =>
      have agrees : e.Agrees s := same
      cases got with
      | ok msg => exact told.elim
      | error e' =>
        have first : e'.Agrees e := told
        exact ⟨first.1.trans agrees.1, first.2.1.trans agrees.2.1, first.2.2.trans agrees.2.2⟩

theorem refusal_told {s : Status} (bad : s.code ≠ .ok)
    (prepared : client.prepareRequest (client.encodeRequest request) path = .ok sent)
    (answers : transport sent = .ok received)
    (written : Written s (insertKey [] contentType grpcContentType) received.headers) :
    Streamed dec z (.refused s) (client.streaming transport request path) ∧
      Single (.refused s) (client.clientStreaming dec z transport request path) := by
  obtain ⟨e, refused, agrees⟩ := rejection_observed client bad written
  have streamed : client.streaming transport request path = .error e := by
    simp only [GrpcClient.Grpc.streaming, prepared, answers, refused]
  have single : client.clientStreaming dec z transport request path = .error e := by
    simp only [GrpcClient.Grpc.clientStreaming, streamed]
  rw [streamed, single]
  refine ⟨agrees, agrees, ?_⟩
  intro _ _ _ _ wrong
  cases wrong

theorem reads_told {response : Response (List (SourceEvent U))} {msgs : List U}
    {failure o : Option Status} {encoding : Option CompressionEncoding} {t : Streaming δ}
    (prepared : client.prepareRequest (client.encodeRequest request) path = .ok sent)
    (answers : transport sent = .ok received)
    (enabled : ∀ e, encoding = some e → client.acceptCompressionEncodings.isEnabled e = true)
    (headers : received.headers = (server.mapResponse (.ok response) encoding).headers)
    (reads : Reads (Streaming.pollNext dec z) (.newResponse client.decoder received.body
      received.status encoding client.maxDecodingMessageSize) msgs o t)
    (ends : SameEnd failure o) :
    Streamed dec z (.streamed response.metadata msgs failure)
        (client.streaming transport request path) ∧
      Same ((client.clientStreaming dec z transport request path).map (·.message))
        (single missingResponse msgs failure) := by
  have conveyed := mapped_headers server response encoding
  obtain ⟨after, answered, noStatus, named⟩ := map_response_headers server response encoding
  rw [← headers] at conveyed
  have same : after = received.headers := by rw [headers, answered]
  rw [same] at noStatus named
  have accepted := encoding_header_accepted named enabled
  have streamed : client.streaming transport request path = .ok ⟨⟨received.headers⟩, .newResponse
      client.decoder received.body received.status encoding client.maxDecodingMessageSize⟩ := by
    simp only [GrpcClient.Grpc.streaming, prepared, answers, GrpcClient.Grpc.createResponse,
      accepted, from_header_map_absent noStatus]
  have underway : Underway received.body.tail (Streaming.newResponse client.decoder received.body
      received.status encoding client.maxDecodingMessageSize).inner := ⟨rfl, rfl, rfl⟩
  have told := single_same ends
    (takes_answers dec z client streamed (reads_takes dec z underway reads))
  rw [streamed]
  exact ⟨⟨conveyed, _, t, reads, ends⟩, told⟩

variable {related : σ' → δ → Prop} (inStep : InStep enc dec related) (inverse : z.Inverse)
  (rel : related server.encoder client.decoder)
include inStep inverse rel

theorem frames_told {response : Response (List (SourceEvent U))} {msgs : List U}
    {failure : Option Status} {encoding : Option CompressionEncoding} {trailers : HeaderMap}
    (prepared : client.prepareRequest (client.encodeRequest request) path = .ok sent)
    (answers : transport sent = .ok received)
    (enabled : ∀ e, encoding = some e → client.acceptCompressionEncodings.isEnabled e = true)
    (headers : received.headers = (server.mapResponse (.ok response) encoding).headers)
    (fits : Fits enc z encoding server.maxEncodingMessageSize client.maxDecodingMessageSize
      server.encoder msgs)
    (data : received.body.data = writeAll (framesOf enc z encoding server.encoder msgs))
    (tail : received.body.tail = .trailers trailers)
    (written : Written (failure.getD (.ok "")) [] trailers)
    (proper : ∀ s, failure = some s → s.code ≠ .ok) :
    Streamed dec z (.streamed response.metadata msgs failure)
        (client.streaming transport request path) ∧
      Single (.streamed response.metadata msgs failure)
        (client.clientStreaming dec z transport request path) := by
  obtain ⟨t, reads, _⟩ := reads_frames enc dec z encoding server.maxEncodingMessageSize
    client.maxDecodingMessageSize inStep inverse _ server.encoder client.decoder rel fits
    (.response received.status) received.body.chunks received.body.tail data
  have ends := source_ends proper written received.status
  have ended : ending (.response received.status) received.body.tail [] =
      inferred (.response received.status) (some trailers) := by rw [tail, ending]
  rw [ended] at reads
  obtain ⟨streamed, told⟩ := reads_told dec z prepared answers enabled headers reads ends
  refine ⟨streamed, told, ?_⟩
  intro metadata msgs' failure' got given single key user
  cases given
  cases failure with
  | some s =>
    rw [single] at told
    exact told.elim
  | none =>
    have conveyed := mapped_headers server response encoding
    rw [← headers] at conveyed
    have overlaid := success_overlaid dec z client prepared answers tail single
    rw [overlaid_base overlaid (ok_trailers_free written user)]
    exact conveyed key user

omit inStep inverse rel in
theorem whole_arrives (server : GrpcHandler.Grpc σ' δ') {recvLimit : Option Nat}
    {encoding : Option CompressionEncoding} (response : Response (List (SourceEvent U)))
    (fits : Fits enc z encoding server.maxEncodingMessageSize recvLimit server.encoder
      (reply (.ok response)).messages) :
    ∃ received, ResponseArrives enc z (server.mapResponse (.ok response) encoding) received := by
  obtain ⟨headers, answered, _⟩ := map_response_headers server response encoding
  obtain ⟨trailers, _, carries⟩ := source_carries enc z encoding server.maxEncodingMessageSize
    recvLimit server.encoder response.message fits
  refine ⟨⟨200, headers, ⟨[.data (writeAll (framesOf enc z encoding server.encoder
    (goodItems (results response.message))))], .trailers trailers⟩⟩, ?_⟩
  rw [answered]
  refine ⟨rfl, rfl, ?_⟩
  rw [body_data_cons, body_data_nil, List.append_nil]
  exact carries

/-- The caller of a call that is answered is told the answer, as a stream or as one message. -/
theorem answer_told {answer : Answer U} {encoding : Option CompressionEncoding}
    (prepared : client.prepareRequest (client.encodeRequest request) path = .ok sent)
    (answers : transport sent = .ok received)
    (enabled : ∀ e, encoding = some e → client.acceptCompressionEncodings.isEnabled e = true)
    (returned : ResponseArrives enc z (server.mapResponse answer encoding) received)
    (proper : Proper (reply answer))
    (fits : Fits enc z encoding server.maxEncodingMessageSize client.maxDecodingMessageSize
      server.encoder (reply answer).messages) :
    Streamed dec z (reply answer) (client.streaming transport request path) ∧
      Single (reply answer) (client.clientStreaming dec z transport request path) := by
  cases answer with
  | error s =>
    obtain ⟨headers, rejected, written⟩ := into_http_written (σ := σ') (U := U) s
    have same : received.headers = headers := by
      have kept := returned.headers
      rw [GrpcHandler.Grpc.mapResponse, rejected] at kept
      exact kept
    rw [← same] at written
    exact refusal_told dec z (proper s rfl) prepared answers written
  | ok response =>
    obtain ⟨trailers, written, carries⟩ := source_carries enc z encoding
      server.maxEncodingMessageSize client.maxDecodingMessageSize server.encoder response.message fits
    obtain ⟨data, tail⟩ := carries_unique _ returned.body carries
    exact frames_told enc dec z inStep inverse rel prepared answers enabled returned.headers fits
      data tail written proper

end Answers

section Calls
variable (clientEnc : Encoder σ T) (clientDec : Decoder δ U) (serverEnc : Encoder σ' U)
  (serverDec : Decoder δ' T) (z : Compressors)

/-- What reaches the server of a request: its path, its headers but perhaps `te`, which is the
    hop's, and the bytes of its body in any cut. The extensions are the server's own. -/
structure Delivered (sent : HttpRequest X (EncodeBody σ T)) (req : HttpRequest X' (Body Status)) :
    Prop where
  path : req.parts.path = sent.parts.path
  headers : ∀ key ≠ te, getAll req.parts.headers key = getAll sent.parts.headers key
  body : Carries (EncodeBody.pollFrame clientEnc z) sent.body req.body.data req.body.tail

variable {client : GrpcClient.Grpc σ δ} {server : GrpcHandler.Grpc σ' δ'}
  {request : Request X (List (Option T))} {path : String}
  {sent : HttpRequest X (EncodeBody σ T)} {req : HttpRequest X' (Body Status)}

theorem prepared_headers
    (prepared : client.prepareRequest (client.encodeRequest request) path = .ok sent) :
    Conveyed request.metadata ⟨sent.parts.headers⟩ := by
  intro key user
  have names : te ∈ grpcReservedHeaders ∧ contentType ∈ grpcReservedHeaders ∧
      encodingHeader ∈ grpcReservedHeaders ∧ acceptEncodingHeader ∈ grpcReservedHeaders := by decide
  have first : te ≠ key := fun same => user (same ▸ names.1)
  have second : contentType ≠ key := fun same => user (same ▸ names.2.1)
  have third : encodingHeader ≠ key := fun same => user (same ▸ names.2.2.1)
  have fourth : acceptEncodingHeader ≠ key := fun same => user (same ▸ names.2.2.2)
  have kept : getAll request.metadata.intoSanitizedHeaders key =
      getAll request.metadata.headers key := by rw [sanitized_values, if_neg user]
  unfold GrpcClient.Grpc.prepareRequest at prepared
  split at prepared
  · cases prepared
  · cases prepared
    cases client.sendCompressionEncoding <;>
      cases client.acceptCompressionEncodings.intoAcceptEncodingHeaderValue <;>
        simp [GrpcClient.Grpc.encodeRequest, Request.map, kept, first, second, third, fourth]

theorem sent_carries {recvLimit : Option Nat}
    (prepared : client.prepareRequest (client.encodeRequest request) path = .ok sent)
    (fits : Fits clientEnc z client.sendCompressionEncoding client.maxEncodingMessageSize
      recvLimit client.encoder request.message.reduceOption) :
    Carries (EncodeBody.pollFrame clientEnc z) sent.body (writeAll (framesOf clientEnc z
      client.sendCompressionEncoding client.encoder request.message.reduceOption)) .eof := by
  obtain ⟨_, whole⟩ := prepared_encoding prepared
  obtain ⟨chunks, last, run, same⟩ := paced_reads clientEnc z client.sendCompressionEncoding
    client.maxEncodingMessageSize recvLimit client.encoder request.message fits
  rw [whole, ← same]
  exact client_carries clientEnc z rfl run

theorem sent_body {recvLimit : Option Nat} {bytes : Bytes} {tail : Tail Status}
    (prepared : client.prepareRequest (client.encodeRequest request) path = .ok sent)
    (fits : Fits clientEnc z client.sendCompressionEncoding client.maxEncodingMessageSize
      recvLimit client.encoder request.message.reduceOption)
    (carries : Carries (EncodeBody.pollFrame clientEnc z) sent.body bytes tail) :
    bytes = writeAll (framesOf clientEnc z client.sendCompressionEncoding client.encoder
      request.message.reduceOption) ∧ tail = .eof :=
  carries_unique _ carries (sent_carries clientEnc z prepared fits)

theorem whole_delivered {recvLimit : Option Nat}
    (prepared : client.prepareRequest (client.encodeRequest request) path = .ok sent)
    (fits : Fits clientEnc z client.sendCompressionEncoding client.maxEncodingMessageSize
      recvLimit client.encoder request.message.reduceOption) (extensions : X') :
    Delivered clientEnc z sent ⟨⟨sent.parts.path, sent.parts.headers, extensions⟩,
      ⟨[.data (writeAll (framesOf clientEnc z client.sendCompressionEncoding client.encoder
        request.message.reduceOption))], .eof⟩⟩ := by
  refine ⟨rfl, fun _ _ => rfl, ?_⟩
  rw [body_data_cons, body_data_nil, List.append_nil]
  exact sent_carries clientEnc z prepared fits

/-- A body of frames that fit, read with the encoding they were made in, asks the server's
    function for its answer. -/
theorem framed_asks {related : σ → δ' → Prop} (inStep : InStep clientEnc serverDec related)
    (inverse : z.Inverse) {encoder : σ} (rel : related encoder server.decoder)
    {encoding : Option CompressionEncoding} {sendLimit : Option Nat} {msgs : List T}
    (accepted : CompressionEncoding.fromEncodingHeader req.parts.headers
      server.acceptCompressionEncodings = .ok encoding)
    (fits : Fits clientEnc z encoding sendLimit server.maxDecodingMessageSize encoder msgs)
    (data : req.body.data = writeAll (framesOf clientEnc z encoding encoder msgs))
    (complete : req.body.tail = .eof) (handler : Handler X' δ' T U) :
    ∃ answer, Asked serverDec z ⟨req.parts.headers⟩ req.parts.extensions msgs handler answer ∧
      serve serverDec z server handler req =
        server.mapResponse answer (server.acceptEncoding req) := by
  obtain ⟨t, reads, _⟩ := reads_frames clientEnc serverDec z encoding sendLimit
    server.maxDecodingMessageSize inStep inverse _ encoder server.decoder rel fits .request
    req.body.chunks req.body.tail data
  have ended : ending .request req.body.tail [] = none := by
    rw [complete]
    rfl
  rw [ended] at reads
  exact request_asks serverDec z server handler complete accepted reads

theorem delivered_asks {related : σ → δ' → Prop} (inStep : InStep clientEnc serverDec related)
    (inverse : z.Inverse) (rel : related client.encoder server.decoder)
    (prepared : client.prepareRequest (client.encodeRequest request) path = .ok sent)
    (delivered : Delivered clientEnc z sent req)
    (enabled : ∀ e, client.sendCompressionEncoding = some e →
      server.acceptCompressionEncodings.isEnabled e = true)
    (fits : Fits clientEnc z client.sendCompressionEncoding client.maxEncodingMessageSize
      server.maxDecodingMessageSize client.encoder request.message.reduceOption)
    (handler : Handler X' δ' T U) :
    ∃ answer, Asked serverDec z ⟨req.parts.headers⟩ req.parts.extensions
        request.message.reduceOption handler answer ∧
      serve serverDec z server handler req =
        server.mapResponse answer (server.acceptEncoding req) := by
  obtain ⟨announced, _⟩ := prepared_encoding prepared
  have named : CompressionEncoding.fromEncodingHeader req.parts.headers
      server.acceptCompressionEncodings = .ok client.sendCompressionEncoding := by
    apply encoding_header_accepted _ enabled
    rw [getKey, delivered.headers encodingHeader (by decide), announced]
    cases client.sendCompressionEncoding <;> rfl
  obtain ⟨data, complete⟩ := sent_body clientEnc z prepared fits delivered.body
  exact framed_asks clientEnc serverDec z inStep inverse rel named fits data complete handler

/-- Whatever kinds the two ends take a method to be: the server's function is asked with the
    caller's messages and metadata, and the caller is told its answer, as a stream or as the
    single message of it. -/
theorem call_refines {requests : σ → δ' → Prop} {responses : σ' → δ → Prop}
    (requestsInStep : InStep clientEnc serverDec requests)
    (responsesInStep : InStep serverEnc clientDec responses) (inverse : z.Inverse)
    (asking : requests client.encoder server.decoder)
    (answering : responses server.encoder client.decoder)
    (prepared : client.prepareRequest (client.encodeRequest request) path = .ok sent)
    (delivered : Delivered clientEnc z sent req)
    (enabled : ∀ e, client.sendCompressionEncoding = some e →
      server.acceptCompressionEncodings.isEnabled e = true)
    (fits : Fits clientEnc z client.sendCompressionEncoding client.maxEncodingMessageSize
      server.maxDecodingMessageSize client.encoder request.message.reduceOption)
    (handler : Handler X' δ' T U) {received : HttpResponse (Body Status)}
    (returned : ResponseArrives serverEnc z (serve serverDec z server handler req) received)
    (transport : GrpcClient.Transport X σ T) (answers : transport sent = .ok received) :
    ∃ metadata answer, Conveyed request.metadata metadata ∧
      Asked serverDec z metadata req.parts.extensions request.message.reduceOption handler answer ∧
      (Proper (reply answer) →
        Fits serverEnc z (server.acceptEncoding req) server.maxEncodingMessageSize
          client.maxDecodingMessageSize server.encoder (reply answer).messages →
        (Streamed clientDec z (reply answer) (client.streaming transport request path) ∧
          Single (reply answer) (client.clientStreaming clientDec z transport request path)) ∧
        ∀ single, request = single.map (fun message => [some message]) →
          Streamed clientDec z (reply answer) (client.serverStreaming transport single path) ∧
            Single (reply answer) (client.unary clientDec z transport single path)) := by
  obtain ⟨answer, asked, served⟩ := delivered_asks clientEnc serverDec z requestsInStep inverse
    asking prepared delivered enabled fits handler
  refine ⟨⟨req.parts.headers⟩, answer, ?_, asked, ?_⟩
  · intro key user
    have other : key ≠ te := fun same => user (same ▸ by decide)
    exact (delivered.headers key other).trans (prepared_headers prepared key user)
  · intro proper responseFits
    rw [served] at returned
    have offered : getKey req.parts.headers acceptEncodingHeader =
        client.acceptCompressionEncodings.intoAcceptEncodingHeaderValue := by
      rw [getKey, delivered.headers acceptEncodingHeader (by decide)]
      exact GrpcClient.prepared_accept_encoding prepared
    have told := answer_told serverEnc clientDec z responsesInStep inverse answering prepared
      answers (fun e picked => picked_encoding_enabled offered picked) returned proper responseFits
    refine ⟨told, ?_⟩
    rintro single rfl
    exact told

end Calls

section Echo

def echoEncoder : Encoder Unit Bytes := plainEncoder (fun m => m) .default

def echoServer : GrpcHandler.Grpc Unit Unit :=
  ⟨(), (), ⟨false, false, false⟩, ⟨false, false, false⟩, none, none⟩

def echoCaller : GrpcClient.Grpc Unit Unit := ⟨(), (), .ok, ⟨false, false, false⟩, none, none, none⟩

theorem echo_in_step : InStep echoEncoder echoDecoder fun _ _ => True :=
  plain_codec_in_step _ _ _ fun _ => rfl

theorem plain_inverse : plainCompressors.Inverse := by
  intro _ plain packed packing
  simpa [plainCompressors] using packing.symm

theorem echo_fits : Fits echoEncoder plainCompressors none none none () [[7]] :=
  ⟨⟨_, rfl, by decide, by decide, by decide⟩, trivial⟩

def echo : Handler Bool Unit Bytes Bytes := .unary fun r => .ok ⟨⟨[(user, alice)]⟩, r.message⟩

def echoRequest : Request Unit Bytes := ⟨MetadataMap.new, [7], ()⟩

/-- A unary call of the echo gets its own message, with the metadata of the answer. -/
theorem echo_call_refines :
    ∃ received got, (∃ req, ResponseArrives echoEncoder plainCompressors
        (serve echoDecoder plainCompressors echoServer echo req) received) ∧
      echoCaller.unary echoDecoder plainCompressors (fun _ => .ok received) echoRequest "/echo" =
        .ok got ∧
      got.message = [7] ∧ getAll got.metadata.headers user = [alice] := by
  obtain ⟨sent, prepared⟩ : ∃ sent, echoCaller.prepareRequest
      (echoCaller.encodeRequest (echoRequest.map fun message => [some message])) "/echo" =
        .ok sent := ⟨_, rfl⟩
  let req : HttpRequest Bool (Body Status) := ⟨⟨sent.parts.path, sent.parts.headers, true⟩,
    ⟨[.data (writeAll (framesOf echoEncoder plainCompressors none () [[7]]))], .eof⟩⟩
  have delivered : Delivered echoEncoder plainCompressors sent req :=
    whole_delivered echoEncoder plainCompressors prepared echo_fits true
  have plain : ∀ e, echoCaller.sendCompressionEncoding = some e →
      echoServer.acceptCompressionEncodings.isEnabled e = true := by
    intro _ wrong
    cases wrong
  have picked : echoServer.acceptEncoding req = none := by
    cases prepared
    decide
  obtain ⟨answer, asked, served⟩ := delivered_asks echoEncoder echoDecoder plainCompressors
    echo_in_step plain_inverse trivial prepared delivered plain echo_fits echo
  cases asked
  obtain ⟨received, returned⟩ : ∃ received, ResponseArrives echoEncoder plainCompressors
      (serve echoDecoder plainCompressors echoServer echo req) received := by
    rw [served]
    exact whole_arrives echoEncoder plainCompressors echoServer ⟨⟨[(user, alice)]⟩, once [7]⟩
      (picked ▸ echo_fits)
  obtain ⟨metadata, answer, _, asked, told⟩ := call_refines echoEncoder echoDecoder echoEncoder
    echoDecoder plainCompressors echo_in_step echo_in_step plain_inverse trivial trivial prepared
    delivered plain echo_fits echo returned (fun _ => .ok received) rfl
  cases asked
  have proper : Proper (reply (.ok ⟨⟨[(user, alice)]⟩, once [7]⟩)) := by
    intro _ wrong
    cases wrong
  obtain ⟨_, single⟩ := (told proper (picked ▸ echo_fits)).2 echoRequest rfl
  cases got : echoCaller.unary echoDecoder plainCompressors (fun _ => .ok received) echoRequest
      "/echo" with
  | error e =>
    have message := single.message
    rw [got] at message
    exact message.elim
  | ok response =>
    have message := single.message
    rw [got] at message
    exact ⟨received, response, ⟨req, returned⟩, got, message,
      single.metadata _ _ _ _ rfl got user (by decide)⟩

end Echo

end RemoteCalls
