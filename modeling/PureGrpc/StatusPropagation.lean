import PureGrpc.GrpcClient
import PureGrpc.FramingRoundTrip

/-!
How the status of a failed call reaches the caller. A handler that fails
before it answers sends its status in the headers, and the caller's dispatcher
reads it there. A response stream that fails sends it in the trailers, behind
the frames of the messages before it, and the caller's stream reads those and
then the status. The transport may cut the bytes anew and changes nothing else.
-/
namespace StatusPropagation
open KeyedMultimap LengthFraming GrpcMetadata GrpcStatus GrpcCompression GrpcCodec PolledMachines
open HttpBodies MessageEncoding EncodeOrder StreamingDecode StreamingScan FramingRoundTrip
open AwaitedMessages GrpcHandler GrpcClient

variable {X σ σ' δ δ' T U : Type}

def failing (schedule : List (Option U)) (s : Status) (more : List (SourceEvent U)) :
    List (SourceEvent U) := paced schedule ++ .item (.error s) :: more

section Wire
variable (clientEnc : Encoder σ T) (clientDec : Decoder δ U) (serverEnc : Encoder σ' U)
  (serverDec : Decoder δ' T) (z : Compressors)

/-- The responses of a server whose handler fails with a status, after these messages. -/
inductive Fails (server : GrpcHandler.Grpc σ' δ') (req : HttpRequest X (Body Status)) (s : Status) :
    List U → HttpResponse (ResponseBody σ' U) → Prop where
  | unary {service : Request X T → Except Status (Response U)} {r}
      (called : server.mapRequestUnary serverDec z req = .ok r) (fails : service r = .error s) :
      Fails server req s [] (server.unary serverDec z service req)
  | serverStreaming {service : Request X T → Except Status (Response (List (SourceEvent U)))} {r}
      (called : server.mapRequestUnary serverDec z req = .ok r) (fails : service r = .error s) :
      Fails server req s [] (server.serverStreaming serverDec z service req)
  | clientStreaming {service : Request X (Streaming δ') → Except Status (Response U)} {r}
      (called : server.mapRequestStreaming req = .ok r) (fails : service r = .error s) :
      Fails server req s [] (server.clientStreaming service req)
  | streaming {service : Request X (Streaming δ') → Except Status (Response (List (SourceEvent U)))}
      {r} (called : server.mapRequestStreaming req = .ok r) (fails : service r = .error s) :
      Fails server req s [] (server.streaming service req)
  | serverStream {service : Request X T → Except Status (Response (List (SourceEvent U)))}
      {r metadata schedule more} (called : server.mapRequestUnary serverDec z req = .ok r)
      (fails : service r = .ok ⟨metadata, failing schedule s more⟩) :
      Fails server req s schedule.reduceOption (server.serverStreaming serverDec z service req)
  | stream {service : Request X (Streaming δ') → Except Status (Response (List (SourceEvent U)))}
      {r metadata schedule more} (called : server.mapRequestStreaming req = .ok r)
      (fails : service r = .ok ⟨metadata, failing schedule s more⟩) :
      Fails server req s schedule.reduceOption (server.streaming service req)

theorem fails_response {server : GrpcHandler.Grpc σ' δ'} {req : HttpRequest X (Body Status)}
    {s : Status} {msgs : List U} {response : HttpResponse (ResponseBody σ' U)}
    (fails : Fails serverDec z server req s msgs response) :
    (msgs = [] ∧ response = Status.intoHttp s) ∨
      ∃ metadata schedule more, msgs = schedule.reduceOption ∧
        response = server.mapResponse (.ok ⟨metadata, failing schedule s more⟩)
          (server.acceptEncoding req) := by
  cases fails with
  | unary called fails => exact .inl ⟨rfl, by simp only [GrpcHandler.Grpc.unary, called, fails]; rfl⟩
  | serverStreaming called fails =>
    exact .inl ⟨rfl, by simp only [GrpcHandler.Grpc.serverStreaming, called, fails]; rfl⟩
  | clientStreaming called fails =>
    exact .inl ⟨rfl, by simp only [GrpcHandler.Grpc.clientStreaming, called, fails]; rfl⟩
  | streaming called fails =>
    exact .inl ⟨rfl, by simp only [GrpcHandler.Grpc.streaming, called, fails]; rfl⟩
  | @serverStream _ _ metadata schedule more called fails =>
    exact .inr ⟨metadata, schedule, more, rfl,
      by simp only [GrpcHandler.Grpc.serverStreaming, called, fails]⟩
  | @stream _ _ metadata schedule more called fails =>
    exact .inr ⟨metadata, schedule, more, rfl,
      by simp only [GrpcHandler.Grpc.streaming, called, fails]⟩

/-- The server receives the headers that were sent, and the bytes of the body in any cut. -/
structure RequestArrives (sent : HttpRequest X (EncodeBody σ T))
    (req : HttpRequest X (Body Status)) : Prop where
  parts : req.parts = sent.parts
  body : Carries (EncodeBody.pollFrame clientEnc z) sent.body req.body.data req.body.tail

/-- The client receives the status and headers, and the bytes and trailers in any cut. -/
structure ResponseArrives (response : HttpResponse (ResponseBody σ' U))
    (received : HttpResponse (Body Status)) : Prop where
  status : received.status = response.status
  headers : received.headers = response.headers
  body : Carries (ResponseBody.pollFrame serverEnc z) response.body received.body.data
    received.body.tail

/-- The caller of a stream gets these messages, one error with this status, and no more. -/
def Observed (s : Status) (msgs : List U) : Except Status (Response (Streaming δ)) → Prop
  | .error e => msgs = [] ∧ e.Agrees s
  | .ok response => ∃ e t, Reads (Streaming.pollNext clientDec z) response.message msgs (some e) t ∧
      e.Agrees s ∧ ∀ n, answerAt (Streaming.pollNext clientDec z) t n = .ready none

end Wire

section Server
variable (enc : Encoder σ' U) (z : Compressors)

theorem encoded_body_carries {body : EncodeBody σ' U} {bytes : Bytes} {tail : Tail Status}
    (carries : Carries (EncodeBody.pollFrame enc z) body bytes tail) :
    Carries (ResponseBody.pollFrame enc z) (.encoded body) bytes tail := by
  induction carries with
  | eof h => exact .eof (by simp only [ResponseBody.pollFrame, h]; rfl)
  | trailers h => exact .trailers (by simp only [ResponseBody.pollFrame, h]; rfl)
  | error h => exact .error (by simp only [ResponseBody.pollFrame, h]; rfl)
  | wait h _ ih => exact .wait (by simp only [ResponseBody.pollFrame, h]) ih
  | data h _ ih => exact .data (by simp only [ResponseBody.pollFrame, h]) ih

theorem failing_carries (acceptEncoding : Option CompressionEncoding)
    (sendLimit recvLimit : Option Nat) (encoder : σ') (schedule : List (Option U)) (s : Status)
    (more : List (SourceEvent U))
    (fits : Fits enc z acceptEncoding sendLimit recvLimit encoder schedule.reduceOption) :
    ∃ trailers, Written s [] trailers ∧
      Carries (ResponseBody.pollFrame enc z)
        (.encoded (.newServer encoder (failing schedule s more) acceptEncoding sendLimit))
        (writeAll (framesOf enc z acceptEncoding encoder schedule.reduceOption))
        (.trailers trailers) := by
  obtain ⟨chunks, t, run, bytes⟩ := sent_reads enc z acceptEncoding sendLimit recvLimit schedule
    (.item (.error s) :: more) encoder (some s) fits (by
      intro threshold last kept
      rw [emitted, spread_flushed, spread_error]
      obtain ⟨good, bad⟩ := good_items_append kept (.error s :: spread (emitted enc z acceptEncoding
        sendLimit (enc.bufferSettings last).yieldThreshold more last []))
      exact ⟨good.trans (List.append_nil _), bad⟩)
  obtain ⟨trailers, ok, carries⟩ := server_carries enc z run
  obtain ⟨after, same, written⟩ := to_header_map_written s
  cases ok.symm.trans same
  rw [bytes] at carries
  exact ⟨trailers, written, encoded_body_carries enc z carries⟩

end Server

section Client
variable (dec : Decoder δ U) (z : Compressors) (client : GrpcClient.Grpc σ δ)

theorem rejection_observed {s : Status} (bad : s.code ≠ .ok) {received : HttpResponse (Body Status)}
    (written : Written s (insertKey [] contentType grpcContentType) received.headers) :
    ∃ e, client.createResponse received = .error e ∧ e.Agrees s := by
  obtain ⟨read, parsed, agrees⟩ := from_header_map_written written (by decide) (by decide)
  have named : getKey received.headers encodingHeader = none := by
    have other := written.others encodingHeader (by decide) (by decide) (by decide)
    rw [extend_sanitized_reserved _ _ _ (by decide)] at other
    rw [getKey, other]
    decide
  have encoding : CompressionEncoding.fromEncodingHeader received.headers
      client.acceptCompressionEncodings = .ok none := by
    apply encoding_header_accepted named
    intro e wrong
    cases wrong
  have failed : read.code ≠ .ok := by
    rw [agrees.1]
    exact bad
  exact ⟨read, by simp only [GrpcClient.Grpc.createResponse, encoding, parsed, failed, ne_eq,
    not_false_eq_true, if_true], agrees⟩

theorem errored_stays {t : Streaming δ} (state : t.inner.state = .error none) (n : Nat) :
    answerAt (Streaming.pollNext dec z) t n = .ready none := by
  have same : { t with inner := { t.inner with state := .error none } } = t := by
    rw [← state]
  have poll := poll_errored dec z state
  rw [same] at poll
  exact (end_stays _ poll n).2

theorem single_fails {body : Streaming δ} {msgs : List U} {e : Status} {t : Streaming δ}
    {map : HeaderMap} (underway : Underway (.trailers map) body.inner)
    (reads : Reads (Streaming.pollNext dec z) body msgs (some e) t) :
    (∃ u, Streaming.message dec z body = (.error e, u)) ∨
      ∃ msg u v, Streaming.message dec z body = (.ok (some msg), u) ∧
        Streaming.trailers dec z u = (.error e, v) := by
  have first := message_reads dec z reads
  cases msgs with
  | nil => exact .inl ⟨t, first⟩
  | cons msg msgs =>
    obtain ⟨u, message, rest⟩ := first
    have later := (message_underway dec z body underway).1 msg u message
    have drained := drain_reads dec z rest
    exact .inr ⟨msg, u, t, message, by
      simp only [Streaming.trailers, later.trailers, drained, Option.elim]⟩

end Client

section Calls
variable (clientEnc : Encoder σ T) (clientDec : Decoder δ U) (serverEnc : Encoder σ' U)
  (serverDec : Decoder δ' T) (z : Compressors)
  {related : σ' → δ → Prop} (inStep : InStep serverEnc clientDec related) (inverse : z.Inverse)
  (client : GrpcClient.Grpc σ δ) (server : GrpcHandler.Grpc σ' δ')
  (rel : related server.encoder client.decoder)
include inStep inverse rel

theorem failure_received {s : Status} (bad : s.code ≠ .ok) {msgs : List U}
    {sent : HttpRequest X (EncodeBody σ T)} {req : HttpRequest X (Body Status)}
    {response : HttpResponse (ResponseBody σ' U)} {received : HttpResponse (Body Status)}
    (offered : getKey sent.parts.headers acceptEncodingHeader =
      client.acceptCompressionEncodings.intoAcceptEncodingHeaderValue)
    (arrives : RequestArrives clientEnc z sent req)
    (fails : Fails serverDec z server req s msgs response)
    (fits : Fits serverEnc z (server.acceptEncoding req) server.maxEncodingMessageSize
      client.maxDecodingMessageSize server.encoder msgs)
    (returned : ResponseArrives serverEnc z response received) :
    (msgs = [] ∧ ∃ e, client.createResponse received = .error e ∧ e.Agrees s) ∨
      ∃ parts body e t map, client.createResponse received = .ok ⟨parts, body⟩ ∧
        Reads (Streaming.pollNext clientDec z) body msgs (some e) t ∧ e.Agrees s ∧
        Underway (.trailers map) body.inner ∧ t.inner.state = .error none := by
  rcases fails_response serverDec z fails with ⟨none, rfl⟩ | ⟨metadata, schedule, more, rfl, rfl⟩
  · obtain ⟨headers, rejected, written⟩ := into_http_written (σ := σ') (U := U) s
    rw [rejected] at returned
    have same : received.headers = headers := returned.headers
    rw [← same] at written
    exact .inl ⟨none, rejection_observed client bad written⟩
  · right
    obtain ⟨headers, answered, noStatus, named⟩ := map_response_headers server
      ⟨metadata, failing schedule s more⟩ (server.acceptEncoding req)
    rw [answered] at returned
    obtain ⟨status, same, body⟩ := returned
    dsimp only at status same body
    rw [← same] at noStatus named
    have encoding : CompressionEncoding.fromEncodingHeader received.headers
        client.acceptCompressionEncodings = .ok (server.acceptEncoding req) := by
      apply encoding_header_accepted named
      intro e picked
      apply picked_encoding_enabled offered
      rw [← arrives.parts]
      exact picked
    obtain ⟨trailers, written, carries⟩ := failing_carries serverEnc z (server.acceptEncoding req)
      server.maxEncodingMessageSize client.maxDecodingMessageSize server.encoder schedule s more fits
    obtain ⟨data, tail⟩ := carries_unique _ body carries
    obtain ⟨t, reads, closes⟩ := reads_frames serverEnc clientDec z (server.acceptEncoding req)
      server.maxEncodingMessageSize client.maxDecodingMessageSize inStep inverse _ server.encoder
      client.decoder rel fits (.response received.status) received.body.chunks received.body.tail data
    have inferred_status := infer_written written received.status
    rw [if_neg bad] at inferred_status
    obtain ⟨read, inferred_read, agrees⟩ := inferred_status
    have ends : ending (.response received.status) received.body.tail [] = some read := by
      simp only [tail, ending, inferred, inferred_read]
    rw [ends] at reads closes
    refine ⟨⟨received.headers⟩, _, read, t, trailers, ?_, reads, agrees, ⟨rfl, tail, rfl⟩,
      closes trailers tail (by intro wrong; cases wrong)⟩
    simp only [GrpcClient.Grpc.createResponse, encoding, from_header_map_absent noStatus]
    rfl

/-- A handler's error reaches the caller with its code, message and details: a
    streaming call gets the messages before it and then the error once, a call
    for one message gets the error, and neither gets a success. -/
theorem status_propagates {s : Status} (bad : s.code ≠ .ok) {msgs : List U}
    {request : Request X (List (Option T))} {path : String}
    {sent : HttpRequest X (EncodeBody σ T)} {req : HttpRequest X (Body Status)}
    {response : HttpResponse (ResponseBody σ' U)} {received : HttpResponse (Body Status)}
    {transport : Transport X σ T}
    (prepared : client.prepareRequest (client.encodeRequest request) path = .ok sent)
    (arrives : RequestArrives clientEnc z sent req)
    (fails : Fails serverDec z server req s msgs response)
    (fits : Fits serverEnc z (server.acceptEncoding req) server.maxEncodingMessageSize
      client.maxDecodingMessageSize server.encoder msgs)
    (returned : ResponseArrives serverEnc z response received)
    (answers : transport sent = .ok received) :
    Observed clientDec z s msgs (client.streaming transport request path) ∧
    (∃ e, client.clientStreaming clientDec z transport request path = .error e ∧ e.Agrees s) ∧
    ∀ single, request = single.map (fun message => [some message]) →
      Observed clientDec z s msgs (client.serverStreaming transport single path) ∧
      ∃ e, client.unary clientDec z transport single path = .error e ∧ e.Agrees s := by
  have call : client.streaming transport request path = client.createResponse received := by
    simp only [GrpcClient.Grpc.streaming, prepared, answers]
  have streaming : Observed clientDec z s msgs (client.streaming transport request path) ∧
      ∃ e, client.clientStreaming clientDec z transport request path = .error e ∧ e.Agrees s := by
    simp only [GrpcClient.Grpc.clientStreaming, call]
    rcases failure_received clientEnc clientDec serverEnc serverDec z inStep inverse client server rel
      bad (prepared_accept_encoding prepared) arrives fails fits returned with
      ⟨none, e, rejected, agrees⟩ | ⟨parts, body, e, t, map, made, reads, agrees, underway, closed⟩
    · rw [rejected]
      exact ⟨⟨none, agrees⟩, e, rfl, agrees⟩
    · rw [made]
      refine ⟨⟨e, t, reads, agrees, errored_stays clientDec z closed⟩, ?_⟩
      rcases single_fails clientDec z underway reads with
        ⟨u, message⟩ | ⟨msg, u, v, message, trailers⟩
      · simp only [message]
        exact ⟨_, rfl, agrees⟩
      · simp only [message, trailers]
        exact ⟨e, rfl, agrees⟩
  refine ⟨streaming.1, streaming.2, ?_⟩
  rintro single rfl
  exact streaming

end Calls

/-- One message and then a refusal, between peers that agree on deflate. -/
theorem refusal_observed :
    let enc := plainEncoder (fun m : Bytes => m) .default
    let dec := plainDecoder fun bytes : Bytes => .ok bytes
    let z := storedCompressors
    let client : GrpcClient.Grpc Unit Unit :=
      ⟨(), (), .ok, ⟨false, true, false⟩, none, none, none⟩
    let server : GrpcHandler.Grpc Unit Unit :=
      ⟨(), (), ⟨true, true, true⟩, ⟨true, true, true⟩, none, none⟩
    let refusal : Status := ⟨.permissionDenied, "naïve: 100%", [1, 2], MetadataMap.new⟩
    let service : Request Unit (Streaming Unit) → Except Status (Response (List (SourceEvent Bytes))) :=
      fun _ => .ok ⟨MetadataMap.new, failing [some unshortened] refusal []⟩
    let request : Request Unit (List (Option Bytes)) := ⟨MetadataMap.new, [], ()⟩
    ∃ sent received, client.prepareRequest (client.encodeRequest request) "/greeter" = .ok sent ∧
      ResponseArrives enc z (server.streaming service ⟨sent.parts, ⟨[], .eof⟩⟩) received ∧
      Observed dec z refusal [unshortened]
        (client.streaming (fun _ => .ok received) request "/greeter") := by
  intro enc dec z client server refusal service request
  have inStep : InStep enc dec fun _ _ => True := plain_codec_in_step _ _ _ fun _ => rfl
  obtain ⟨sent, prepared⟩ : ∃ sent, client.prepareRequest (client.encodeRequest request)
      "/greeter" = .ok sent := ⟨_, rfl⟩
  have parts : sent.parts.headers = [(te, trailersValue), (contentType, grpcContentType),
      (acceptEncodingHeader, CompressionEncoding.deflate.intoHeaderValue)] := by
    cases prepared
    rfl
  let req : HttpRequest Unit (Body Status) := ⟨sent.parts, ⟨[], .eof⟩⟩
  have picked : server.acceptEncoding req = some .deflate := by
    simp only [GrpcHandler.Grpc.acceptEncoding, req, parts]
    decide
  have fits : Fits enc z (server.acceptEncoding req) none none () [unshortened] := by
    have payload : payloadOf enc z (some .deflate) () unshortened =
        some ([1, 40, 0, 215, 255] ++ unshortened) := congrArg some unshortened_stored
    rw [picked]
    exact ⟨⟨_, payload, by decide, by decide, by decide⟩, trivial⟩
  have called : server.mapRequestStreaming req = .ok
      (.fromHttp ⟨sent.parts, .newRequest () ⟨[], .eof⟩ none none⟩) := by
    have plain : CompressionEncoding.fromEncodingHeader sent.parts.headers ⟨true, true, true⟩ =
        .ok none := by
      rw [parts]
      rfl
    simp only [GrpcHandler.Grpc.mapRequestStreaming, req, server, plain]
  have fails : Fails dec z server req refusal (List.reduceOption [some unshortened])
      (server.streaming service req) := .stream called rfl
  obtain ⟨headers, answered, _⟩ := map_response_headers (U := Bytes) server
    ⟨MetadataMap.new, failing [some unshortened] refusal []⟩ (server.acceptEncoding req)
  obtain ⟨trailers, _, carries⟩ := failing_carries enc z (server.acceptEncoding req) none none ()
    [some unshortened] refusal [] fits
  let received : HttpResponse (Body Status) :=
    ⟨200, headers, ⟨[.data (writeAll (framesOf enc z (server.acceptEncoding req) () [unshortened]))],
      .trailers trailers⟩⟩
  have returned : ResponseArrives enc z (server.streaming service req) received := by
    have response : server.streaming service req = server.mapResponse
        (.ok ⟨MetadataMap.new, failing [some unshortened] refusal []⟩) (server.acceptEncoding req) := by
      simp only [GrpcHandler.Grpc.streaming, called, service]
    rw [response, answered]
    exact ⟨rfl, rfl, by simpa [received] using carries⟩
  have arrives : RequestArrives enc z sent req := by
    cases prepared
    exact ⟨rfl, .eof rfl⟩
  exact ⟨sent, received, prepared, returned, (status_propagates enc dec enc dec z inStep
    stored_inverse client server trivial (by decide) prepared arrives fails fits returned rfl).1⟩

end StatusPropagation
