import PureGrpc.H3Streams
import PureGrpc.RemoteCalls

/-!
Calls over HTTP/3. On streams that take what is sent, a call refines the function it is a
call of, as over HTTP/2, but for an answer that goes on behind an error: its later messages
are read in front of the error, and the last error is the one that is told.
-/
namespace H3Calls
open KeyedMultimap LengthFraming GrpcMetadata GrpcStatus GrpcCompression GrpcCodec PolledMachines
open HttpBodies MessageEncoding EncodeOrder StreamingDecode FramingRoundTrip AwaitedMessages
open GrpcHandler InterceptedMetadata UnaryCardinality H3Streams RemoteCalls
open H3Sender hiding echoEncoder
open CompressionNegotiation (prepared_encoding)

section Results
variable {α ε : Type}

def allGood : List (Except ε α) → List α
  | [] => []
  | .ok a :: rest => a :: allGood rest
  | .error _ :: rest => allGood rest

def lastError : List (Except ε α) → Option ε
  | [] => none
  | .ok _ :: rest => lastError rest
  | .error e :: rest => some ((lastError rest).getD e)

theorem all_good_append (as : List α) (rest : List (Except ε α)) :
    allGood (as.map .ok ++ rest) = as ++ allGood rest ∧
      lastError (as.map .ok ++ rest) = lastError rest := by
  induction as with
  | nil => exact ⟨rfl, rfl⟩
  | cons a as ih => exact ⟨by simp [allGood, ih.1], by simp [lastError, ih.2]⟩

/-- Cut at the first error, results are the same exactly if nothing good is behind it and
    the last error is the first. -/
theorem cut_same_iff (rs : List (Except ε α)) :
    (goodItems rs = allGood rs ∧ firstError rs = lastError rs) ↔
      ∀ (as : List α) (e : ε) (rest : List (Except ε α)), rs = as.map .ok ++ .error e :: rest →
        allGood rest = [] ∧ (lastError rest).getD e = e := by
  induction rs with
  | nil =>
    refine ⟨fun _ as e rest same => ?_, fun _ => ⟨rfl, rfl⟩⟩
    cases as <;> cases same
  | cons r rs ih =>
    cases r with
    | ok a =>
      have front : (goodItems (.ok a :: rs) = allGood (.ok a :: rs) ∧
          firstError (.ok a :: rs) = lastError (.ok a :: rs)) ↔
          goodItems rs = allGood rs ∧ firstError rs = lastError rs := by
        simp [goodItems, allGood, firstError, lastError]
      rw [front, ih]
      constructor
      · intro behind as e rest same
        cases as with
        | nil => cases same
        | cons b as =>
          cases same
          exact behind as e rest rfl
      · intro behind as e rest same
        exact behind (a :: as) e rest (by rw [same]; rfl)
    | error e =>
      constructor
      · intro same as e' rest split
        cases as with
        | cons b as => cases split
        | nil =>
          cases split
          obtain ⟨good, bad⟩ := same
          exact ⟨good.symm, (Option.some.inj bad).symm⟩
      · intro behind
        obtain ⟨none_left, last⟩ := behind [] e rs rfl
        exact ⟨none_left.symm, congrArg some last.symm⟩

end Results

section Sources
variable {σ U : Type} (enc : Encoder σ U) (z : Compressors) (encoding : Option CompressionEncoding)
  (sendLimit recvLimit : Option Nat)

theorem all_good_spread (items : List (Except Status (List Framed))) :
    allGood (spread items) = (allGood items).flatten ∧
      lastError (spread items) = lastError items := by
  induction items with
  | nil => exact ⟨rfl, rfl⟩
  | cons item items ih =>
    cases item with
    | error status => exact ⟨ih.1, by simp [lastError, ih.2]⟩
    | ok frames =>
      obtain ⟨good, bad⟩ := all_good_append frames (spread items)
      simp only [spread_ok, good, bad, ih, allGood, lastError, List.flatten_cons, and_self]

theorem all_good_on_wire (items : List (Except Status (List Framed))) :
    (allGood (onWire items)).flatten = writeAll (allGood items).flatten ∧
      lastError (onWire items) = lastError items := by
  induction items with
  | nil => exact ⟨rfl, rfl⟩
  | cons item items ih =>
    obtain ⟨bytes, error⟩ := ih
    cases item with
    | error status =>
      refine ⟨bytes, ?_⟩
      show some ((lastError (onWire items)).getD status) = _
      rw [error]
      rfl
    | ok frames =>
      refine ⟨?_, error⟩
      simp only [onWire, List.map_cons, Except.map, allGood, List.flatten_cons,
        write_all_append] at bytes ⊢
      rw [bytes]

theorem fitting_image (events : List (SourceEvent U)) (encoder : σ)
    (fits : Fits enc z encoding sendLimit recvLimit encoder (allGood (results events))) :
    allGood (image enc z encoding sendLimit events encoder) =
        framesOf enc z encoding encoder (allGood (results events)) ∧
      lastError (image enc z encoding sendLimit events encoder) = lastError (results events) ∧
      ∀ threshold buffered, FailsClear enc z encoding sendLimit threshold events encoder buffered := by
  induction events generalizing encoder with
  | nil => exact ⟨rfl, rfl, fun _ _ => trivial⟩
  | cons event rest ih =>
    cases event with
    | pending =>
      obtain ⟨good, bad, clear⟩ := ih encoder fits
      exact ⟨good, bad, fun _ _ => clear _ _⟩
    | item result =>
      cases result with
      | error status =>
        obtain ⟨good, bad, clear⟩ := ih encoder fits
        refine ⟨good, ?_, fun _ _ => clear _ _⟩
        show some ((lastError (image enc z encoding sendLimit rest encoder)).getD status) = _
        rw [bad]
        rfl
      | ok msg =>
        obtain ⟨⟨payload, some_payload, send, _, field⟩, later⟩ := fits
        have frame := frame_of_payload enc z encoding sendLimit some_payload send field
        obtain ⟨good, bad, clear⟩ := ih (enc.encode encoder msg).next later
        refine ⟨?_, ?_, ?_⟩
        · simp only [image, frame, allGood, results, framesOf, some_payload, Option.getD_some]
          rw [good]
        · simp only [image, frame, lastError, results]
          exact bad
        · intro threshold buffered
          simp only [FailsClear, frame]
          split <;> exact clear _ _

theorem frames_for_conveys (given : Bool) (trailers : Option HeaderMap)
    (items : List (Except Status Bytes)) :
    (framesFor given items).flatMap frameBytes = (allGood items).flatten ∧
      lastTrailers trailers (framesFor given items) =
        if given then (lastError items).elim trailers fun s => some (trailersOrDefault s)
        else some (trailersOrDefault ((lastError items).getD (.ok ""))) := by
  induction items generalizing given trailers with
  | nil => cases given <;> exact ⟨rfl, rfl⟩
  | cons item items ih =>
    cases item with
    | ok data =>
      obtain ⟨bytes, last⟩ := ih given trailers
      rw [framesFor, List.flatMap_cons, bytes]
      exact ⟨rfl, last⟩
    | error status =>
      obtain ⟨bytes, last⟩ := ih true (some (trailersOrDefault status))
      rw [framesFor, List.flatMap_cons, bytes]
      refine ⟨rfl, ?_⟩
      rw [lastTrailers, last]
      cases given <;> cases error : lastError items <;> simp [lastError, error]

theorem encoded_body_yields {body : EncodeBody σ U} {frames : List Frame} {fault : Option Status}
    (yields : Yields (EncodeBody.pollFrame enc z) body frames fault) :
    Yields (ResponseBody.pollFrame enc z) (.encoded body) frames fault := by
  induction yields with
  | ends h => exact .ends (by simp only [ResponseBody.pollFrame, h]; rfl)
  | fails h => exact .fails (by simp only [ResponseBody.pollFrame, h]; rfl)
  | wait h _ ih => exact .wait (by simp only [ResponseBody.pollFrame, h]) ih
  | frame h _ ih => exact .frame (by simp only [ResponseBody.pollFrame, h]) ih

theorem data_calls_for (given : Bool) (items : List (Except Status Bytes)) :
    dataCalls (framesFor given items) = (allGood items).map .data := by
  induction items generalizing given with
  | nil => cases given <;> rfl
  | cons item items ih =>
    cases item with
    | ok data =>
      rw [framesFor, dataCalls, ih]
      rfl
    | error status =>
      rw [framesFor, dataCalls, ih]
      rfl

/-- Whatever a stream takes or refuses and however often the source fails, the task calls for
    the data, for the trailers of the last error once, and for the end, in this order and up to
    the first refusal. -/
theorem response_calls {τ : Type} (h3 : ResponseStream τ) (encoder : σ)
    (events : List (SourceEvent U)) (status : Nat) (headers : HeaderMap) (stream : τ) :
    ∃ items t good last,
      Drains (EncodedBytes.pollNext enc z) (.new encoder events encoding sendLimit) items t ∧
      SendsResponse h3 (ResponseBody.pollFrame enc z)
        ⟨status, headers, .encoded (.newServer encoder events encoding sendLimit)⟩ stream
        (good, last) ∧
      if (h3.sendResponse stream status headers).1 then
        Made ((allGood items).map .data ++
          [.trailers (trailersOrDefault ((lastError items).getD (.ok ""))), .finish]) last.calls good
      else good = false ∧ last.calls = [] := by
  obtain ⟨t, run⟩ := encoded_bytes_drains enc z encoding sendLimit encoder events
  generalize onWire (emitted enc z encoding sendLimit (enc.bufferSettings encoder).yieldThreshold
    events encoder []) = items at run
  refine ⟨items, t, ?_⟩
  rcases head : h3.sendResponse stream status headers with ⟨accepted, next⟩
  cases accepted with
  | false => exact ⟨false, ⟨next, []⟩, run, .refused head, rfl, rfl⟩
  | true =>
    have yields := encoded_body_yields enc z (server_yields enc z run false)
    obtain ⟨rest, sends⟩ := yields_made h3 yields none ⟨next, []⟩
    obtain ⟨_, last⟩ := frames_for_conveys false none items
    have planned : plan none (framesFor false items) none = (allGood items).map .data ++
        [.trailers (trailersOrDefault ((lastError items).getD (.ok ""))), .finish] := by
      rw [plan, data_calls_for, last]
      rfl
    obtain ⟨made, calls, shape⟩ := make_all_made h3.toSendStream ⟨next, []⟩
      (plan none (framesFor false items) none)
    refine ⟨_, _, run, .sent head sends, ?_⟩
    rw [if_pos rfl, calls, ← planned]
    exact shape

theorem whole_source_yields (encoder : σ) (events : List (SourceEvent U))
    (fits : Fits enc z encoding sendLimit recvLimit encoder (allGood (results events))) :
    ∃ frames, Yields (ResponseBody.pollFrame enc z)
        (.encoded (.newServer encoder events encoding sendLimit)) frames none ∧
      frames.flatMap frameBytes =
        writeAll (framesOf enc z encoding encoder (allGood (results events))) ∧
      lastTrailers none frames =
        some (trailersOrDefault ((lastError (results events)).getD (.ok ""))) := by
  obtain ⟨good, bad, clear⟩ := fitting_image enc z encoding sendLimit recvLimit events encoder fits
  obtain ⟨t, run⟩ := encoded_bytes_drains enc z encoding sendLimit encoder events
  have order := (spread_emitted_iff enc z encoding sendLimit events
    (enc.bufferSettings encoder).yieldThreshold encoder []).mpr (clear _ _)
  rw [List.map_nil, List.nil_append] at order
  obtain ⟨flat, error⟩ := all_good_spread (emitted enc z encoding sendLimit
    (enc.bufferSettings encoder).yieldThreshold events encoder [])
  obtain ⟨bytes, wireError⟩ := all_good_on_wire (emitted enc z encoding sendLimit
    (enc.bufferSettings encoder).yieldThreshold events encoder [])
  obtain ⟨data, last⟩ := frames_for_conveys false none (onWire (emitted enc z encoding sendLimit
    (enc.bufferSettings encoder).yieldThreshold events encoder []))
  refine ⟨_, encoded_body_yields enc z (server_yields enc z run false), ?_, ?_⟩
  · rw [data, bytes, ← flat, order, good]
  · rw [last, wireError, ← error, order, bad]
    rfl

end Sources

/-- What a caller over HTTP/3 can be told of an answer: all its messages, and its last error. -/
def wholeReply {U : Type} : Answer U → Reply U
  | .error status => .refused status
  | .ok response => .streamed response.metadata (allGood (results response.message))
      (lastError (results response.message))

/-- Both ways the same is told exactly if an answer has no message behind its first error, and
    no other error but the first again at its end. -/
theorem whole_reply_same_iff {U : Type} (response : Response (List (SourceEvent U))) :
    wholeReply (.ok response) = reply (.ok response) ↔
      ∀ (msgs : List U) (e : Status) (rest : List (Except Status U)),
        results response.message = msgs.map .ok ++ .error e :: rest →
          allGood rest = [] ∧ (lastError rest).getD e = e := by
  rw [← cut_same_iff]
  constructor
  · intro same
    injection same with _ messages failure
    exact ⟨messages.symm, failure.symm⟩
  · rintro ⟨messages, failure⟩
    rw [wholeReply, reply, messages, failure]

section Requests
variable {X X' σ T τ ρ : Type} (enc : Encoder σ T) (z : Compressors) (h3 : SendStream τ)
  (recv : RecvStream ρ)

/-- A request as HTTP/3 takes it to the server: without `te`, by the task that sends its body,
    and read off the server's receive half. -/
structure RequestOver (sent : HttpRequest X (EncodeBody σ T)) (req : HttpRequest X' (Body Status)) :
    Prop where
  path : req.parts.path = sent.parts.path
  headers : req.parts.headers = removeKey sent.parts.headers te
  body : ∃ stream last start, Sends h3 (EncodeBody.pollFrame enc z) sent.body ⟨stream, []⟩ last ∧
    Receives recv start (bytesOf last.calls) (tailOf last.calls) ∧
    Carries (H3RecvBody.pollFrame recv) (.new start) req.body.data req.body.tail

theorem gives_carries {β ε : Type} {poll : β → FramePoll ε × β} {s : β} {frames : List Bytes}
    {tail : Tail ε} (gives : Gives poll s frames tail) : Carries poll s frames.flatten tail := by
  induction gives with
  | eof h => exact .eof h
  | trailers h => exact .trailers h
  | error h => exact .error h
  | wait h _ ih => exact .wait h ih
  | data h _ ih => exact .data h ih

theorem sent_by_made {ε : Type} (healthy : Healthy h3) (send : Sent τ) (frames : List Bytes) :
    sentBy h3 send frames (.eof : Tail ε) =
      (Sent.makeAll h3 send (plan none (frames.map .data) none)).2 := by
  induction frames generalizing send with
  | nil =>
    simp only [plan, List.map_nil, dataCalls, trailersCalls, lastTrailers, Option.map_none,
      Option.none_or, List.nil_append, Sent.makeAll, Sent.make, sentBy]
    cases (h3.finish send.stream).1 <;> rfl
  | cons bytes frames ih =>
    have front : plan none ((bytes :: frames).map .data) none =
        .data bytes :: plan none (frames.map .data) none := rfl
    have taken := healthy_takes healthy send (.data bytes)
    rw [front, sentBy, Sent.makeAll]
    rw [Sent.make] at taken ⊢
    rcases call : send.sendData h3 bytes with ⟨accepted, next⟩
    rw [call] at taken
    cases taken
    exact ih next

theorem last_trailers_data (frames : List Bytes) :
    lastTrailers none (frames.map .data) = none := by
  induction frames with
  | nil => rfl
  | cons bytes frames ih => exact ih

theorem request_over_delivered {sent : HttpRequest X (EncodeBody σ T)}
    {req : HttpRequest X' (Body Status)} (healthy : Healthy h3) {chunks : List Bytes}
    (gives : Gives (EncodeBody.pollFrame enc z) sent.body chunks .eof)
    (carried : RequestOver enc z h3 recv sent req) : Delivered enc z sent req := by
  obtain ⟨stream, last, start, sends, receives, carries⟩ := carried.body
  have same := sends_unique h3 sends (gives_sends h3 gives ⟨stream, []⟩)
  rw [sent_by_made h3 healthy ⟨stream, []⟩ chunks] at same
  obtain ⟨_, calls⟩ := healthy_takes_all healthy ⟨stream, []⟩ (plan none (chunks.map .data) none)
  obtain ⟨bytes, tail⟩ := sent_conveys (chunks.map .data) none
  rw [same, calls] at receives
  dsimp only at receives
  rw [List.nil_append, bytes, tail] at receives
  have whole : (chunks.map Frame.data).flatMap frameBytes = chunks.flatten := by
    rw [List.flatMap_map, List.flatten_eq_flatMap]
    rfl
  rw [whole, last_trailers_data] at receives
  obtain ⟨data, complete⟩ := carries_unique _ carries (recv_carries _ recv receives)
  refine ⟨carried.path, ?_, ?_⟩
  · intro key other
    rw [carried.headers]
    rw [get_all_remove, if_neg (Ne.symm other)]
  · rw [data, complete]
    exact gives_carries gives

end Requests

section Responses
variable {X σ σ' δ δ' T U τ ρ : Type} (enc : Encoder σ' U) (dec : Decoder δ U) (z : Compressors)
  (h3 : ResponseStream τ) (recv : RecvStream ρ)

/-- A response as HTTP/3 takes it to the caller. -/
structure ResponseOver (response : HttpResponse (ResponseBody σ' U))
    (received : HttpResponse (Body Status)) : Prop where
  status : received.status = response.status
  headers : received.headers = response.headers
  body : ∃ stream good last start,
    SendsResponse h3 (ResponseBody.pollFrame enc z) response stream (good, last) ∧
    Receives recv start (bytesOf last.calls) (tailOf last.calls) ∧
    Carries (H3ClientRecvBody.pollFrame recv) (.new start) received.body.data received.body.tail

theorem fault_tail_elim (texts : ErrorTexts) (trailers : Option HeaderMap) :
    faultTail texts (trailers.elim .eof .trailers) = trailers.elim .eof .trailers := by
  cases trailers <;> rfl

structure HealthyResponse : Prop extends Healthy h3.toSendStream where
  head : ∀ stream status headers, (h3.sendResponse stream status headers).1 = true

variable {response : HttpResponse (ResponseBody σ' U)} {received : HttpResponse (Body Status)}

theorem response_over_received (healthy : HealthyResponse h3) {frames : List Frame}
    (yields : Yields (ResponseBody.pollFrame enc z) response.body frames none)
    (carried : ResponseOver enc z h3 recv response received) :
    received.body.data = frames.flatMap frameBytes ∧
      received.body.tail = (lastTrailers none frames).elim .eof .trailers := by
  obtain ⟨stream, good, last, start, sends, receives, carries⟩ := carried.body
  cases sends with
  | refused head =>
    have taken := healthy.head stream response.status response.headers
    rw [head] at taken
    cases taken
  | @sent next _ rest head run =>
    obtain ⟨last', rest', run', calls⟩ := yields_sends h3 healthy.toHealthy yields none ⟨next, []⟩
    have same := (returns_unique _ run run').1
    cases same
    obtain ⟨bytes, tail⟩ := sent_conveys frames none
    rw [calls] at receives
    dsimp only at receives
    rw [List.nil_append, bytes, tail] at receives
    obtain ⟨data, complete⟩ := carries_unique _ carries (recv_carries _ recv receives)
    exact ⟨data, complete.trans (fault_tail_elim _ _)⟩

variable {client : GrpcClient.Grpc σ δ} {server : GrpcHandler.Grpc σ' δ'}
  {request : Request X (List (Option T))} {path : String}
  {sent : HttpRequest X (EncodeBody σ T)} {transport : GrpcClient.Transport X σ T}
  {related : σ' → δ → Prop} (inStep : InStep enc dec related) (inverse : z.Inverse)
  (rel : related server.encoder client.decoder)
include inStep inverse rel

theorem whole_answer_told (healthy : HealthyResponse h3) {answer : Answer U}
    {encoding : Option CompressionEncoding}
    (prepared : client.prepareRequest (client.encodeRequest request) path = .ok sent)
    (answers : transport sent = .ok received)
    (enabled : ∀ e, encoding = some e → client.acceptCompressionEncodings.isEnabled e = true)
    (returned : ResponseOver enc z h3 recv (server.mapResponse answer encoding) received)
    (proper : Proper (wholeReply answer))
    (fits : Fits enc z encoding server.maxEncodingMessageSize client.maxDecodingMessageSize
      server.encoder (wholeReply answer).messages) :
    Streamed dec z (wholeReply answer) (client.streaming transport request path) ∧
      Single (wholeReply answer) (client.clientStreaming dec z transport request path) := by
  cases answer with
  | error s =>
    obtain ⟨headers, rejected, written⟩ := into_http_written (σ := σ') (U := U) s
    have same : received.headers = headers := by
      have kept := returned.headers
      rw [GrpcHandler.Grpc.mapResponse, rejected] at kept
      exact kept
    rw [← same] at written
    exact refusal_told dec z (proper s rfl) prepared answers written
  | ok response =>
    obtain ⟨frames, yields, bytes, last⟩ := whole_source_yields enc z encoding
      server.maxEncodingMessageSize client.maxDecodingMessageSize server.encoder response.message fits
    obtain ⟨data, tail⟩ := response_over_received enc z h3 recv healthy yields returned
    obtain ⟨trailers, made, written⟩ :=
      to_header_map_written ((lastError (results response.message)).getD (.ok ""))
    rw [bytes] at data
    rw [last, trailersOrDefault, made] at tail
    exact frames_told enc dec z inStep inverse rel prepared answers enabled returned.headers fits
      data tail written proper

end Responses

section Calls
variable {X X' σ σ' δ δ' T U τ τ' ρ ρ' : Type} (clientEnc : Encoder σ T)
  (clientDec : Decoder δ U) (serverEnc : Encoder σ' U) (serverDec : Decoder δ' T) (z : Compressors)
  (up : SendStream τ) (serverRecv : RecvStream ρ) (down : ResponseStream τ')
  (clientRecv : RecvStream ρ') {client : GrpcClient.Grpc σ δ} {server : GrpcHandler.Grpc σ' δ'}
  {request : Request X (List (Option T))} {path : String}
  {sent : HttpRequest X (EncodeBody σ T)} {req : HttpRequest X' (Body Status)}

/-- Over HTTP/3 too the server's function is asked with the caller's messages and metadata, of
    whatever kinds the two ends take the method to be. The caller is told all the messages of
    the answer, those behind an error in front of it, and then the last error. -/
theorem h3_call_refines {requests : σ → δ' → Prop} {responses : σ' → δ → Prop}
    (requestsInStep : InStep clientEnc serverDec requests)
    (responsesInStep : InStep serverEnc clientDec responses) (inverse : z.Inverse)
    (asking : requests client.encoder server.decoder)
    (answering : responses server.encoder client.decoder)
    (upHealthy : Healthy up) (downHealthy : HealthyResponse down)
    (prepared : client.prepareRequest (client.encodeRequest request) path = .ok sent)
    (carried : RequestOver clientEnc z up serverRecv sent req)
    (enabled : ∀ e, client.sendCompressionEncoding = some e →
      server.acceptCompressionEncodings.isEnabled e = true)
    (fits : Fits clientEnc z client.sendCompressionEncoding client.maxEncodingMessageSize
      server.maxDecodingMessageSize client.encoder request.message.reduceOption)
    (handler : Handler X' δ' T U) {received : HttpResponse (Body Status)}
    (returned : ResponseOver serverEnc z down clientRecv (serve serverDec z server handler req)
      received)
    (transport : GrpcClient.Transport X σ T) (answers : transport sent = .ok received) :
    ∃ metadata answer, Conveyed request.metadata metadata ∧
      Asked serverDec z metadata req.parts.extensions request.message.reduceOption handler answer ∧
      (Proper (wholeReply answer) →
        Fits serverEnc z (server.acceptEncoding req) server.maxEncodingMessageSize
          client.maxDecodingMessageSize server.encoder (wholeReply answer).messages →
        (Streamed clientDec z (wholeReply answer) (client.streaming transport request path) ∧
          Single (wholeReply answer) (client.clientStreaming clientDec z transport request path)) ∧
        ∀ single, request = single.map (fun message => [some message]) →
          Streamed clientDec z (wholeReply answer) (client.serverStreaming transport single path) ∧
            Single (wholeReply answer) (client.unary clientDec z transport single path)) := by
  obtain ⟨_, whole⟩ := prepared_encoding prepared
  obtain ⟨chunks, last, run, _⟩ := paced_reads clientEnc z client.sendCompressionEncoding
    client.maxEncodingMessageSize server.maxDecodingMessageSize client.encoder request.message fits
  have gives : Gives (EncodeBody.pollFrame clientEnc z) sent.body chunks .eof := by
    rw [whole]
    exact client_gives clientEnc z rfl run
  have delivered := request_over_delivered clientEnc z up serverRecv upHealthy gives carried
  obtain ⟨answer, asked, served⟩ := delivered_asks clientEnc serverDec z requestsInStep inverse
    asking prepared delivered enabled fits handler
  refine ⟨⟨req.parts.headers⟩, answer, ?_, asked, ?_⟩
  · intro key user
    have other : key ≠ te := fun same => user (same ▸ by decide)
    exact (delivered.headers key other).trans (prepared_headers prepared key user)
  · intro proper responseFits
    rw [served] at returned
    have offered : getKey req.parts.headers acceptEncodingHeader =
        client.acceptCompressionEncodings.intoAcceptEncodingHeaderValue := by
      rw [getKey, delivered.headers acceptEncodingHeader (by decide)]
      exact GrpcClient.prepared_accept_encoding prepared
    have told := whole_answer_told serverEnc clientDec z down clientRecv responsesInStep inverse
      answering downHealthy prepared answers
      (fun e picked => picked_encoding_enabled offered picked) returned proper responseFits
    refine ⟨told, ?_⟩
    rintro single rfl
    exact told

end Calls

section Replay

def pipe : RecvStream (Bytes × Option HeaderMap) :=
  ⟨fun s => (.ready (.ok (if s.1 = [] then none else some s.1)), ([], s.2)),
    fun s => (.ready (.ok s.2), ([], none))⟩

theorem pipe_receives (bytes : Bytes) (trailers : Option HeaderMap) :
    Receives pipe (bytes, trailers) bytes (trailers.elim .eof .trailers) := by
  have rest : Receives pipe ([], trailers) [] (trailers.elim .eof .trailers) := by
    refine .finished (t := ([], trailers)) rfl ?_
    cases trailers with
    | none => exact .nothing rfl
    | some map => exact .trailers rfl
  by_cases empty : bytes = []
  · subst empty
    exact rest
  · have first : pipe.pollRecvData (bytes, trailers) =
        (.ready (.ok (some bytes)), ([], trailers)) := by simp [pipe, empty]
    simpa using Receives.data first rest

def healthyResponse : ResponseStream Unit := { healthy with sendResponse := fun _ _ _ => (true, ()) }

def gone : Status := .cancelled "gone"

def around (message : Bytes) : List (SourceEvent Bytes) :=
  [.item (.ok message), .item (.error gone), .item (.ok message)]

def replay : Handler Bool Unit Bytes Bytes :=
  .serverStreaming fun r => .ok ⟨MetadataMap.new, around r.message⟩

/-- Over HTTP/3 the caller reads both messages, and the error behind them. -/
theorem replay_h3_call_refines :
    ∃ received got e t, (∃ req, ResponseOver echoEncoder plainCompressors healthyResponse pipe
        (serve echoDecoder plainCompressors echoServer replay req) received) ∧
      echoCaller.serverStreaming (fun _ => .ok received) echoRequest "/replay" = .ok got ∧
      Reads (Streaming.pollNext echoDecoder plainCompressors) got.message [[7], [7]] (some e) t ∧
      e.Agrees gone := by
  have upHealthy : Healthy healthy := ⟨fun _ _ => rfl, fun _ _ => rfl, fun _ => rfl⟩
  have downHealthy : HealthyResponse healthyResponse := ⟨upHealthy, fun _ _ _ => rfl⟩
  obtain ⟨sent, prepared⟩ : ∃ sent, echoCaller.prepareRequest
      (echoCaller.encodeRequest (echoRequest.map fun message => [some message])) "/replay" =
        .ok sent := ⟨_, rfl⟩
  let frame : Bytes := [0, 0, 0, 0, 1, 7]
  let req : HttpRequest Bool (Body Status) :=
    ⟨⟨sent.parts.path, removeKey sent.parts.headers te, true⟩, ⟨[.data frame], .eof⟩⟩
  have gives : Gives (EncodeBody.pollFrame echoEncoder plainCompressors) sent.body [frame] .eof := by
    cases prepared
    exact .data rfl (.eof rfl)
  have carried : RequestOver echoEncoder plainCompressors healthy pipe sent req :=
    ⟨rfl, rfl, (), _, (frame, none), gives_sends healthy gives ⟨(), []⟩, pipe_receives frame none,
      recv_carries _ pipe (pipe_receives frame none)⟩
  have twice : Fits echoEncoder plainCompressors none none none () [[7], [7]] :=
    ⟨⟨_, rfl, by decide, by decide, by decide⟩, echo_fits⟩
  have plain : ∀ e, echoCaller.sendCompressionEncoding = some e →
      echoServer.acceptCompressionEncodings.isEnabled e = true := by
    intro _ wrong
    cases wrong
  have picked : echoServer.acceptEncoding req = none := by
    cases prepared
    decide
  have delivered := request_over_delivered echoEncoder plainCompressors healthy pipe upHealthy gives
    carried
  obtain ⟨answer, asked, served⟩ := delivered_asks echoEncoder echoDecoder plainCompressors
    echo_in_step plain_inverse trivial prepared delivered plain echo_fits replay
  cases asked
  obtain ⟨headers, answered, _⟩ := map_response_headers (U := Bytes) echoServer
    ⟨MetadataMap.new, around [7]⟩ none
  obtain ⟨frames, yields, bytes, last⟩ := whole_source_yields echoEncoder plainCompressors none none
    none () (around [7]) twice
  obtain ⟨sentLast, rest, run, calls⟩ := yields_sends healthyResponse upHealthy yields none ⟨(), []⟩
  have conveyed := sent_conveys frames none
  let received : HttpResponse (Body Status) := ⟨200, headers, ⟨[.data (frames.flatMap frameBytes)],
    (lastTrailers none frames).elim .eof .trailers⟩⟩
  have returned : ResponseOver echoEncoder plainCompressors healthyResponse pipe
      (serve echoDecoder plainCompressors echoServer replay req) received := by
    rw [served, picked]
    change ResponseOver echoEncoder plainCompressors healthyResponse pipe
      (echoServer.mapResponse (.ok ⟨MetadataMap.new, around [7]⟩) none) received
    rw [answered]
    have receives := pipe_receives (frames.flatMap frameBytes) (lastTrailers none frames)
    have carries := recv_carries ⟨"h3 client recv error: ", "h3 client trailers error: "⟩ pipe receives
    refine ⟨rfl, rfl, (), true, sentLast, (frames.flatMap frameBytes, lastTrailers none frames),
      .sent rfl run, ?_, ?_⟩
    · rw [calls]
      dsimp only
      rw [List.nil_append, conveyed.1, conveyed.2]
      exact receives
    · have data : received.body.data = frames.flatMap frameBytes := List.append_nil _
      rw [data]
      rwa [fault_tail_elim] at carries
  obtain ⟨metadata, answer, _, asked, told⟩ := h3_call_refines echoEncoder echoDecoder echoEncoder
    echoDecoder plainCompressors healthy pipe healthyResponse pipe echo_in_step echo_in_step
    plain_inverse trivial trivial upHealthy downHealthy prepared carried plain echo_fits replay
    returned (fun _ => .ok received) rfl
  cases asked
  have proper : Proper (wholeReply (.ok ⟨MetadataMap.new, around [7]⟩)) := by
    intro s same
    cases same
    decide
  obtain ⟨streamed, _⟩ := (told proper (picked ▸ twice)).2 echoRequest rfl
  cases got : echoCaller.serverStreaming (fun _ => .ok received) echoRequest "/replay" with
  | error e =>
    rw [got] at streamed
    exact streamed.elim
  | ok response =>
    rw [got] at streamed
    obtain ⟨_, failure, t, reads, ends⟩ := streamed
    cases failure with
    | none => exact ends.elim
    | some e => exact ⟨received, response, e, t, ⟨req, returned⟩, got, reads, ends⟩

end Replay

end H3Calls
