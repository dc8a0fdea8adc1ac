import PureGrpc.FallibleLoops
import PureGrpc.RemoteCalls

/-!
Calls through a chain of interceptors. Each wraps the service behind it, and the next is asked
about what the one before it made of the request. A chain is one interceptor, so a function is
reached only with what all of them let through, and a rejection anywhere is what the caller is
told.
-/
namespace GuardedCalls
open KeyedMultimap LengthFraming GrpcMetadata GrpcStatus GrpcCompression GrpcCodec PolledMachines
open HttpBodies MessageEncoding EncodeOrder StreamingDecode FramingRoundTrip GrpcHandler
open CompressionNegotiation StatusPropagation InterceptedMetadata RemoteCalls

variable {X X' β σ σ' δ δ' T U : Type}

section Chains

/-- A service behind these interceptors, the first outermost. -/
def guarded (interceptors : List (Interceptor X))
    (inner : HttpRequest X β → HttpResponse (ResponseBody σ U)) :
    HttpRequest X β → HttpResponse (ResponseBody σ U) :=
  interceptors.foldr InterceptedService.call inner

/-- What a request is passed on as, or the first rejection. -/
def consult (interceptors : List (Interceptor X)) : Interceptor X := fun request =>
  interceptors.foldlM (fun request interceptor => interceptor request) request

theorem guarded_single (interceptors : List (Interceptor X))
    (inner : HttpRequest X β → HttpResponse (ResponseBody σ U)) (req : HttpRequest X β) :
    guarded interceptors inner req = InterceptedService.call (consult interceptors) inner req := by
  induction interceptors generalizing req with
  | nil => rfl
  | cons interceptor rest ih =>
    change InterceptedService.call interceptor (guarded rest inner) req = _
    unfold InterceptedService.call
    have asked : consult (interceptor :: rest) (interceptorRequest req) =
        interceptor (interceptorRequest req) >>= consult rest := List.foldlM_cons
    rw [asked]
    cases interceptor (interceptorRequest req) with
    | error status => rfl
    | ok request =>
      change guarded rest inner (intercepted req request) = _
      rw [ih]
      rfl

end Chains

section Calls
variable (clientEnc : Encoder σ T) (clientDec : Decoder δ U) (serverEnc : Encoder σ' U)
  (serverDec : Decoder δ' T) (z : Compressors)

/-- What the caller is told, whichever of the four functions it calls. -/
def Hears (client : GrpcClient.Grpc σ δ) (transport : GrpcClient.Transport X σ T)
    (request : Request X (List (Option T))) (path : String) (told : Reply U) : Prop :=
  (Streamed clientDec z told (client.streaming transport request path) ∧
    Single told (client.clientStreaming clientDec z transport request path)) ∧
  ∀ single, request = single.map (fun message => [some message]) →
    Streamed clientDec z told (client.serverStreaming transport single path) ∧
      Single told (client.unary clientDec z transport single path)

structure KeepsEncodings (req : HttpRequest X (Body Status)) (passed : Request X Unit) : Prop where
  encoding : getKey passed.metadata.headers encodingHeader =
    getKey req.parts.headers encodingHeader
  acceptEncoding : getKey passed.metadata.headers acceptEncodingHeader =
    getKey req.parts.headers acceptEncodingHeader

variable {client : GrpcClient.Grpc σ δ} {server : GrpcHandler.Grpc σ' δ'}
  {request : Request X (List (Option T))} {path : String}
  {sent : HttpRequest X (EncodeBody σ T)} {req : HttpRequest X' (Body Status)}
  {interceptors : List (Interceptor X')} {received : HttpResponse (Body Status)}
  {transport : GrpcClient.Transport X σ T}

theorem hears_of_both {told : Reply U}
    (both : Streamed clientDec z told (client.streaming transport request path) ∧
      Single told (client.clientStreaming clientDec z transport request path)) :
    Hears clientDec z client transport request path told := by
  refine ⟨both, ?_⟩
  rintro single rfl
  exact both

theorem rejection_hears {s : Status} (bad : s.code ≠ .ok)
    (prepared : client.prepareRequest (client.encodeRequest request) path = .ok sent)
    (answers : transport sent = .ok received)
    (returned : ResponseArrives serverEnc z (Status.intoHttp s) received) :
    Hears clientDec z client transport request path (.refused s) := by
  obtain ⟨headers, rejected, written⟩ := into_http_written (σ := σ') (U := U) s
  have same : received.headers = headers := by
    have kept := returned.headers
    rw [rejected] at kept
    exact kept
  rw [← same] at written
  exact hears_of_both clientDec z (refusal_told clientDec z bad prepared answers written)

/-- A chain rejects with what its first rejecting interceptor says, whatever service is behind
    it, and that is what the caller is told. A function behind a chain that lets a request through
    is asked with the caller's messages under the metadata and extensions of the last interceptor,
    and the caller is told its answer. -/
theorem guarded_call_refines {requests : σ → δ' → Prop} {responses : σ' → δ → Prop}
    (requestsInStep : InStep clientEnc serverDec requests)
    (responsesInStep : InStep serverEnc clientDec responses) (inverse : z.Inverse)
    (asking : requests client.encoder server.decoder)
    (answering : responses server.encoder client.decoder)
    (prepared : client.prepareRequest (client.encodeRequest request) path = .ok sent)
    (delivered : Delivered clientEnc z sent req)
    (enabled : ∀ e, client.sendCompressionEncoding = some e →
      server.acceptCompressionEncodings.isEnabled e = true)
    (fits : Fits clientEnc z client.sendCompressionEncoding client.maxEncodingMessageSize
      server.maxDecodingMessageSize client.encoder request.message.reduceOption)
    (handler : Handler X' δ' T U)
    (returned : ResponseArrives serverEnc z
      (guarded interceptors (serve serverDec z server handler) req) received)
    (transport : GrpcClient.Transport X σ T) (answers : transport sent = .ok received) :
    (∀ s, consult interceptors (interceptorRequest req) = .error s →
      (∃ before interceptor after passed, interceptors = before ++ interceptor :: after ∧
        consult before (interceptorRequest req) = .ok passed ∧ interceptor passed = .error s) ∧
      (∀ inner : HttpRequest X' (Body Status) → HttpResponse (ResponseBody σ' U),
        guarded interceptors inner req = Status.intoHttp s) ∧
      (s.code ≠ .ok → Hears clientDec z client transport request path (.refused s))) ∧
    ∀ passed, consult interceptors (interceptorRequest req) = .ok passed →
      KeepsEncodings req passed →
      ∃ answer, Asked serverDec z passed.metadata passed.extensions request.message.reduceOption
          handler answer ∧
        (Proper (reply answer) →
          Fits serverEnc z (server.acceptEncoding (intercepted req passed))
            server.maxEncodingMessageSize client.maxDecodingMessageSize server.encoder
            (reply answer).messages →
          Hears clientDec z client transport request path (reply answer)) := by
  constructor
  · intro s rejected
    have answered (inner : HttpRequest X' (Body Status) → HttpResponse (ResponseBody σ' U)) :
        guarded interceptors inner req = Status.intoHttp s := by
      rw [guarded_single, InterceptedService.call, rejected]
    refine ⟨FallibleLoops.fold_error_iff.mp rejected, answered, ?_⟩
    intro bad
    rw [answered] at returned
    exact rejection_hears clientDec serverEnc z bad prepared answers returned
  · intro passed admitted keeps
    obtain ⟨announced, _⟩ := prepared_encoding prepared
    have named : CompressionEncoding.fromEncodingHeader (intercepted req passed).parts.headers
        server.acceptCompressionEncodings = .ok client.sendCompressionEncoding := by
      apply encoding_header_accepted _ enabled
      refine keeps.encoding.trans ?_
      rw [getKey, delivered.headers encodingHeader (by decide), announced]
      cases client.sendCompressionEncoding <;> rfl
    have offered : getKey (intercepted req passed).parts.headers acceptEncodingHeader =
        client.acceptCompressionEncodings.intoAcceptEncodingHeaderValue := by
      refine keeps.acceptEncoding.trans ?_
      rw [getKey, delivered.headers acceptEncodingHeader (by decide)]
      exact GrpcClient.prepared_accept_encoding prepared
    obtain ⟨data, complete⟩ := sent_body clientEnc z prepared fits delivered.body
    obtain ⟨answer, asked, served⟩ := framed_asks clientEnc serverDec z requestsInStep inverse
      asking named fits data complete handler
    refine ⟨answer, asked, ?_⟩
    intro proper responseFits
    rw [guarded_single, InterceptedService.call, admitted] at returned
    change ResponseArrives serverEnc z (serve serverDec z server handler (intercepted req passed))
      received at returned
    rw [served] at returned
    exact hears_of_both clientDec z (answer_told serverEnc clientDec z responsesInStep inverse
      answering prepared answers (fun e picked => picked_encoding_enabled offered picked) returned
      proper responseFits)

end Calls

section Chain

def banned : Status := .new .permissionDenied "alice is banned"

def ban : Interceptor Unit := fun request =>
  if getKey request.metadata.headers user = some alice then .error banned else .ok request

theorem chain_bans (request : Request Unit Unit) :
    consult [authenticate, ban] request = .error banned := by
  have set : getKey (insertKey request.metadata.headers user alice) user = some alice := by
    rw [get_insert, if_pos rfl]
  have asked : consult [authenticate, ban] request =
      ban ⟨⟨insertKey request.metadata.headers user alice⟩, (), request.extensions⟩ >>= .ok := rfl
  rw [asked, ban, if_pos set]
  rfl

/-- The second interceptor rejects the user that the first has set, and the echo is not reached. -/
theorem banned_call_refused : ∃ received e, (∃ req,
      consult [authenticate] (interceptorRequest req) ≠ .error banned ∧
      ResponseArrives echoEncoder plainCompressors (guarded [authenticate, ban]
        (serve echoDecoder plainCompressors echoServer (.unary fun r => .ok ⟨r.metadata, r.message⟩))
        req) received) ∧
    echoCaller.unary echoDecoder plainCompressors (fun _ => .ok received) echoRequest "/echo" =
      .error e ∧ e.Agrees banned := by
  obtain ⟨sent, prepared⟩ : ∃ sent, echoCaller.prepareRequest
      (echoCaller.encodeRequest (echoRequest.map fun message => [some message])) "/echo" =
        .ok sent := ⟨_, rfl⟩
  let req : HttpRequest Unit (Body Status) :=
    ⟨⟨sent.parts.path, sent.parts.headers, ()⟩, ⟨[.data [0, 0, 0, 0, 1, 7]], .eof⟩⟩
  have delivered : Delivered echoEncoder plainCompressors sent req := by
    cases prepared
    exact ⟨rfl, fun _ _ => rfl, .data rfl (.eof rfl)⟩
  have plain : ∀ e, echoCaller.sendCompressionEncoding = some e →
      echoServer.acceptCompressionEncodings.isEnabled e = true := by
    intro _ wrong
    cases wrong
  let handler : Handler Unit Unit Bytes Bytes := .unary fun r => .ok ⟨r.metadata, r.message⟩
  have rejected := chain_bans (interceptorRequest req)
  obtain ⟨headers, refused, _⟩ := into_http_written (σ := Unit) (U := Bytes) banned
  let received : HttpResponse (Body Status) := ⟨200, headers, ⟨[], .eof⟩⟩
  have returned : ResponseArrives echoEncoder plainCompressors (guarded [authenticate, ban]
      (serve echoDecoder plainCompressors echoServer handler) req) received := by
    rw [guarded_single, InterceptedService.call, rejected]
    change ResponseArrives echoEncoder plainCompressors (Status.intoHttp banned) received
    rw [refused]
    exact ⟨rfl, rfl, .eof rfl⟩
  obtain ⟨_, _, heard⟩ := (guarded_call_refines echoEncoder echoDecoder echoEncoder echoDecoder
    plainCompressors echo_in_step echo_in_step plain_inverse trivial trivial prepared delivered
    plain echo_fits handler returned (fun _ => .ok received) rfl).1 banned rejected
  obtain ⟨_, single⟩ := (heard (by decide)).2 echoRequest rfl
  have message := single.message
  cases got : echoCaller.unary echoDecoder plainCompressors (fun _ => .ok received) echoRequest
      "/echo" with
  | ok response =>
    rw [got] at message
    exact message.elim
  | error e =>
    rw [got] at message
    exact ⟨received, e, ⟨req, (by intro wrong; cases wrong), returned⟩, got, message⟩

end Chain

end GuardedCalls
