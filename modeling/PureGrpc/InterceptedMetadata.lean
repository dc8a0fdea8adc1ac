import PureGrpc.GrpcHandler
import PureGrpc.StreamingScan

/-!
What metadata a handler behind an interceptor is called with. The interceptor
has decided before the body is read; the trailers at the end of the body are
then merged into what it decided, so they replace the values of their own keys
and of no others.
-/
namespace InterceptedMetadata
open KeyedMultimap LengthFraming GrpcMetadata GrpcStatus GrpcCompression GrpcCodec PolledMachines
open HttpBodies MessageEncoding StreamingDecode StreamingScan AwaitedMessages GrpcHandler

variable {X σ δ T U : Type} (dec : Decoder δ T) (z : Compressors) (self : Grpc σ δ)

theorem request_underway (body : Body Status) (encoding : Option CompressionEncoding)
    (limit : Option Nat) :
    Underway body.tail (Streaming.newRequest self.decoder body encoding limit).inner :=
  ⟨rfl, rfl, rfl⟩

theorem unary_metadata {request : HttpRequest X (Body Status)} {r : Request X T} {map : HeaderMap}
    (trailing : request.body.tail = .trailers map)
    (mapped : self.mapRequestUnary dec z request = .ok r) :
    r.metadata = MetadataMap.merge ⟨request.parts.headers⟩ ⟨map⟩ := by
  unfold Grpc.mapRequestUnary at mapped
  split at mapped
  · cases mapped
  · rename_i requestEncoding _
    have start := request_underway self request.body requestEncoding self.maxDecodingMessageSize
    rw [trailing] at start
    split at mapped
    · cases mapped
    · cases mapped
    · rename_i message stream first
      have underway := (message_underway dec z _ start).1 _ _ first
      dsimp only at mapped
      split at mapped
      · cases mapped
      · rename_i fetched
        cases trailers_underway dec z underway fetched
      · rename_i trailers _ fetched
        cases trailers_underway dec z underway fetched
        cases mapped
        rfl

theorem unary_reads {request : HttpRequest X (Body Status)} {map : HeaderMap} {msg : T}
    {msgs : List T} {last : Streaming δ} {encoding : Option CompressionEncoding}
    (trailing : request.body.tail = .trailers map)
    (accepted : CompressionEncoding.fromEncodingHeader request.parts.headers
      self.acceptCompressionEncodings = .ok encoding)
    (reads : Reads (Streaming.pollNext dec z) (.newRequest self.decoder request.body encoding
      self.maxDecodingMessageSize) (msg :: msgs) none last) :
    self.mapRequestUnary dec z request = .ok
      ⟨MetadataMap.merge ⟨request.parts.headers⟩ ⟨map⟩, msg, request.parts.extensions⟩ := by
  obtain ⟨u, first, rest⟩ := message_reads dec z reads
  have start := request_underway self request.body encoding self.maxDecodingMessageSize
  rw [trailing] at start
  have underway := (message_underway dec z _ start).1 _ _ first
  have drained := drain_reads dec z rest
  have found : last.inner.trailers = some map := by
    have kept := drain_trailers dec z map u underway (by rw [drained]; rfl)
    rwa [drained] at kept
  have fetched : Streaming.trailers dec z u = (.ok (some ⟨map⟩),
      { last with inner := { last.inner with trailers := none } }) := by
    simp only [Streaming.trailers, underway.trailers, drained, Option.elim, found, Option.map_some]
  simp only [Grpc.mapRequestUnary, accepted, first, fetched, Request.fromHttpParts]

/-- The request that the handler behind an interceptor is called with, or the status
    the call is answered with before that. -/
def handlerRequest (interceptor : Interceptor X) (req : HttpRequest X (Body Status)) :
    Except Status (Request X T) :=
  match interceptor (interceptorRequest req) with
  | .error status => .error status
  | .ok request => self.mapRequestUnary dec z (intercepted req request)

/-- Calls of the two kinds that read one message show a service this request only, or
    are answered with this status. -/
def Serves (interceptor : Interceptor X) (req : HttpRequest X (Body Status)) :
    Except Status (Request X T) → Prop
  | .error status =>
    (∀ service : Request X T → Except Status (Response U),
      InterceptedService.call interceptor (self.unary dec z service) req =
        Status.intoHttp status) ∧
    ∀ service : Request X T → Except Status (Response (List (SourceEvent U))),
      InterceptedService.call interceptor (self.serverStreaming dec z service) req =
        Status.intoHttp status
  | .ok request => ∃ acceptEncoding,
    (∀ service : Request X T → Except Status (Response U),
      InterceptedService.call interceptor (self.unary dec z service) req =
        self.mapResponse ((service request).map (·.map once)) acceptEncoding) ∧
    ∀ service : Request X T → Except Status (Response (List (SourceEvent U))),
      InterceptedService.call interceptor (self.serverStreaming dec z service) req =
        self.mapResponse (service request) acceptEncoding

theorem handler_request_serves (interceptor : Interceptor X) (req : HttpRequest X (Body Status)) :
    Serves (U := U) dec z self interceptor req (handlerRequest dec z self interceptor req) := by
  unfold handlerRequest Serves InterceptedService.call
  cases interceptor (interceptorRequest req) with
  | error status => exact ⟨fun _ => rfl, fun _ => rfl⟩
  | ok request =>
    simp only [Grpc.unary, Grpc.serverStreaming]
    cases self.mapRequestUnary dec z (intercepted req request) with
    | error status => exact ⟨fun _ => rfl, fun _ => rfl⟩
    | ok r => exact ⟨_, fun _ => rfl, fun _ => rfl⟩

theorem handler_request_metadata {interceptor : Interceptor X} {parts : RequestParts X}
    {chunks : List Chunk} {map : HeaderMap} {r : Request X T}
    (called : handlerRequest dec z self interceptor ⟨parts, ⟨chunks, .trailers map⟩⟩ = .ok r) :
    ∃ request, interceptor (.fromHttpParts parts ()) = .ok request ∧
      r.metadata = request.metadata.merge ⟨map⟩ := by
  unfold handlerRequest at called
  split at called
  · cases called
  · rename_i request passed
    exact ⟨request, passed, unary_metadata dec z self rfl called⟩

/-- Every key of the interceptor's request that the trailers do not carry reaches the
    handler with the interceptor's values, so two requests that differ only in their
    trailers agree on every key that neither carries. -/
theorem trailers_replace_their_keys (interceptor : Interceptor X) (parts : RequestParts X)
    (chunks : List Chunk) (map other : HeaderMap) :
    let request (tail : HeaderMap) : HttpRequest X (Body Status) :=
      ⟨parts, ⟨chunks, .trailers tail⟩⟩
    Serves (U := U) dec z self interceptor (request map)
      (handlerRequest dec z self interceptor (request map)) ∧
    ∀ r, handlerRequest dec z self interceptor (request map) = .ok r →
      (∃ passed, interceptor (.fromHttpParts parts ()) = .ok passed ∧
        ∀ k, getAll r.metadata.headers k =
          if containsKey map k then getAll map k else getAll passed.metadata.headers k) ∧
      ∀ r', handlerRequest dec z self interceptor (request other) = .ok r' →
        ∀ k, containsKey map k = false → containsKey other k = false →
          getAll r.metadata.headers k = getAll r'.metadata.headers k := by
  intro request
  refine ⟨handler_request_serves dec z self interceptor _, ?_⟩
  intro r called
  obtain ⟨passed, asked, merged⟩ := handler_request_metadata dec z self called
  refine ⟨⟨passed, asked, ?_⟩, ?_⟩
  · intro k
    rw [merged, merge_values]
  · intro r' called' k free free'
    obtain ⟨passed', asked', merged'⟩ := handler_request_metadata dec z self called'
    cases asked.symm.trans asked'
    rw [merged, merged', merge_values, merge_values, free, free']
    rfl

def echoDecoder : Decoder Unit Bytes := plainDecoder fun bytes => .ok bytes

def plainCompressors : Compressors := ⟨fun _ plain => .ok plain, fun _ packed => .ok packed⟩

def echoGrpc : Grpc Unit Unit :=
  ⟨(), (), ⟨true, true, true⟩, ⟨true, true, true⟩, none, none⟩

def user : HeaderName := "x-user"
def alice : HeaderValue := fromStatic "alice" (by decide)

def authenticate : Interceptor Unit := fun req =>
  .ok { req with metadata := ⟨insertKey req.metadata.headers user alice⟩ }

def greeting (map : HeaderMap) : HttpRequest Unit (Body Status) :=
  ⟨⟨"/greeter", [], ()⟩, ⟨[.data [0, 0, 0, 0, 0]], .trailers map⟩⟩

theorem greeting_called (map : HeaderMap) :
    handlerRequest echoDecoder plainCompressors echoGrpc authenticate (greeting map) =
      .ok ⟨MetadataMap.merge ⟨[(user, alice)]⟩ ⟨map⟩, [], ()⟩ := by
  have header : LengthFraming.readHeader [0, 0, 0, 0, 0] = some (0, 0, []) := by decide
  have front : scanFrame echoDecoder plainCompressors none none () [0, 0, 0, 0, 0] =
      .message [] () [] := by
    simp only [scanFrame, header]
    rfl
  have scanned : Scanned echoDecoder plainCompressors none none () [0, 0, 0, 0, 0] [[]]
      (.short []) := .message front (.short rfl)
  obtain ⟨last, reads, _⟩ := new_reads echoDecoder plainCompressors none none ()
    (greeting map).body .request scanned
  have trailing : (intercepted (greeting map) ⟨⟨[(user, alice)]⟩, (), ()⟩).body.tail =
      .trailers map := rfl
  exact unary_reads echoDecoder plainCompressors echoGrpc trailing rfl reads

/-- Trailers with another key leave the user as it was authenticated. -/
theorem other_trailers_keep_user :
    let trace := ("x-trace", fromStatic "7" (by decide))
    ∃ r, handlerRequest echoDecoder plainCompressors echoGrpc authenticate (greeting [trace]) =
        .ok r ∧ getAll r.metadata.headers user = [alice] := by
  intro trace
  have called := greeting_called [trace]
  obtain ⟨_, rest⟩ := trailers_replace_their_keys (U := Bytes) echoDecoder plainCompressors echoGrpc
    authenticate (greeting []).parts (greeting []).body.chunks [trace] []
  obtain ⟨⟨passed, asked, values⟩, _⟩ := rest _ called
  cases asked
  exact ⟨_, called, values user⟩

/-- A caller whose trailers name another user is taken for that one. -/
theorem trailers_override_interceptor :
    let mallory := fromStatic "mallory" (by decide)
    ∃ passed r, authenticate (interceptorRequest (greeting [(user, mallory)])) = .ok passed ∧
      getAll passed.metadata.headers user = [alice] ∧
      handlerRequest echoDecoder plainCompressors echoGrpc authenticate
        (greeting [(user, mallory)]) = .ok r ∧
      Serves (U := Bytes) echoDecoder plainCompressors echoGrpc authenticate
        (greeting [(user, mallory)]) (.ok r) ∧
      getAll r.metadata.headers user = [mallory] := by
  intro mallory
  have called := greeting_called [(user, mallory)]
  have serves := handler_request_serves (U := Bytes) echoDecoder plainCompressors echoGrpc
    authenticate (greeting [(user, mallory)])
  rw [called] at serves
  exact ⟨_, _, rfl, rfl, called, serves, rfl⟩

end InterceptedMetadata
