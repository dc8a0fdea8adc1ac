import PureGrpc.AwaitedMessages
import PureGrpc.MessageEncoding

/-!
The server's handler: an HTTP request becomes the request a service is called
with, and what the service answers becomes an HTTP response. A service is a
function of its request; a response stream is its events. An interceptor in
front of a service may replace the headers and extensions of a request.
-/
namespace GrpcHandler
open KeyedMultimap GrpcMetadata GrpcStatus GrpcCompression GrpcCodec PolledMachines HttpBodies
open MessageEncoding StreamingDecode AwaitedMessages

structure Request (X M : Type) where
  metadata : MetadataMap
  message : M
  extensions : X

structure Response (M : Type) where
  metadata : MetadataMap
  message : M

variable {X M N : Type}

def Request.fromHttpParts (parts : RequestParts X) (message : M) : Request X M :=
  ⟨⟨parts.headers⟩, message, parts.extensions⟩

def Request.fromHttp (http : HttpRequest X M) : Request X M := .fromHttpParts http.parts http.body

def Request.map (f : M → N) (self : Request X M) : Request X N :=
  ⟨self.metadata, f self.message, self.extensions⟩

def Response.map (f : M → N) (self : Response M) : Response N := ⟨self.metadata, f self.message⟩

def Response.intoHttp (self : Response M) : HttpResponse M :=
  ⟨200, self.metadata.intoSanitizedHeaders, self.message⟩

/-- The default body, or the encoded messages of a service. -/
inductive ResponseBody (σ T : Type) where
  | empty
  | encoded (body : EncodeBody σ T)

variable {σ δ T U : Type}

def ResponseBody.pollFrame (enc : Encoder σ U) (z : Compressors) :
    ResponseBody σ U → FramePoll Status × ResponseBody σ U
  | .empty => (.ready none, .empty)
  | .encoded body =>
    match body.pollFrame enc z with
    | (answer, body) => (answer, .encoded body)

def contentType : HeaderName := "content-type"

/-- A response of trailers alone; without a valid header form only a code is sent. -/
def Status.intoHttp (self : Status) : HttpResponse (ResponseBody σ U) :=
  match self.addHeader (insertKey [] contentType grpcContentType) with
  | (.ok (), headers) => ⟨200, headers, .empty⟩
  | (.error fallback, headers) =>
    ⟨200, insertKey headers grpcStatus fallback.code.toHeaderValue, .empty⟩

structure Grpc (σ δ : Type) where
  encoder : σ
  decoder : δ
  acceptCompressionEncodings : EnabledCompressionEncodings
  sendCompressionEncodings : EnabledCompressionEncodings
  maxDecodingMessageSize : Option Nat
  maxEncodingMessageSize : Option Nat

section Handling
variable (dec : Decoder δ T) (z : Compressors)

def Grpc.mapRequestUnary (self : Grpc σ δ) (request : HttpRequest X (Body Status)) :
    Except Status (Request X T) :=
  match CompressionEncoding.fromEncodingHeader request.parts.headers
      self.acceptCompressionEncodings with
  | .error status => .error status
  | .ok requestEncoding =>
    match Streaming.message dec z (.newRequest self.decoder request.body requestEncoding
        self.maxDecodingMessageSize) with
    | (.error status, _) => .error status
    | (.ok none, _) => .error (.internal "Missing request message.")
    | (.ok (some message), stream) =>
      let req := Request.fromHttpParts request.parts message
      match Streaming.trailers dec z stream with
      | (.error status, _) => .error status
      | (.ok none, _) => .ok req
      | (.ok (some trailers), _) => .ok { req with metadata := req.metadata.merge trailers }

def Grpc.mapRequestStreaming (self : Grpc σ δ) (request : HttpRequest X (Body Status)) :
    Except Status (Request X (Streaming δ)) :=
  match CompressionEncoding.fromEncodingHeader request.parts.headers
      self.acceptCompressionEncodings with
  | .error status => .error status
  | .ok encoding =>
    .ok (.fromHttp ⟨request.parts, .newRequest self.decoder request.body encoding
      self.maxDecodingMessageSize⟩)

def Grpc.mapResponse (self : Grpc σ δ) (response : Except Status (Response (List (SourceEvent U))))
    (acceptEncoding : Option CompressionEncoding) : HttpResponse (ResponseBody σ U) :=
  match response with
  | .error status => Status.intoHttp status
  | .ok response =>
    let parts := response.intoHttp
    let headers := insertKey parts.headers contentType grpcContentType
    let headers := match acceptEncoding with
      | some encoding => insertKey headers encodingHeader encoding.intoHeaderValue
      | none => headers
    ⟨parts.status, headers, .encoded (.newServer self.encoder parts.body acceptEncoding
      self.maxEncodingMessageSize)⟩

def Grpc.acceptEncoding (self : Grpc σ δ) (request : HttpRequest X (Body Status)) :
    Option CompressionEncoding :=
  CompressionEncoding.fromAcceptEncodingHeader request.parts.headers self.sendCompressionEncodings

def once (message : U) : List (SourceEvent U) := [.item (.ok message)]

def Grpc.unary (self : Grpc σ δ) (service : Request X T → Except Status (Response U))
    (req : HttpRequest X (Body Status)) : HttpResponse (ResponseBody σ U) :=
  match self.mapRequestUnary dec z req with
  | .error status => Status.intoHttp status
  | .ok request =>
    self.mapResponse ((service request).map (·.map once)) (self.acceptEncoding req)

def Grpc.serverStreaming (self : Grpc σ δ)
    (service : Request X T → Except Status (Response (List (SourceEvent U))))
    (req : HttpRequest X (Body Status)) : HttpResponse (ResponseBody σ U) :=
  match self.mapRequestUnary dec z req with
  | .error status => Status.intoHttp status
  | .ok request => self.mapResponse (service request) (self.acceptEncoding req)

end Handling

def Grpc.clientStreaming (self : Grpc σ δ)
    (service : Request X (Streaming δ) → Except Status (Response U))
    (req : HttpRequest X (Body Status)) : HttpResponse (ResponseBody σ U) :=
  match self.mapRequestStreaming req with
  | .error status => Status.intoHttp status
  | .ok request =>
    self.mapResponse ((service request).map (·.map once)) (self.acceptEncoding req)

def Grpc.streaming (self : Grpc σ δ)
    (service : Request X (Streaming δ) → Except Status (Response (List (SourceEvent U))))
    (req : HttpRequest X (Body Status)) : HttpResponse (ResponseBody σ U) :=
  match self.mapRequestStreaming req with
  | .error status => Status.intoHttp status
  | .ok request => self.mapResponse (service request) (self.acceptEncoding req)

abbrev Interceptor (X : Type) := Request X Unit → Except Status (Request X Unit)

def interceptorRequest {β : Type} (req : HttpRequest X β) : Request X Unit :=
  .fromHttpParts req.parts ()

def intercepted {β : Type} (req : HttpRequest X β) (request : Request X Unit) :
    HttpRequest X β :=
  ⟨{ req.parts with headers := request.metadata.headers, extensions := request.extensions }, req.body⟩

def InterceptedService.call {β : Type} (interceptor : Interceptor X)
    (inner : HttpRequest X β → HttpResponse (ResponseBody σ U)) (req : HttpRequest X β) :
    HttpResponse (ResponseBody σ U) :=
  match interceptor (interceptorRequest req) with
  | .error status => Status.intoHttp status
  | .ok request => inner (intercepted req request)

section Outcomes

theorem into_http_written (s : Status) :
    ∃ headers, Status.intoHttp (σ := σ) (U := U) s = ⟨200, headers, .empty⟩ ∧
      Written s (insertKey [] contentType grpcContentType) headers := by
  obtain ⟨after, run, written⟩ := add_header_written s (insertKey [] contentType grpcContentType)
  exact ⟨after, by simp only [Status.intoHttp, run], written⟩

/-- A status travels through headers, as trailers and as a response of trailers alone:
    code, message and details come back, and no fallback is taken on the way. -/
theorem status_round_trip (s : Status) :
    (∀ before, (s.addHeader before).1 = .ok ()) ∧
    (∃ map read, s.toHeaderMap = .ok map ∧ trailersOrDefault s = map ∧
      Status.fromHeaderMap map = some read ∧ read.Agrees s) ∧
    ∃ headers read, s.addHeader (insertKey [] contentType grpcContentType) = (.ok (), headers) ∧
      Status.intoHttp (σ := σ) (U := U) s = ⟨200, headers, .empty⟩ ∧
      Status.fromHeaderMap headers = some read ∧ read.Agrees s := by
  refine ⟨?_, ?_, ?_⟩
  · intro before
    obtain ⟨after, run, _⟩ := add_header_written s before
    rw [run]
  · obtain ⟨map, run, written⟩ := to_header_map_written s
    obtain ⟨read, parsed, agrees⟩ := from_header_map_written written rfl rfl
    exact ⟨map, read, run, by rw [trailersOrDefault, run], parsed, agrees⟩
  · obtain ⟨headers, run, written⟩ := add_header_written s (insertKey [] contentType grpcContentType)
    obtain ⟨read, parsed, agrees⟩ := from_header_map_written written (by decide) (by decide)
    exact ⟨headers, read, run, by simp only [Status.intoHttp, run], parsed, agrees⟩

theorem map_response_headers (self : Grpc σ δ) (response : Response (List (SourceEvent U)))
    (acceptEncoding : Option CompressionEncoding) :
    ∃ headers, self.mapResponse (.ok response) acceptEncoding =
        ⟨200, headers, .encoded (.newServer self.encoder response.message acceptEncoding
          self.maxEncodingMessageSize)⟩ ∧
      getAll headers grpcStatus = [] ∧
      getKey headers encodingHeader = acceptEncoding.map (·.intoHeaderValue) := by
  have clear (k : HeaderName) (reserved : k ∈ grpcReservedHeaders) :
      getAll response.metadata.intoSanitizedHeaders k = [] := by
    rw [sanitized_values, if_pos reserved]
  have status := clear grpcStatus (by decide)
  have encoding := clear encodingHeader (by decide)
  have names : contentType ≠ grpcStatus ∧ encodingHeader ≠ grpcStatus ∧
      contentType ≠ encodingHeader := by decide
  refine ⟨_, rfl, ?_, ?_⟩
  · cases acceptEncoding <;> simp [Response.intoHttp, status, names]
  · cases acceptEncoding <;> simp [Response.intoHttp, encoding, names, getKey]

end Outcomes

end GrpcHandler
