import PureGrpc.GrpcHandler

/-!
The client's dispatcher. A request goes out with its headers sanitized and the
protocol's own set; what comes back is an error if its headers carry a status
other than Ok, and a stream of messages otherwise. The transport is a function
from the request that is sent to the response or to the error it maps to.
-/
namespace GrpcClient
open KeyedMultimap GrpcMetadata GrpcStatus GrpcCompression GrpcCodec HttpBodies MessageEncoding
open StreamingDecode AwaitedMessages GrpcHandler

/-- The client's settings, and the encoder and decoder its codec makes. How origin
    and path make a URI is the http library's. -/
structure Grpc (σ δ : Type) where
  encoder : σ
  decoder : δ
  uri : String → Except Status String
  acceptCompressionEncodings : EnabledCompressionEncodings
  sendCompressionEncoding : Option CompressionEncoding
  maxDecodingMessageSize : Option Nat
  maxEncodingMessageSize : Option Nat

variable {X β σ δ T U : Type}

abbrev Transport (X σ T : Type) :=
  HttpRequest X (EncodeBody σ T) → Except Status (HttpResponse (Body Status))

def Grpc.prepareRequest (self : Grpc σ δ) (request : Request X β) (path : String) :
    Except Status (HttpRequest X β) :=
  match self.uri path with
  | .error status => .error status
  | .ok uri =>
    let headers := insertKey request.metadata.intoSanitizedHeaders te trailersValue
    let headers := insertKey headers contentType grpcContentType
    let headers := match self.sendCompressionEncoding with
      | some encoding => insertKey headers encodingHeader encoding.intoHeaderValue
      | none => headers
    let headers := match self.acceptCompressionEncodings.intoAcceptEncodingHeaderValue with
      | some headerValue => insertKey headers acceptEncodingHeader headerValue
      | none => headers
    .ok ⟨⟨uri, headers, request.extensions⟩, request.message⟩

def Grpc.createResponse (self : Grpc σ δ) (response : HttpResponse (Body Status)) :
    Except Status (Response (Streaming δ)) :=
  match CompressionEncoding.fromEncodingHeader response.headers
      self.acceptCompressionEncodings with
  | .error status => .error status
  | .ok encoding =>
    match Status.fromHeaderMap response.headers with
    | some status =>
      if status.code ≠ .ok then .error status
      else .ok ⟨⟨response.headers⟩, .newEmpty self.decoder response.body⟩
    | none =>
      .ok ⟨⟨response.headers⟩, .newResponse self.decoder response.body response.status encoding
        self.maxDecodingMessageSize⟩

def Grpc.encodeRequest (self : Grpc σ δ) (request : Request X (List (Option T))) :
    Request X (EncodeBody σ T) :=
  request.map fun schedule => .newClient self.encoder (paced schedule)
    self.sendCompressionEncoding self.maxEncodingMessageSize

def Grpc.streaming (self : Grpc σ δ) (transport : Transport X σ T)
    (request : Request X (List (Option T))) (path : String) :
    Except Status (Response (Streaming δ)) :=
  match self.prepareRequest (self.encodeRequest request) path with
  | .error status => .error status
  | .ok request =>
    match transport request with
    | .error status => .error status
    | .ok response => self.createResponse response

def Grpc.serverStreaming (self : Grpc σ δ) (transport : Transport X σ T) (request : Request X T)
    (path : String) : Except Status (Response (Streaming δ)) :=
  self.streaming transport (request.map fun message => [some message]) path

section Single
variable (dec : Decoder δ U) (z : Compressors)

def Grpc.clientStreaming (self : Grpc σ δ) (transport : Transport X σ T)
    (request : Request X (List (Option T))) (path : String) : Except Status (Response U) :=
  match self.streaming transport request path with
  | .error status => .error status
  | .ok ⟨parts, body⟩ =>
    match Streaming.message dec z body with
    | (.error status, _) => .error { status with metadata := status.metadata.merge parts }
    | (.ok none, _) => .error (.internal "Missing response message.")
    | (.ok (some message), body) =>
      match Streaming.trailers dec z body with
      | (.error status, _) => .error status
      | (.ok none, _) => .ok ⟨parts, message⟩
      | (.ok (some trailers), _) => .ok ⟨parts.merge trailers, message⟩

def Grpc.unary (self : Grpc σ δ) (transport : Transport X σ T) (request : Request X T)
    (path : String) : Except Status (Response U) :=
  self.clientStreaming dec z transport (request.map fun message => [some message]) path

end Single

theorem prepared_accept_encoding {self : Grpc σ δ} {request : Request X β} {path : String}
    {sent : HttpRequest X β} (prepared : self.prepareRequest request path = .ok sent) :
    getKey sent.parts.headers acceptEncodingHeader =
      self.acceptCompressionEncodings.intoAcceptEncodingHeaderValue := by
  have reserved : getAll request.metadata.intoSanitizedHeaders acceptEncodingHeader = [] := by
    rw [sanitized_values, if_pos (by decide)]
  have names : te ≠ acceptEncodingHeader ∧ contentType ≠ acceptEncodingHeader ∧
      encodingHeader ≠ acceptEncodingHeader := by decide
  unfold Grpc.prepareRequest at prepared
  split at prepared
  · cases prepared
  · cases prepared
    cases self.acceptCompressionEncodings.intoAcceptEncodingHeaderValue with
    | some value => simp only [get_insert, if_true]
    | none => cases self.sendCompressionEncoding <;> simp [getKey, reserved, names]

end GrpcClient
