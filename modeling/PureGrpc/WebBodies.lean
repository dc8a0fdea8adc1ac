import PureGrpc.Base64Groups
import PureGrpc.HttpBodies

/-!
The gRPC-Web layer: a body wrapper that decodes the text form of requests and
puts the trailers of responses into the body, and the service that wraps both
bodies of a call around an inner service.
-/
namespace WebBodies
open KeyedMultimap LengthFraming GrpcMetadata PolledMachines HttpBodies

def grpcWeb : String := "application/grpc-web"
def grpcWebProto : String := "application/grpc-web+proto"
def grpcWebText : String := "application/grpc-web-text"
def grpcWebTextProto : String := "application/grpc-web-text+proto"
def grpc : String := "application/grpc"

def isGrpcWeb (contentType : String) : Bool :=
  contentType = grpcWeb || contentType = grpcWebProto || contentType = grpcWebText ||
    contentType = grpcWebTextProto

inductive Encoding where
  | binary | base64
  deriving DecidableEq, Repr

/-- Text anywhere in the content type selects the text form. -/
def Encoding.fromContentType (ct : String) : Encoding :=
  if ct.toList.tails.any fun rest => "text".toList.isPrefixOf rest then .base64 else .binary

inductive Direction where
  | decode | encode
  deriving DecidableEq, Repr

structure GrpcWebCall (β : Type) where
  inner : β
  encoding : Encoding
  direction : Direction
  buf : Bytes
  trailers : Option HeaderMap
  trailersSent : Bool

variable {X β ρ ε : Type}

def GrpcWebCall.request (inner : β) (encoding : Encoding) : GrpcWebCall β :=
  ⟨inner, encoding, .decode, [], none, false⟩

def GrpcWebCall.response (inner : β) (encoding : Encoding) : GrpcWebCall β :=
  ⟨inner, encoding, .encode, [], none, false⟩

def alignedLen (buf : Bytes) : Nat := buf.length / 4 * 4

/-- What a data frame of a text request becomes, and the bytes then buffered. -/
def decodeText (buf data : Bytes) : FramePoll ε × Bytes :=
  match Base64Groups.decode .canonical data with
  | some decoded => (.ready (some (.ok (.data decoded))), buf)
  | none =>
    let buf := buf ++ data
    if 0 < alignedLen buf then
      let chunk := buf.take (alignedLen buf)
      match Base64Groups.decode .canonical chunk with
      | some decoded => (.ready (some (.ok (.data decoded))), buf.drop (alignedLen buf))
      | none => (.ready (some (.ok (.data chunk))), buf.drop (alignedLen buf))
    else (.pending, buf)

def trailerLine (entry : HeaderName × HeaderValue) : Bytes :=
  asBytes entry.1 ++ asBytes ":" ++ entry.2.bytes ++ [13, 10]

def encodeTrailers (trailers : HeaderMap) (encoding : Encoding) : Bytes :=
  let trailerBuf := trailers.flatMap trailerLine
  let frame := 0x80 :: (beBytes trailerBuf.length ++ trailerBuf)
  match encoding with
  | .base64 => Base64Groups.encode true frame
  | .binary => frame

section Polling
variable (poll : β → FramePoll ε × β)

def GrpcWebCall.pollDecode (self : GrpcWebCall β) : FramePoll ε × GrpcWebCall β :=
  match poll self.inner with
  | (.ready (some (.ok (.data data))), inner) =>
    match self.encoding with
    | .base64 =>
      match decodeText self.buf data with
      | (answer, buf) => (answer, { self with inner, buf })
    | .binary => (.ready (some (.ok (.data data))), { self with inner })
  | (answer, inner) => (answer, { self with inner })

def GrpcWebCall.pollEncode (self : GrpcWebCall β) : FramePoll ε × GrpcWebCall β :=
  match self.trailers with
  | some trailerMap =>
    (.ready (some (.ok (.data (encodeTrailers trailerMap self.encoding)))),
      { self with trailers := none, trailersSent := true })
  | none =>
    if self.trailersSent then (.ready none, self)
    else match poll self.inner with
      | (.ready (some (.ok (.data data))), inner) =>
        let output := match self.encoding with
          | .base64 => Base64Groups.encode true data
          | .binary => data
        (.ready (some (.ok (.data output))), { self with inner })
      | (.ready (some (.ok (.trailers trailerMap))), inner) =>
        (.pending, { self with inner, trailers := some trailerMap })
      | (.ready (some (.error e)), inner) => (.ready (some (.error e)), { self with inner })
      | (.ready none, inner) =>
        let encoded := encodeTrailers [] self.encoding
        let self := { self with inner, trailersSent := true }
        if encoded ≠ [] then (.ready (some (.ok (.data encoded))), self) else (.ready none, self)
      | (.pending, inner) => (.pending, { self with inner })

def GrpcWebCall.pollFrame (self : GrpcWebCall β) : FramePoll ε × GrpcWebCall β :=
  match self.direction with
  | .decode => self.pollDecode poll
  | .encode => self.pollEncode poll

end Polling

def contentTypeHeader : HeaderName := "content-type"
def contentLengthHeader : HeaderName := "content-length"

def grpcValue : HeaderValue := fromStatic grpc (by decide)
def grpcWebValue : HeaderValue := fromStatic grpcWeb (by decide)
def grpcWebTextValue : HeaderValue := fromStatic grpcWebText (by decide)

def requestContentType (headers : HeaderMap) : String :=
  ((getKey headers contentTypeHeader).bind HeaderValue.toStr).getD ""

/-- The inner service is called once; its error is passed on as it is. -/
def GrpcWebService.call {E : Type}
    (inner : HttpRequest X (GrpcWebCall β) → Except E (HttpResponse ρ)) (req : HttpRequest X β) :
    Except E (HttpResponse (GrpcWebCall ρ)) :=
  let contentType := requestContentType req.parts.headers
  if isGrpcWeb contentType then
    let encoding := Encoding.fromContentType contentType
    let headers := insertKey req.parts.headers contentTypeHeader grpcValue
    let headers := removeKey headers contentLengthHeader
    let headers := insertKey headers te trailersValue
    match inner ⟨{ req.parts with headers }, .request req.body encoding⟩ with
    | .error e => .error e
    | .ok resp =>
      let responseCt := match encoding with
        | .base64 => grpcWebTextValue
        | .binary => grpcWebValue
      let headers := insertKey resp.headers contentTypeHeader responseCt
      .ok ⟨resp.status, removeKey headers contentLengthHeader, .response resp.body encoding⟩
  else
    match inner ⟨req.parts, .request req.body .binary⟩ with
    | .error e => .error e
    | .ok resp => .ok ⟨resp.status, resp.headers, .response resp.body .binary⟩

end WebBodies
