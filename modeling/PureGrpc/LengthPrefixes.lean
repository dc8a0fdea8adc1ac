import PureGrpc.MessageEncoding
import PureGrpc.WebBodies

/-!
The three writers of a five-byte header, compared over all sizes. All of them
narrow the length to 32 bits; only one of them looks at it before.
-/
namespace LengthPrefixes
open LengthFraming GrpcMetadata GrpcStatus GrpcCompression GrpcCodec MessageEncoding WebBodies

def encodeGrpcFrame (payload : Bytes) : Bytes := 0 :: (beBytes payload.length ++ payload)

/-- All but the header, or the whole of what is shorter than one. -/
def decodeGrpcFrame (frame : Bytes) : Bytes :=
  if headerSize ≤ frame.length then frame.drop headerSize else frame

theorem decode_encode_grpc_frame (payload : Bytes) :
    decodeGrpcFrame (encodeGrpcFrame payload) = payload := by
  have long : headerSize ≤ (encodeGrpcFrame payload).length := by
    simp only [encodeGrpcFrame, List.length_cons, List.length_append, be_bytes_length, headerSize]
    omega
  rw [decodeGrpcFrame, if_pos long]
  rfl

/-- The four length bytes name the number of bytes after them. -/
def TellsLength (frame : Bytes) : Prop :=
  ∃ flag rest, readHeader frame = some (flag, rest.length, rest)

theorem tells_length_iff (flag : UInt8) (rest : Bytes) :
    TellsLength (flag :: (beBytes rest.length ++ rest)) ↔ rest.length < 2 ^ 32 := by
  constructor
  · intro tells
    obtain ⟨flag', rest', header⟩ := tells
    rw [read_header_low] at header
    simp only [Option.some.injEq, Prod.mk.injEq] at header
    obtain ⟨_, low, same⟩ := header
    have below : rest.length % 2 ^ 32 < 2 ^ 32 := Nat.mod_lt _ (by decide)
    rw [low, ← same] at below
    exact below
  · intro fits
    exact ⟨flag, rest, read_header_write flag rest.length fits rest⟩

/-- What a gRPC-Web client takes out of the last body frame. -/
def readable (encoding : Encoding) (bytes : Bytes) : Option Bytes :=
  match encoding with
  | .base64 => Base64Groups.decode .canonical bytes
  | .binary => some bytes

def trailerText (trailers : HeaderMap) : Bytes := trailers.flatMap trailerLine

theorem encode_trailers_readable (trailers : HeaderMap) (encoding : Encoding) :
    readable encoding (encodeTrailers trailers encoding) =
      some (0x80 :: (beBytes (trailerText trailers).length ++ trailerText trailers)) := by
  cases encoding with
  | binary => rfl
  | base64 => exact Base64Groups.decode_encode_padded _

theorem finish_encoding_tells {compressionEncoding : Option CompressionEncoding}
    {maxMessageSize : Option Nat} {payload frame : Bytes}
    (done : finishEncoding compressionEncoding maxMessageSize
      (List.replicate headerSize 0 ++ payload) = .ok frame) : TellsLength frame := by
  obtain ⟨fits, rfl⟩ := finish_encoding_bytes _ _ done
  exact (tells_length_iff _ payload).mpr fits

theorem finish_encoding_refuses (compressionEncoding : Option CompressionEncoding)
    (maxMessageSize : Option Nat) {payload : Bytes} (large : 2 ^ 32 ≤ payload.length) :
    ∃ status, finishEncoding compressionEncoding maxMessageSize
      (List.replicate headerSize 0 ++ payload) = .error status := by
  cases done : finishEncoding compressionEncoding maxMessageSize
      (List.replicate headerSize 0 ++ payload) with
  | error status => exact ⟨status, rfl⟩
  | ok frame =>
    have fits := (finish_encoding_bytes _ _ done).1
    omega

section Items
variable {σ T : Type} (enc : Encoder σ T) (z : Compressors) (maxMessageSize : Option Nat)

/-- What an item that is accepted without compression adds is the other writer's frame. -/
theorem encode_item_frame {encoder next : σ} {buf after : Bytes} {item : T}
    (accepted : encodeItem enc z none maxMessageSize encoder buf item = (.ok (), after, next)) :
    (enc.encode encoder item).written.length < 2 ^ 32 ∧
      after = buf ++ encodeGrpcFrame (enc.encode encoder item).written := by
  rw [encode_item_spec] at accepted
  cases framed : frameOf enc z none maxMessageSize encoder item with
  | error status =>
    rw [framed] at accepted
    cases accepted
  | ok frame =>
    rw [framed] at accepted
    cases accepted
    unfold frameOf at framed
    split at framed
    · cases framed
    · obtain ⟨fits, rfl⟩ := seal_payload_fits none maxMessageSize framed
      exact ⟨fits, rfl⟩

end Items

structure PrefixesTrue (payload : Bytes) (trailers : HeaderMap) (encoding : Encoding) : Prop where
  finished : ∀ compressionEncoding maxMessageSize frame,
    finishEncoding compressionEncoding maxMessageSize (List.replicate headerSize 0 ++ payload) =
      .ok frame → TellsLength frame
  framed : TellsLength (encodeGrpcFrame payload)
  trailed : ∃ frame, readable encoding (encodeTrailers trailers encoding) = some frame ∧
    TellsLength frame
  same : ∀ (σ T : Type) (enc : Encoder σ T) (z : Compressors) (maxMessageSize : Option Nat)
    (encoder next : σ) (buf after : Bytes) (item : T),
    (enc.encode encoder item).written = payload →
    encodeItem enc z none maxMessageSize encoder buf item = (.ok (), after, next) →
    after = buf ++ encodeGrpcFrame payload
  refused : 2 ^ 32 ≤ payload.length → ∀ frame, encodeGrpcFrame payload ≠ frame ∧
    ∀ compressionEncoding maxMessageSize,
      finishEncoding compressionEncoding maxMessageSize
        (List.replicate headerSize 0 ++ payload) ≠ .ok frame

theorem prefixes_true_iff (payload : Bytes) (trailers : HeaderMap) (encoding : Encoding) :
    PrefixesTrue payload trailers encoding ↔
      payload.length < 2 ^ 32 ∧ (trailerText trailers).length < 2 ^ 32 := by
  constructor
  · intro prefixes
    obtain ⟨frame, read, tells⟩ := prefixes.trailed
    rw [encode_trailers_readable] at read
    cases read
    exact ⟨(tells_length_iff 0 payload).mp prefixes.framed, (tells_length_iff _ _).mp tells⟩
  · intro fits
    obtain ⟨small, short⟩ := fits
    constructor
    case finished =>
      intro compressionEncoding maxMessageSize frame done
      exact finish_encoding_tells done
    case framed => exact (tells_length_iff 0 payload).mpr small
    case trailed =>
      exact ⟨_, encode_trailers_readable trailers encoding, (tells_length_iff _ _).mpr short⟩
    case same =>
      intro σ T enc z maxMessageSize encoder next buf after item written accepted
      rw [(encode_item_frame enc z maxMessageSize accepted).2, written]
    case refused =>
      intro large
      omega

/-- Four gigabytes of zeros announce themselves as nothing. -/
theorem four_gigabytes_wrap :
    ¬ PrefixesTrue (List.replicate (2 ^ 32) 0) [] .binary ∧
      readHeader (encodeGrpcFrame (List.replicate (2 ^ 32) 0)) =
        some (0, 0, List.replicate (2 ^ 32) 0) := by
  have size : (List.replicate (2 ^ 32) (0 : UInt8)).length = 2 ^ 32 := List.length_replicate
  constructor
  · intro prefixes
    have fits := (tells_length_iff 0 _).mp prefixes.framed
    rw [size] at fits
    exact absurd fits (Nat.lt_irrefl _)
  · rw [encodeGrpcFrame, read_header_low, size, Nat.mod_self]

end LengthPrefixes
