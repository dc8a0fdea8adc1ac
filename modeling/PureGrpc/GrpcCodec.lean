import PureGrpc.GrpcCompression

/-!
The codec interface: encoders write into a buffer, decoders read from a view of
one. Both may keep state between calls. A decoder sees at most the bytes of its
view and can take no more, which the structure carries; how many it takes is up
to it. An encoder's error is its display text, the only thing read of it.
-/
namespace GrpcCodec
open LengthFraming GrpcStatus

def headerSize : Nat := 5
def defaultCodecBufferSize : Nat := 8 * 1024
def defaultYieldThreshold : Nat := 32 * 1024
def defaultMaxRecvMessageSize : Nat := 4 * 1024 * 1024
/-- The largest usize of a 64-bit target. -/
def defaultMaxSendMessageSize : Nat := 2 ^ 64 - 1

structure BufferSettings where
  bufferSize : Nat
  yieldThreshold : Nat
  deriving DecidableEq, Repr

def BufferSettings.default : BufferSettings := ⟨defaultCodecBufferSize, defaultYieldThreshold⟩

structure Encoded (σ : Type) where
  result : Except String Unit
  written : Bytes
  next : σ

structure Encoder (σ T : Type) where
  encode : σ → T → Encoded σ
  bufferSettings : σ → BufferSettings

structure Decoded (δ T : Type) where
  result : Except Status (Option T)
  consumed : Nat
  next : δ

structure Decoder (δ T : Type) where
  decode : δ → Bytes → Decoded δ T
  bounded : ∀ d view, (decode d view).consumed ≤ view.length

def decodeBuf (buf : Bytes) (len : Nat) : Bytes := buf.take len

/-- Each payload is rejected, or consumed whole and made into a message. -/
def Decoder.Whole {δ T : Type} (dec : Decoder δ T) : Prop :=
  ∀ d view, (∃ e, (dec.decode d view).result = .error e) ∨
    (dec.decode d view).consumed = view.length ∧ ∃ m, (dec.decode d view).result = .ok (some m)

/-- The decoder inverts the encoder, from every pair of states it relates. -/
def InStep {σ δ T : Type} (enc : Encoder σ T) (dec : Decoder δ T) (related : σ → δ → Prop) :
    Prop :=
  ∀ e d m, related e d → (enc.encode e m).result = .ok () →
    (dec.decode d (enc.encode e m).written).result = .ok (some m) ∧
    (dec.decode d (enc.encode e m).written).consumed = (enc.encode e m).written.length ∧
    related (enc.encode e m).next (dec.decode d (enc.encode e m).written).next

section Plain
variable {T : Type}

/-- The codec of a message type with its own bytes, as the in-tree codecs are:
    no state, no encoding error, and a decoder that takes every payload whole. -/
def plainEncoder (toBytes : T → Bytes) (settings : BufferSettings) : Encoder Unit T where
  encode _ m := ⟨.ok (), toBytes m, ()⟩
  bufferSettings _ := settings

def plainDecoder (ofBytes : Bytes → Except Status T) : Decoder Unit T where
  decode _ view := ⟨(ofBytes view).map some, view.length, ()⟩
  bounded _ _ := Nat.le_refl _

theorem plain_decoder_whole (ofBytes : Bytes → Except Status T) :
    (plainDecoder ofBytes).Whole := by
  intro d view
  cases read : ofBytes view with
  | error e => exact .inl ⟨e, by simp [plainDecoder, read, Except.map]⟩
  | ok m => exact .inr ⟨rfl, m, by simp [plainDecoder, read, Except.map]⟩

theorem plain_codec_in_step (toBytes : T → Bytes) (ofBytes : Bytes → Except Status T)
    (settings : BufferSettings) (inverse : ∀ m, ofBytes (toBytes m) = .ok m) :
    InStep (plainEncoder toBytes settings) (plainDecoder ofBytes) fun _ _ => True := by
  intro e d m _ _
  simp [plainEncoder, plainDecoder, inverse, Except.map]

end Plain

/-- Raw bytes as messages; an empty payload is none. -/
def testDecoder : Decoder Unit Bytes where
  decode _ view :=
    if view = [] then ⟨.ok none, 0, ()⟩ else ⟨.ok (some view), view.length, ()⟩
  bounded d view := by
    split
    · exact Nat.zero_le _
    · exact Nat.le_refl _

end GrpcCodec
