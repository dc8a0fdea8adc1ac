import PureGrpc.GrpcCodec
import PureGrpc.HttpBodies

/-!
The sending side: messages become frames in a buffer that is flushed when the
source has nothing ready or the yield threshold is reached, and an HTTP body
wraps the flushed bytes. What one message does to the buffer is `frameOf`: it
adds exactly that frame, or leaves the buffer alone and reports the error.
-/
namespace MessageEncoding
open LengthFraming GrpcMetadata GrpcStatus GrpcCompression GrpcCodec PolledMachines HttpBodies

inductive SourceEvent (T : Type) where
  | pending
  | item (result : Except Status T)

/-- A source that yields these messages, and Pending where there is none. -/
def paced {T : Type} (schedule : List (Option T)) : List (SourceEvent T) :=
  schedule.map fun turn =>
    match turn with
    | none => .pending
    | some msg => .item (.ok msg)

/-- The source is fused: once its events are used up it stays at its end. -/
structure EncodedBytes (σ T : Type) where
  source : List (SourceEvent T)
  encoder : σ
  compressionEncoding : Option CompressionEncoding
  maxMessageSize : Option Nat
  buf : Bytes
  error : Option Status

variable {σ T : Type}

def EncodedBytes.new (encoder : σ) (source : List (SourceEvent T))
    (compressionEncoding : Option CompressionEncoding) (maxMessageSize : Option Nat) :
    EncodedBytes σ T :=
  ⟨source, encoder, compressionEncoding, maxMessageSize, [], none⟩

def compressionFlag (compressionEncoding : Option CompressionEncoding) : UInt8 :=
  if compressionEncoding.isSome then 1 else 0

/-- The slice of one message with its header written over the five reserved bytes. -/
def finishEncoding (compressionEncoding : Option CompressionEncoding)
    (maxMessageSize : Option Nat) (buf : Bytes) : Except Status Bytes :=
  let len := buf.length - headerSize
  let limit := maxMessageSize.getD defaultMaxSendMessageSize
  if limit < len then
    .error (.outOfRange ("Error, encoded message length too large: found " ++ toString len ++
      " bytes, the limit is: " ++ toString limit ++ " bytes"))
  else if 2 ^ 32 - 1 < len then
    .error (.resourceExhausted ("Cannot return body with more than 4GB of data but got " ++
      toString len ++ " bytes"))
  else
    .ok (compressionFlag compressionEncoding :: (beBytes len ++ buf.drop headerSize))

section Items
variable (enc : Encoder σ T) (z : Compressors) (compressionEncoding : Option CompressionEncoding)
  (maxMessageSize : Option Nat)

/-- The header is written once the length is known; without it the item is dropped. -/
def backfill (offset : Nat) (buf : Bytes) : Except Status Unit × Bytes :=
  match finishEncoding compressionEncoding maxMessageSize (buf.drop offset) with
  | .error status => (.error status, buf.take offset)
  | .ok frame => (.ok (), buf.take offset ++ frame)

/-- The result, the buffer and the encoder after one item. What a failed encoder has
    written by then is cut off again. -/
def encodeItem (encoder : σ) (buf : Bytes) (item : T) : Except Status Unit × Bytes × σ :=
  let offset := buf.length
  let reserved := buf ++ List.replicate headerSize 0
  let call := enc.encode encoder item
  let encodeResult : Except Status Unit × Bytes :=
    match compressionEncoding with
    | some encoding =>
      match call.result with
      | .error err => (.error (.internal ("Error encoding: " ++ err)), reserved)
      | .ok () =>
        match z.compress encoding call.written with
        | .error err => (.error (.internal ("Error compressing: " ++ err)), reserved)
        | .ok packed => (.ok (), reserved ++ packed)
    | none =>
      match call.result with
      | .error err =>
        (.error (.internal ("Error encoding: " ++ err)), reserved ++ call.written)
      | .ok () => (.ok (), reserved ++ call.written)
  match encodeResult with
  | (.error status, partly) => (.error status, partly.take offset, call.next)
  | (.ok (), whole) =>
    let filled := backfill compressionEncoding maxMessageSize offset whole
    (filled.1, filled.2, call.next)

def sealPayload (payload : Bytes) : Except Status Framed :=
  match finishEncoding compressionEncoding maxMessageSize
      (List.replicate headerSize 0 ++ payload) with
  | .error status => .error status
  | .ok _ => .ok ⟨compressionFlag compressionEncoding, payload⟩

def frameOf (encoder : σ) (item : T) : Except Status Framed :=
  match (enc.encode encoder item).result with
  | .error err => .error (.internal ("Error encoding: " ++ err))
  | .ok () =>
    match compressionEncoding with
    | none => sealPayload compressionEncoding maxMessageSize (enc.encode encoder item).written
    | some encoding =>
      match z.compress encoding (enc.encode encoder item).written with
      | .error err => .error (.internal ("Error compressing: " ++ err))
      | .ok packed => sealPayload compressionEncoding maxMessageSize packed

theorem finish_encoding_bytes {payload frame : Bytes}
    (h : finishEncoding compressionEncoding maxMessageSize
      (List.replicate headerSize 0 ++ payload) = .ok frame) :
    payload.length < 2 ^ 32 ∧
      frame = (Framed.mk (compressionFlag compressionEncoding) payload).write := by
  have size : (List.replicate headerSize (0 : UInt8) ++ payload).length - headerSize =
      payload.length := by simp
  have body : (List.replicate headerSize (0 : UInt8) ++ payload).drop headerSize = payload := by
    simp [headerSize]
  simp only [finishEncoding, size, body] at h
  split at h
  · cases h
  · split at h
    · cases h
    · cases h
      exact ⟨by omega, rfl⟩

theorem seal_payload_fits {payload : Bytes} {frame : Framed}
    (h : sealPayload compressionEncoding maxMessageSize payload = .ok frame) :
    payload.length < 2 ^ 32 ∧ frame = ⟨compressionFlag compressionEncoding, payload⟩ := by
  unfold sealPayload at h
  split at h
  · cases h
  · rename_i done
    cases h
    exact ⟨(finish_encoding_bytes compressionEncoding maxMessageSize done).1, rfl⟩

theorem backfill_spec (buf payload : Bytes) :
    backfill compressionEncoding maxMessageSize buf.length
        (buf ++ List.replicate headerSize 0 ++ payload) =
      match sealPayload compressionEncoding maxMessageSize payload with
      | .error status => (.error status, buf)
      | .ok frame => (.ok (), buf ++ frame.write) := by
  have slice : (buf ++ List.replicate headerSize 0 ++ payload).drop buf.length =
      List.replicate headerSize 0 ++ payload := by simp
  have kept : (buf ++ List.replicate headerSize 0 ++ payload).take buf.length = buf := by simp
  simp only [backfill, sealPayload, slice, kept]
  cases done : finishEncoding compressionEncoding maxMessageSize
      (List.replicate headerSize 0 ++ payload) with
  | error status => rfl
  | ok frame =>
    obtain ⟨_, rfl⟩ := finish_encoding_bytes compressionEncoding maxMessageSize done
    rfl

theorem encode_item_spec (encoder : σ) (buf : Bytes) (item : T) :
    encodeItem enc z compressionEncoding maxMessageSize encoder buf item =
      match frameOf enc z compressionEncoding maxMessageSize encoder item with
      | .error status => (.error status, buf, (enc.encode encoder item).next)
      | .ok frame => (.ok (), buf ++ frame.write, (enc.encode encoder item).next) := by
  have kept (more : Bytes) : (buf ++ List.replicate headerSize (0 : UInt8) ++ more).take
      buf.length = buf := by simp
  have bare := kept []
  rw [List.append_nil] at bare
  simp only [encodeItem, frameOf]
  cases compressionEncoding with
  | none =>
    cases (enc.encode encoder item).result with
    | error err => simp only [kept]
    | ok _ =>
      simp only [backfill_spec]
      cases sealPayload none maxMessageSize (enc.encode encoder item).written <;> rfl
  | some encoding =>
    cases (enc.encode encoder item).result with
    | error err => simp only [bare]
    | ok _ =>
      cases packing : z.compress encoding (enc.encode encoder item).written with
      | error err => simp only [packing, bare]
      | ok packed =>
        simp only [packing, backfill_spec]
        cases sealPayload (some encoding) maxMessageSize packed <;> rfl

theorem frame_fits {encoder : σ} {item : T} {frame : Framed}
    (h : frameOf enc z compressionEncoding maxMessageSize encoder item = .ok frame) :
    frame.payload.length < 2 ^ 32 := by
  unfold frameOf at h
  repeat' split at h
  all_goals first
    | cases h
    | obtain ⟨fits, rfl⟩ := seal_payload_fits _ _ h
      exact fits

end Items

section Polling
variable (enc : Encoder σ T) (z : Compressors)

def EncodedBytes.flush (self : EncodedBytes σ T) :
    Poll (Option (Except Status Bytes)) × EncodedBytes σ T :=
  (.ready (some (.ok self.buf)), { self with buf := [] })

/-- The loop of one poll, over the events the source still has. -/
def EncodedBytes.pollSource (yieldThreshold : Nat) (self : EncodedBytes σ T) :
    List (SourceEvent T) → Poll (Option (Except Status Bytes)) × EncodedBytes σ T
  | [] =>
    if self.buf = [] then (.ready none, { self with source := [] })
    else { self with source := [] }.flush
  | .pending :: rest =>
    if self.buf = [] then (.pending, { self with source := rest })
    else { self with source := rest }.flush
  | .item (.ok item) :: rest =>
    match encodeItem enc z self.compressionEncoding self.maxMessageSize self.encoder self.buf
        item with
    | (.error status, buf, encoder) =>
      (.ready (some (.error status)), { self with source := rest, buf, encoder })
    | (.ok (), buf, encoder) =>
      if yieldThreshold ≤ buf.length then { self with source := rest, buf, encoder }.flush
      else pollSource yieldThreshold { self with buf, encoder } rest
  | .item (.error status) :: rest =>
    if self.buf = [] then (.ready (some (.error status)), { self with source := rest })
    else { self with source := rest, error := some status }.flush

def EncodedBytes.pollNext (self : EncodedBytes σ T) :
    Poll (Option (Except Status Bytes)) × EncodedBytes σ T :=
  match self.error with
  | some status => (.ready (some (.error status)), { self with error := none })
  | none => self.pollSource enc z (enc.bufferSettings self.encoder).yieldThreshold self.source

/-- How the loop of a poll is left, or goes on behind an item that is buffered. -/
inductive Polled (yieldThreshold : Nat) : EncodedBytes σ T → List (SourceEvent T) →
    Poll (Option (Except Status Bytes)) × EncodedBytes σ T → Prop where
  | ends {s} (empty : s.buf = []) :
      Polled yieldThreshold s [] (.ready none, { s with source := [] })
  | endsLater {s} (filled : s.buf ≠ []) :
      Polled yieldThreshold s [] { s with source := [] }.flush
  | waits {s rest} (empty : s.buf = []) :
      Polled yieldThreshold s (.pending :: rest) (.pending, { s with source := rest })
  | waitsLater {s rest} (filled : s.buf ≠ []) :
      Polled yieldThreshold s (.pending :: rest) { s with source := rest }.flush
  | fails {s status rest} (empty : s.buf = []) :
      Polled yieldThreshold s (.item (.error status) :: rest)
        (.ready (some (.error status)), { s with source := rest })
  | failsLater {s status rest} (filled : s.buf ≠ []) :
      Polled yieldThreshold s (.item (.error status) :: rest)
        { s with source := rest, error := some status }.flush
  | refused {s item status rest}
      (framed : frameOf enc z s.compressionEncoding s.maxMessageSize s.encoder item =
        .error status) :
      Polled yieldThreshold s (.item (.ok item) :: rest)
        (.ready (some (.error status)),
          { s with source := rest, encoder := (enc.encode s.encoder item).next })
  | full {s item frame rest}
      (framed : frameOf enc z s.compressionEncoding s.maxMessageSize s.encoder item = .ok frame)
      (enough : yieldThreshold ≤ (s.buf ++ frame.write).length) :
      Polled yieldThreshold s (.item (.ok item) :: rest)
        { s with
          source := rest
          buf := s.buf ++ frame.write
          encoder := (enc.encode s.encoder item).next }.flush
  | buffers {s item frame rest result}
      (framed : frameOf enc z s.compressionEncoding s.maxMessageSize s.encoder item = .ok frame)
      (later : Polled yieldThreshold
        { s with buf := s.buf ++ frame.write, encoder := (enc.encode s.encoder item).next }
        rest result) :
      Polled yieldThreshold s (.item (.ok item) :: rest) result

theorem polled (yieldThreshold : Nat) (events : List (SourceEvent T)) (self : EncodedBytes σ T) :
    Polled enc z yieldThreshold self events (self.pollSource enc z yieldThreshold events) := by
  induction events generalizing self with
  | nil =>
    rw [EncodedBytes.pollSource]
    split
    · exact .ends (by assumption)
    · exact .endsLater (by assumption)
  | cons event rest ih =>
    cases event with
    | pending =>
      rw [EncodedBytes.pollSource]
      split
      · exact .waits (by assumption)
      · exact .waitsLater (by assumption)
    | item result =>
      cases result with
      | error status =>
        rw [EncodedBytes.pollSource]
        split
        · exact .fails (by assumption)
        · exact .failsLater (by assumption)
      | ok item =>
        simp only [EncodedBytes.pollSource, encode_item_spec]
        cases framed :
            frameOf enc z self.compressionEncoding self.maxMessageSize self.encoder item with
        | error status => exact .refused framed
        | ok frame =>
          dsimp only
          split
          · rename_i enough
            exact .full framed enough
          · exact .buffers framed (ih _)

end Polling

inductive Role where
  | client | server
  deriving DecidableEq, Repr

structure EncodeState where
  error : Option Status
  role : Role
  isEndStream : Bool
  deriving DecidableEq, Repr

structure EncodeBody (σ T : Type) where
  inner : EncodedBytes σ T
  state : EncodeState

def EncodeBody.newClient (encoder : σ) (source : List (SourceEvent T))
    (compressionEncoding : Option CompressionEncoding) (maxMessageSize : Option Nat) :
    EncodeBody σ T :=
  ⟨.new encoder source compressionEncoding maxMessageSize, ⟨none, .client, false⟩⟩

def EncodeBody.newServer (encoder : σ) (source : List (SourceEvent T))
    (compressionEncoding : Option CompressionEncoding) (maxMessageSize : Option Nat) :
    EncodeBody σ T :=
  ⟨.new encoder source compressionEncoding maxMessageSize, ⟨none, .server, false⟩⟩

def EncodeState.trailers (self : EncodeState) :
    Option (Except Status HeaderMap) × EncodeState :=
  match self.role with
  | .client => (none, self)
  | .server =>
    if self.isEndStream then (none, self)
    else (some (self.error.getD (.ok "")).toHeaderMap,
      { self with isEndStream := true, error := none })

/-- Unwrapped trailers: a status that has no header form would leave the map empty. -/
def trailersOrDefault (status : Status) : HeaderMap :=
  match status.toHeaderMap with
  | .ok map => map
  | .error _ => []

def EncodeBody.pollFrame (enc : Encoder σ T) (z : Compressors) (self : EncodeBody σ T) :
    FramePoll Status × EncodeBody σ T :=
  match self.inner.pollNext enc z with
  | (.pending, inner) => (.pending, { self with inner })
  | (.ready (some (.ok data)), inner) => (.ready (some (.ok (.data data))), { self with inner })
  | (.ready (some (.error status)), inner) =>
    match self.state.role with
    | .client => (.ready (some (.error status)), { self with inner })
    | .server => (.ready (some (.ok (.trailers (trailersOrDefault status)))),
        { inner, state := { self.state with isEndStream := true } })
  | (.ready none, inner) =>
    let (trailers, state) := self.state.trailers
    (.ready (trailers.map (·.map .trailers)), ⟨inner, state⟩)

def EncodeBody.isEndStream (self : EncodeBody σ T) : Bool := self.state.isEndStream

theorem client_carries (enc : Encoder σ T) (z : Compressors) {inner last : EncodedBytes σ T}
    {chunks : List Bytes} {o : Option Status} {state : EncodeState} (client : state.role = .client)
    (run : Reads (EncodedBytes.pollNext enc z) inner chunks o last) :
    Carries (EncodeBody.pollFrame enc z) ⟨inner, state⟩ chunks.flatten
      (o.elim .eof .error) := by
  induction run with
  | @stop s t h =>
    exact .eof (t := ⟨t, state⟩) (by simp [EncodeBody.pollFrame, h, EncodeState.trailers, client])
  | @fail s t e h => exact .error (t := ⟨t, state⟩) (by simp [EncodeBody.pollFrame, h, client])
  | @wait s t _ _ _ h _ ih => exact .wait (t := ⟨t, state⟩) (by simp [EncodeBody.pollFrame, h]) ih
  | @item s t _ _ _ _ h _ ih =>
    exact .data (t := ⟨t, state⟩) (by simp [EncodeBody.pollFrame, h]) ih

/-- A server body carries what its frames hold, then trailers with the first error
    or with an Ok status. -/
theorem server_carries (enc : Encoder σ T) (z : Compressors) {inner last : EncodedBytes σ T}
    {chunks : List Bytes} {o : Option Status}
    (run : Reads (EncodedBytes.pollNext enc z) inner chunks o last) :
    ∃ trailers, (o.getD (.ok "")).toHeaderMap = .ok trailers ∧
      Carries (EncodeBody.pollFrame enc z) ⟨inner, ⟨none, .server, false⟩⟩ chunks.flatten
        (.trailers trailers) := by
  obtain ⟨trailers, written, -⟩ := to_header_map_written (o.getD (.ok ""))
  refine ⟨trailers, written, ?_⟩
  induction run with
  | @stop s t h =>
    refine .trailers (t := ⟨t, ⟨none, .server, true⟩⟩) ?_
    simp only [Option.getD_none] at written
    simp [EncodeBody.pollFrame, h, EncodeState.trailers, written, Except.map]
  | @fail s t e h =>
    refine .trailers (t := ⟨t, ⟨none, .server, true⟩⟩) ?_
    simp only [Option.getD_some] at written
    simp [EncodeBody.pollFrame, h, trailersOrDefault, written]
  | @wait s t _ _ _ h _ ih =>
    exact .wait (t := ⟨t, ⟨none, .server, false⟩⟩) (by simp [EncodeBody.pollFrame, h]) (ih written)
  | @item s t _ _ _ _ h _ ih =>
    exact .data (t := ⟨t, ⟨none, .server, false⟩⟩) (by simp [EncodeBody.pollFrame, h]) (ih written)

end MessageEncoding
