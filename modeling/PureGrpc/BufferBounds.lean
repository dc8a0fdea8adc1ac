import PureGrpc.ReceiveLimit
import PureGrpc.EncodeOrder

/-!
How much the two ends of a stream hold. A receiver asks its body for more only while less
than a header or less than an admitted frame is buffered; a sender flushes once the yield
threshold is reached. So neither holds more than what a limit, a threshold and one frame add
up to, however long the stream is and whatever the peer announces.
-/
namespace BufferBounds
open LengthFraming GrpcStatus GrpcCompression GrpcCodec PolledMachines HttpBodies
open MessageEncoding StreamingDecode StreamingScan DecoderCalls ReceiveLimit

section Receiving
variable {δ T : Type} (dec : Decoder δ T) (z : Compressors)

/-- A decoder that makes a message or an error of every payload, and never waits for more. -/
def Decides (dec : Decoder δ T) : Prop := ∀ decoder view, (dec.decode decoder view).result ≠ .ok none

/-- The most that is buffered when the body is asked for more: part of a header, or of a frame. -/
def waiting (limit : Nat) : Nat := max (headerSize - 1) (limit - 1)

/-- A receiver under this limit whose body is cut into chunks of at most this size. -/
structure Held (limit chunk : Nat) (inner : StreamingInner) : Prop where
  bound : receiveLimit inner.maxMessageSize = limit
  due : ∀ compression len, inner.state = .readBody compression len → len ≤ limit
  chunks : ∀ c ∈ inner.body.chunks, c.bytes.length ≤ chunk
  buf : inner.buf.length ≤ waiting limit + chunk

variable {dec z} {limit chunk : Nat}

/-- What an attempt leaves: no more than there was, and less than is due if it waits. -/
structure Left (limit : Nat) (before after : StreamingInner) (waits : Prop) : Prop where
  due : ∀ compression len, after.state = .readBody compression len → len ≤ limit
  buf : after.buf.length ≤ before.buf.length
  short : waits → after.buf.length ≤ waiting limit

theorem body_left (self : StreamingInner) (compression : Option CompressionEncoding) {len : Nat}
    (admitted : len ≤ limit)
    (due : ∀ compression len, self.state = .readBody compression len → len ≤ limit) :
    Left limit self (self.decodeBody z compression len).2
      ((self.decodeBody z compression len).1 = .ok none) := by
  unfold StreamingInner.decodeBody
  split
  · rename_i short
    refine ⟨due, Nat.le_refl _, fun _ => ?_⟩
    show self.buf.length ≤ max (headerSize - 1) (limit - 1)
    omega
  · split
    · exact ⟨due, Nat.le_refl _, fun wrong => by cases wrong⟩
    · split
      · exact ⟨due, Nat.le_refl _, fun wrong => by cases wrong⟩
      · refine ⟨due, ?_, fun wrong => by cases wrong⟩
        simp

theorem inner_left {self : StreamingInner} (held : Held limit chunk self)
    (running : self.state.isError = false) :
    Left limit self (self.decodeChunk z).2 ((self.decodeChunk z).1 = .ok none) := by
  have exit := attempted z self
  generalize self.decodeChunk z = outcome at exit ⊢
  cases exit with
  | @closed status state =>
    rw [state] at running
    cases running
  | resumed state => exact body_left _ _ (held.due _ _ state) held.due
  | short state header =>
    have few := (read_header_none_iff self.buf).mp header
    refine ⟨held.due, Nat.le_refl _, fun _ => ?_⟩
    show self.buf.length ≤ max (5 - 1) (limit - 1)
    omega
  | badFlag state header flagged =>
    refine ⟨held.due, ?_, fun wrong => by cases wrong⟩
    simp
  | tooLong state header flagged within =>
    obtain ⟨_, bytes⟩ := read_header_some header
    refine ⟨held.due, ?_, fun wrong => by cases wrong⟩
    simp [bytes]
    omega
  | @entered flag len rest compression state header flagged within =>
    obtain ⟨_, bytes⟩ := read_header_some header
    have admitted : len ≤ limit := by
      have fits := (length_within_iff _ _).mp within
      rw [← held.bound]
      exact fits
    have due : ∀ compression' len', State.readBody compression len = .readBody compression' len' →
        len' ≤ limit := by
      intro _ _ same
      cases same
      exact admitted
    have left := body_left (z := z) { self with buf := rest, state := .readBody compression len }
      compression admitted due
    refine ⟨left.due, Nat.le_trans left.buf ?_, left.short⟩
    simp [bytes]
    omega

theorem remaining_shrinks (buf : Bytes) (consumed : Nat) (lease : Lease) :
    (lease.remaining buf consumed).length ≤ buf.length := by
  cases lease with
  | shared len => simp [Lease.remaining]
  | decompressed bytes => exact Nat.le_refl _

theorem attempt_left {self : Streaming δ} (decides : Decides dec)
    (held : Held limit chunk self.inner) (running : self.inner.state.isError = false) :
    Left limit self.inner (self.decodeChunk dec z).2.inner
      ((self.decodeChunk dec z).1 = .ok none) := by
  have left := inner_left (z := z) held running
  have exit := decoded dec z self
  generalize self.decodeChunk dec z = outcome at exit ⊢
  cases exit with
  | refused attempt =>
    rw [attempt] at left
    exact ⟨left.due, left.buf, fun wrong => by cases wrong⟩
  | short attempt =>
    rw [attempt] at left
    exact ⟨left.due, left.buf, fun _ => left.short rfl⟩
  | failed attempt shown result =>
    rw [attempt] at left
    refine ⟨left.due, Nat.le_trans (remaining_shrinks _ _ _) left.buf, fun wrong => by cases wrong⟩
  | withheld attempt shown result =>
    rw [← shown] at result
    exact absurd result (decides _ _)
  | made attempt shown result =>
    rw [attempt] at left
    exact ⟨fun _ _ wrong => (by cases wrong),
      Nat.le_trans (remaining_shrinks _ _ _) left.buf, fun wrong => by cases wrong⟩

theorem frame_held {inner : StreamingInner} (held : Held limit chunk inner)
    (short : inner.buf.length ≤ waiting limit) : Held limit chunk inner.pollFrame.2 := by
  obtain ⟨bound, due, chunks, buf⟩ := held
  obtain ⟨⟨cut, tail⟩, state, direction, bytes, trailers, encoding, size⟩ := inner
  cases cut with
  | cons first rest =>
    have later : ∀ c ∈ rest, c.bytes.length ≤ chunk :=
      fun c mem => chunks c (List.mem_cons_of_mem _ mem)
    cases first with
    | pending => exact ⟨bound, due, later, buf⟩
    | data data =>
      refine ⟨bound, due, later, ?_⟩
      have size : data.length ≤ chunk := chunks (.data data) List.mem_cons_self
      show (bytes ++ data).length ≤ waiting limit + chunk
      rw [List.length_append]
      exact Nat.add_le_add short size
  | nil =>
    cases tail with
    | trailers map => exact ⟨bound, due, chunks, buf⟩
    | eof =>
      simp only [StreamingInner.pollFrame, Body.pollFrame]
      split <;> exact ⟨bound, due, chunks, buf⟩
    | error status =>
      simp only [StreamingInner.pollFrame, Body.pollFrame]
      split
      · exact ⟨bound, due, chunks, buf⟩
      · exact ⟨bound, fun _ _ wrong => (by cases wrong), chunks, buf⟩

theorem response_held {inner : StreamingInner} (held : Held limit chunk inner) :
    Held limit chunk inner.response.2 := by
  unfold StreamingInner.response
  repeat' split
  all_goals exact ⟨held.bound, held.due, held.chunks, held.buf⟩

theorem error_held {inner : StreamingInner} (held : Held limit chunk inner)
    (status : Option Status) : Held limit chunk { inner with state := .error status } :=
  ⟨held.bound, fun _ _ wrong => (by cases wrong), held.chunks, held.buf⟩

theorem turn_held {self : Streaming δ} (decides : Decides dec)
    (held : Held limit chunk self.inner) :
    Held limit chunk (self.turn dec z).state.inner := by
  have left (running : self.inner.state.isError = false) := attempt_left (z := z) decides held running
  have same := decode_chunk_same dec z self
  have after (running : self.inner.state.isError = false) :
      Held limit chunk (self.decodeChunk dec z).2.inner :=
    ⟨by rw [same.maxMessageSize, held.bound], (left running).due,
      by rw [same.body]; exact held.chunks, Nat.le_trans (left running).buf held.buf⟩
  -- a decoding attempt that waits leaves room for one more chunk
  have fed {t : Streaming δ} (running : self.inner.state.isError = false)
      (attempt : self.decodeChunk dec z = (.ok none, t)) : Held limit chunk t.inner.pollFrame.2 := by
    have kept := after running
    have short := (left running).short
    rw [attempt] at kept short
    exact frame_held kept (short rfl)
  have exit := turned dec z self
  generalize self.turn dec z = outcome at exit ⊢
  cases exit with
  | errored state => exact error_held held none
  | rejected running attempt =>
    have kept := after running
    rwa [attempt] at kept
  | decoded running attempt =>
    have kept := after running
    rwa [attempt] at kept
  | waits running attempt frame =>
    have next := fed running attempt
    rwa [frame] at next
  | fails running attempt frame =>
    have next := fed running attempt
    rwa [frame] at next
  | feeds running attempt frame =>
    have next := fed running attempt
    rwa [frame] at next
  | ends running attempt frame answer =>
    have next := fed running attempt
    rw [frame] at next
    have answered := response_held next
    rwa [answer] at answered
  | refused running attempt frame answer =>
    have next := fed running attempt
    rw [frame] at next
    have answered := response_held next
    rw [answer] at answered
    exact error_held answered _

/-- Before every poll of a stream and every turn of it the buffer holds less than a header or
    an admitted frame and one chunk of the body. -/
theorem receive_buffer_bounded (decides : Decides dec) (decoder : δ) (body : Body Status)
    (direction : Direction) (encoding : Option CompressionEncoding) (maxMessageSize : Option Nat)
    (chunks : ∀ c ∈ body.chunks, c.bytes.length ≤ chunk) :
    ∀ s, Reached z dec (.new decoder body direction encoding maxMessageSize) s →
      s.inner.buf.length ≤ waiting (receiveLimit maxMessageSize) + chunk := by
  have first : Held (receiveLimit maxMessageSize) chunk
      (Streaming.new decoder body direction encoding maxMessageSize).inner :=
    ⟨rfl, fun _ _ wrong => (by cases wrong), chunks, Nat.zero_le _⟩
  obtain ⟨_, reached⟩ := reached_rule z dec (fun s => Held (receiveLimit maxMessageSize) chunk s.inner)
    first fun s _ held => turn_held decides held
  exact fun s visits => (reached s visits).buf

/-- A header that announces more than has come, in two chunks. -/
theorem two_chunks_bounded :
    let dec : Decoder Unit Bytes := plainDecoder .ok
    let z : Compressors := ⟨fun _ plain => .ok plain, fun _ packed => .ok packed⟩
    let body : Body Status := ⟨[.data [0, 0, 0, 0, 2, 7], .data [7, 0]], .eof⟩
    Decides dec ∧ (stateAt (Streaming.pollNext dec z) (.new () body .request none (some 2)) 1).inner.buf.length ≤
      waiting 2 + 6 := by
  intro dec z body
  have decides : Decides dec := by
    intro decoder view wrong
    cases wrong
  exact ⟨decides, receive_buffer_bounded decides () body .request none (some 2) (by decide) _
    ⟨1, .here _⟩⟩

end Receiving

section Sending
variable {σ T : Type} (enc : Encoder σ T) (z : Compressors)
  (compressionEncoding : Option CompressionEncoding) (maxMessageSize : Option Nat)

def sendLimit (maxMessageSize : Option Nat) : Nat :=
  min (maxMessageSize.getD defaultMaxSendMessageSize) (2 ^ 32 - 1)

theorem sealed_within {payload : Bytes} {frame : Framed}
    (framed : sealPayload compressionEncoding maxMessageSize payload = .ok frame) :
    frame.payload.length ≤ sendLimit maxMessageSize := by
  obtain ⟨fits, same⟩ := seal_payload_fits compressionEncoding maxMessageSize framed
  subst same
  have size : (List.replicate headerSize (0 : UInt8) ++ payload).length - headerSize =
      payload.length := by simp
  unfold sealPayload finishEncoding at framed
  rw [size] at framed
  dsimp only at framed
  split at framed
  · cases framed
  · rename_i sealing
    split at sealing
    · cases sealing
    · rename_i within
      simp only [sendLimit]
      omega

theorem frame_within {encoder : σ} {item : T} {frame : Framed}
    (framed : frameOf enc z compressionEncoding maxMessageSize encoder item = .ok frame) :
    frame.payload.length ≤ sendLimit maxMessageSize := by
  unfold frameOf at framed
  split at framed
  · cases framed
  · cases compressionEncoding with
    | none => exact sealed_within _ _ framed
    | some encoding =>
      dsimp only at framed
      split at framed
      · cases framed
      · exact sealed_within _ _ framed

def Flushed (threshold limit : Nat) : Poll (Option (Except Status Bytes)) → Prop
  | .ready (some (.ok chunk)) =>
    0 < chunk.length ∧ chunk.length ≤ threshold - 1 + headerSize + limit
  | _ => True

variable {threshold : Nat}

structure Buffered (threshold : Nat) (maxMessageSize : Option Nat) (s : EncodedBytes σ T) : Prop where
  limit : s.maxMessageSize = maxMessageSize
  buf : s.buf.length ≤ threshold - 1

theorem poll_source_buffered (yieldThreshold : Nat) (below : yieldThreshold ≤ threshold)
    (events : List (SourceEvent T)) (self : EncodedBytes σ T)
    (buffered : Buffered threshold maxMessageSize self) :
    Flushed threshold (sendLimit maxMessageSize) (self.pollSource enc z yieldThreshold events).1 ∧
      Buffered threshold maxMessageSize (self.pollSource enc z yieldThreshold events).2 := by
  obtain ⟨limit, buf⟩ := buffered
  induction events generalizing self with
  | nil =>
    rw [EncodedBytes.pollSource]
    split
    · exact ⟨trivial, limit, buf⟩
    · rename_i filled
      exact ⟨⟨List.length_pos_of_ne_nil filled, by show self.buf.length ≤ _; omega⟩, limit, Nat.zero_le _⟩
  | cons event rest ih =>
    cases event with
    | pending =>
      rw [EncodedBytes.pollSource]
      split
      · exact ⟨trivial, limit, buf⟩
      · rename_i filled
        exact ⟨⟨List.length_pos_of_ne_nil filled, by show self.buf.length ≤ _; omega⟩, limit,
          Nat.zero_le _⟩
    | item result =>
      cases result with
      | error status =>
        rw [EncodedBytes.pollSource]
        split
        · exact ⟨trivial, limit, buf⟩
        · rename_i filled
          exact ⟨⟨List.length_pos_of_ne_nil filled, by show self.buf.length ≤ _; omega⟩, limit,
            Nat.zero_le _⟩
      | ok item =>
        simp only [EncodedBytes.pollSource, encode_item_spec]
        cases framed : frameOf enc z self.compressionEncoding self.maxMessageSize self.encoder
            item with
        | error status => exact ⟨trivial, limit, buf⟩
        | ok frame =>
          have size := frame_within enc z _ _ framed
          rw [limit] at size
          have grown : (self.buf ++ frame.write).length =
              self.buf.length + (frame.payload.length + headerSize) := by
            rw [List.length_append, write_length]
            rfl
          dsimp only
          split
          · refine ⟨⟨?_, ?_⟩, limit, Nat.zero_le _⟩
            · show 0 < (self.buf ++ frame.write).length
              rw [grown, headerSize]
              omega
            · show (self.buf ++ frame.write).length ≤ _
              rw [grown]
              omega
          · rename_i more
            exact ih _ limit (by
              show (self.buf ++ frame.write).length ≤ _
              omega)

theorem poll_buffered (thresholds : ∀ encoder, (enc.bufferSettings encoder).yieldThreshold ≤ threshold)
    (self : EncodedBytes σ T) (buffered : Buffered threshold maxMessageSize self) :
    Flushed threshold (sendLimit maxMessageSize) (self.pollNext enc z).1 ∧
      Buffered threshold maxMessageSize (self.pollNext enc z).2 := by
  unfold EncodedBytes.pollNext
  split
  · exact ⟨trivial, buffered.limit, buffered.buf⟩
  · exact poll_source_buffered enc z maxMessageSize _ (thresholds _) _ self buffered

/-- Whatever the source yields, between polls less than the threshold is buffered, and no chunk
    is empty or more than that and one frame. -/
theorem send_buffer_bounded
    (thresholds : ∀ encoder, (enc.bufferSettings encoder).yieldThreshold ≤ threshold)
    (encoder : σ) (events : List (SourceEvent T)) (n : Nat) :
    (stateAt (EncodedBytes.pollNext enc z)
        (.new encoder events compressionEncoding maxMessageSize) n).buf.length ≤ threshold - 1 ∧
      ∀ chunk, answerAt (EncodedBytes.pollNext enc z)
          (.new encoder events compressionEncoding maxMessageSize) n = .ready (some (.ok chunk)) →
        0 < chunk.length ∧ chunk.length ≤ threshold - 1 + headerSize + sendLimit maxMessageSize := by
  have kept : ∀ n, Buffered threshold maxMessageSize (stateAt (EncodedBytes.pollNext enc z)
      (.new encoder events compressionEncoding maxMessageSize) n) := by
    intro n
    induction n with
    | zero => exact ⟨rfl, Nat.zero_le _⟩
    | succ n ih => exact (poll_buffered enc z maxMessageSize thresholds _ ih).2
  refine ⟨(kept n).buf, ?_⟩
  intro chunk answer
  have flushed := (poll_buffered enc z maxMessageSize thresholds _ (kept n)).1
  rw [answerAt] at answer
  rw [answer] at flushed
  exact flushed

/-- Two messages that fit under the threshold go out in one chunk. -/
theorem two_messages_bounded :
    let enc : Encoder Unit Bytes := plainEncoder (fun m => m) ⟨16, 12⟩
    let z : Compressors := ⟨fun _ plain => .ok plain, fun _ packed => .ok packed⟩
    let start : EncodedBytes Unit Bytes := .new () (paced [some [7], some [8]]) none (some 3)
    answerAt (EncodedBytes.pollNext enc z) start 0 =
        .ready (some (.ok [0, 0, 0, 0, 1, 7, 0, 0, 0, 0, 1, 8])) ∧
      [0, 0, 0, 0, 1, 7, 0, 0, 0, 0, 1, 8].length ≤ 12 - 1 + headerSize + sendLimit (some 3) := by
  intro enc z start
  have thresholds : ∀ encoder, (enc.bufferSettings encoder).yieldThreshold ≤ 12 :=
    fun _ => Nat.le_refl _
  have answer : answerAt (EncodedBytes.pollNext enc z) start 0 =
      .ready (some (.ok [0, 0, 0, 0, 1, 7, 0, 0, 0, 0, 1, 8])) := by decide
  have bounded := send_buffer_bounded enc z none (some 3) thresholds ()
    (paced [some [7], some [8]]) 0
  exact ⟨answer, (bounded.2 _ answer).2⟩

end Sending

end BufferBounds
