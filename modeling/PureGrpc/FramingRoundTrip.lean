import Mathlib.Data.List.ReduceOption
import PureGrpc.EncodeOrder
import PureGrpc.StreamingScan

/-!
What one side sends the other reads. A source of messages with Pending
anywhere becomes the frames of its messages, in whatever chunks; scanning
those frames gives the messages back, so a stream over any body with the
same bytes reads exactly them.
-/
namespace FramingRoundTrip
open LengthFraming GrpcMetadata GrpcStatus GrpcCompression GrpcCodec PolledMachines HttpBodies
open MessageEncoding EncodeOrder StreamingDecode StreamingScan

variable {σ δ T : Type} (enc : Encoder σ T) (dec : Decoder δ T) (z : Compressors)
  (compressionEncoding : Option CompressionEncoding) (sendLimit recvLimit : Option Nat)

/-- The bytes a message puts behind its header. -/
def payloadOf (encoder : σ) (msg : T) : Option Bytes :=
  match (enc.encode encoder msg).result with
  | .error _ => none
  | .ok () =>
    match compressionEncoding with
    | none => some (enc.encode encoder msg).written
    | some encoding => (z.compress encoding (enc.encode encoder msg).written).toOption

/-- Every message encodes, within both limits and the length field. -/
def Fits : σ → List T → Prop
  | _, [] => True
  | encoder, msg :: msgs =>
    (∃ payload, payloadOf enc z compressionEncoding encoder msg = some payload ∧
      payload.length ≤ sendLimit.getD defaultMaxSendMessageSize ∧
      payload.length ≤ recvLimit.getD defaultMaxRecvMessageSize ∧ payload.length < 2 ^ 32) ∧
    Fits (enc.encode encoder msg).next msgs

def framesOf : σ → List T → List Framed
  | _, [] => []
  | encoder, msg :: msgs =>
    ⟨compressionFlag compressionEncoding,
      (payloadOf enc z compressionEncoding encoder msg).getD []⟩ ::
      framesOf (enc.encode encoder msg).next msgs

theorem seal_payload_within {payload : Bytes}
    (send : payload.length ≤ sendLimit.getD defaultMaxSendMessageSize)
    (fits : payload.length < 2 ^ 32) :
    sealPayload compressionEncoding sendLimit payload =
      .ok ⟨compressionFlag compressionEncoding, payload⟩ := by
  have size : (List.replicate headerSize (0 : UInt8) ++ payload).length - headerSize =
      payload.length := by simp
  simp only [sealPayload, finishEncoding, size, Nat.not_lt.mpr send, if_false]
  rw [if_neg (by omega)]

theorem payload_of_some {encoder : σ} {msg : T} {payload : Bytes}
    (some_payload : payloadOf enc z compressionEncoding encoder msg = some payload) :
    (enc.encode encoder msg).result = .ok () ∧
      (compressionEncoding = none ∧ (enc.encode encoder msg).written = payload ∨
        ∃ encoding, compressionEncoding = some encoding ∧
          z.compress encoding (enc.encode encoder msg).written = .ok payload) := by
  cases encoded : (enc.encode encoder msg).result with
  | error err => simp only [payloadOf, encoded, reduceCtorEq] at some_payload
  | ok _ =>
    simp only [payloadOf, encoded] at some_payload
    refine ⟨rfl, ?_⟩
    cases compressionEncoding with
    | none => exact .inl ⟨rfl, Option.some.inj some_payload⟩
    | some encoding =>
      simp only at some_payload
      cases packing : z.compress encoding (enc.encode encoder msg).written with
      | error err => simp [packing, Except.toOption] at some_payload
      | ok packed =>
        simp only [packing, Except.toOption, Option.some.injEq] at some_payload
        exact .inr ⟨encoding, rfl, by rw [packing, some_payload]⟩

theorem frame_of_payload {encoder : σ} {msg : T} {payload : Bytes}
    (some_payload : payloadOf enc z compressionEncoding encoder msg = some payload)
    (send : payload.length ≤ sendLimit.getD defaultMaxSendMessageSize)
    (fits : payload.length < 2 ^ 32) :
    frameOf enc z compressionEncoding sendLimit encoder msg =
      .ok ⟨compressionFlag compressionEncoding, payload⟩ := by
  have sealed := seal_payload_within compressionEncoding sendLimit send fits
  obtain ⟨encoded, written⟩ := payload_of_some enc z compressionEncoding some_payload
  rcases written with ⟨rfl, rfl⟩ | ⟨encoding, rfl, packing⟩
  · simp only [frameOf, encoded]
    exact sealed
  · simp only [frameOf, encoded, packing]
    exact sealed

theorem image_paced (schedule : List (Option T)) (encoder : σ)
    (fits : Fits enc z compressionEncoding sendLimit recvLimit encoder schedule.reduceOption) :
    image enc z compressionEncoding sendLimit (paced schedule) encoder =
      (framesOf enc z compressionEncoding encoder schedule.reduceOption).map .ok := by
  induction schedule generalizing encoder with
  | nil => rfl
  | cons turn schedule ih =>
    cases turn with
    | none => exact ih encoder fits
    | some msg =>
      rw [List.reduceOption_cons_of_some] at fits ⊢
      obtain ⟨⟨payload, some_payload, send, _, field⟩, later⟩ := fits
      have frame := frame_of_payload enc z compressionEncoding sendLimit some_payload send field
      have rest := ih (enc.encode encoder msg).next later
      simp only [paced, List.map_cons, image, framesOf, frame, some_payload, Option.getD_some] at rest ⊢
      rw [rest]

theorem spread_emitted_paced (schedule : List (Option T)) (tail : List (SourceEvent T))
    (yieldThreshold : Nat) (encoder : σ) (held frames : List Framed)
    (good : image enc z compressionEncoding sendLimit (paced schedule) encoder =
      frames.map .ok) :
    ∃ out threshold last kept,
      spread (emitted enc z compressionEncoding sendLimit yieldThreshold
          (paced schedule ++ tail) encoder held) =
        out.map .ok ++ spread (emitted enc z compressionEncoding sendLimit threshold tail last kept) ∧
      out ++ kept = held ++ frames := by
  induction schedule generalizing yieldThreshold encoder held frames with
  | nil =>
    have none : frames = [] := by simpa [paced, image] using good.symm
    exact ⟨[], yieldThreshold, encoder, held, rfl, by simp [none]⟩
  | cons turn schedule ih =>
    cases turn with
    | none =>
      obtain ⟨out, threshold, last, kept, run, split⟩ :=
        ih (enc.bufferSettings encoder).yieldThreshold encoder [] frames good
      refine ⟨held ++ out, threshold, last, kept, ?_, by simp [split]⟩
      rw [List.map_append, List.append_assoc, ← run, ← spread_flushed]
      rfl
    | some msg =>
      simp only [paced, List.map_cons, image] at good
      cases frames with
      | nil => cases good
      | cons frame frames =>
        obtain ⟨first, later⟩ := List.cons.inj good
        simp only [paced, List.map_cons, List.cons_append, emitted, first]
        split
        · obtain ⟨out, threshold, last, kept, run, split⟩ :=
            ih (enc.bufferSettings (enc.encode encoder msg).next).yieldThreshold
              (enc.encode encoder msg).next [] frames later
          refine ⟨held ++ frame :: out, threshold, last, kept, ?_, by simpa using split⟩
          rw [spread_ok]
          simp only [paced] at run
          simp [run]
        · obtain ⟨out, threshold, last, kept, run, split⟩ :=
            ih yieldThreshold (enc.encode encoder msg).next (held ++ [frame]) frames later
          exact ⟨out, threshold, last, kept, run, by simpa using split⟩

/-- What a source of good messages makes the sending side yield, up to its end or
    the error that stops it. -/
theorem sent_reads (schedule : List (Option T)) (tail : List (SourceEvent T)) (encoder : σ)
    (o : Option Status)
    (fits : Fits enc z compressionEncoding sendLimit recvLimit encoder schedule.reduceOption)
    (stops : ∀ threshold last kept,
      goodItems (spread (emitted enc z compressionEncoding sendLimit threshold tail last kept)) = kept ∧
      firstError (spread (emitted enc z compressionEncoding sendLimit threshold tail last kept)) = o) :
    ∃ chunks t, Reads (EncodedBytes.pollNext enc z)
        (.new encoder (paced schedule ++ tail) compressionEncoding sendLimit) chunks o t ∧
      chunks.flatten =
        writeAll (framesOf enc z compressionEncoding encoder schedule.reduceOption) := by
  obtain ⟨t, run⟩ := encoded_bytes_drains enc z compressionEncoding sendLimit encoder
    (paced schedule ++ tail)
  obtain ⟨u, reads⟩ := reads_of_drains _ run
  obtain ⟨bytes, error⟩ := good_items_on_wire (emitted enc z compressionEncoding sendLimit
    (enc.bufferSettings encoder).yieldThreshold (paced schedule ++ tail) encoder [])
  obtain ⟨good, bad⟩ := good_items_spread (emitted enc z compressionEncoding sendLimit
    (enc.bufferSettings encoder).yieldThreshold (paced schedule ++ tail) encoder [])
  obtain ⟨out, threshold, last, kept, split, all⟩ :=
    spread_emitted_paced enc z compressionEncoding sendLimit schedule tail
      (enc.bufferSettings encoder).yieldThreshold encoder [] _
      (image_paced enc z compressionEncoding sendLimit recvLimit schedule encoder fits)
  obtain ⟨rest, stop⟩ := stops threshold last kept
  obtain ⟨front, later⟩ := good_items_append out
    (spread (emitted enc z compressionEncoding sendLimit threshold tail last kept))
  rw [split, front, rest, all, List.nil_append] at good
  rw [split, later, stop] at bad
  rw [error, ← bad] at reads
  exact ⟨_, u, reads, by rw [bytes, ← good]⟩

theorem paced_reads (encoder : σ) (schedule : List (Option T))
    (fits : Fits enc z compressionEncoding sendLimit recvLimit encoder schedule.reduceOption) :
    ∃ chunks t, Reads (EncodedBytes.pollNext enc z)
        (.new encoder (paced schedule) compressionEncoding sendLimit) chunks none t ∧
      chunks.flatten =
        writeAll (framesOf enc z compressionEncoding encoder schedule.reduceOption) := by
  obtain ⟨chunks, t, run, bytes⟩ := sent_reads enc z compressionEncoding sendLimit recvLimit
    schedule [] encoder none fits (by
      intro threshold last kept
      have rest := spread_flushed kept []
      obtain ⟨good, bad⟩ := good_items_append (ε := Status) kept []
      rw [List.append_nil, spread_nil] at rest
      rw [emitted, rest, good, bad]
      exact ⟨List.append_nil _, rfl⟩)
  rw [List.append_nil] at run
  exact ⟨chunks, t, run, bytes⟩

theorem compression_of_flag :
    compressionOf compressionEncoding (compressionFlag compressionEncoding) =
      .ok compressionEncoding := by
  cases compressionEncoding <;> rfl

section Reading
variable {related : σ → δ → Prop} (inStep : InStep enc dec related) (inverse : z.Inverse)
include inStep inverse

theorem scan_written_frame {encoder : σ} {decoder : δ} {msg : T} {payload : Bytes}
    (rel : related encoder decoder)
    (some_payload : payloadOf enc z compressionEncoding encoder msg = some payload)
    (recv : payload.length ≤ recvLimit.getD defaultMaxRecvMessageSize)
    (fits : payload.length < 2 ^ 32) (more : Bytes) :
    ∃ next, related (enc.encode encoder msg).next next ∧
      scanFrame dec z compressionEncoding recvLimit decoder
        ((Framed.mk (compressionFlag compressionEncoding) payload).write ++ more) =
        .message msg next more := by
  obtain ⟨encoded, written⟩ := payload_of_some enc z compressionEncoding some_payload
  obtain ⟨result, whole, related_next⟩ := inStep encoder decoder msg rel encoded
  refine ⟨_, related_next, ?_⟩
  have enough : ¬ (payload ++ more).length < payload.length := by simp
  simp only [scanFrame, Framed.write, List.cons_append, List.append_assoc,
    read_header_write _ _ fits, compression_of_flag, length_within_ok recv, scanBody, enough, if_false,
    List.take_left]
  rcases written with ⟨rfl, rfl⟩ | ⟨encoding, rfl, packing⟩
  · simp only [scanPayload, result, whole, List.drop_left]
  · simp only [inverse _ _ _ packing, scanPayload, result, List.drop_left]

theorem scanned_frames (msgs : List T) (encoder : σ) (decoder : δ) (rel : related encoder decoder)
    (fits : Fits enc z compressionEncoding sendLimit recvLimit encoder msgs) :
    Scanned dec z compressionEncoding recvLimit decoder
      (writeAll (framesOf enc z compressionEncoding encoder msgs)) msgs (.short []) := by
  induction msgs generalizing encoder decoder with
  | nil => exact .short rfl
  | cons msg msgs ih =>
    obtain ⟨⟨payload, some_payload, _, recv, field⟩, later⟩ := fits
    obtain ⟨next, rel', front⟩ := scan_written_frame enc dec z compressionEncoding recvLimit inStep
      inverse rel some_payload recv field
      (writeAll (framesOf enc z compressionEncoding (enc.encode encoder msg).next msgs))
    simp only [framesOf, some_payload, Option.getD_some]
    exact .message front (ih _ _ rel' later)

/-- A stream over any body with the bytes of these frames reads their messages and
    ends as the body does. -/
theorem reads_frames (msgs : List T) (encoder : σ) (decoder : δ) (rel : related encoder decoder)
    (fits : Fits enc z compressionEncoding sendLimit recvLimit encoder msgs)
    (direction : Direction) (chunks : List Chunk) (tail : Tail Status)
    (cut : (Body.mk chunks tail).data =
      writeAll (framesOf enc z compressionEncoding encoder msgs)) :
    ∃ t, Reads (Streaming.pollNext dec z)
        (.new decoder ⟨chunks, tail⟩ direction compressionEncoding recvLimit) msgs
        (ending direction tail []) t ∧ Closes tail (ending direction tail []) t := by
  have scanned := scanned_frames enc dec z compressionEncoding sendLimit recvLimit inStep inverse
    msgs encoder decoder rel fits
  rw [← cut] at scanned
  obtain ⟨t, reads, closes⟩ := new_reads dec z compressionEncoding recvLimit decoder
    ⟨chunks, tail⟩ direction scanned
  exact ⟨t, reads, closes [] rfl⟩

end Reading

theorem inferred_ok {trailers : HeaderMap} (ok : (Status.ok "").toHeaderMap = .ok trailers)
    (statusCode : Nat) : inferred (.response statusCode) (some trailers) = none := by
  obtain ⟨after, same, written⟩ := to_header_map_written (Status.ok "")
  cases ok.symm.trans same
  have good := infer_written written statusCode
  simp only [Status.ok, Status.new, if_true] at good
  simp only [inferred, good]

/-- A request body written by one side and a response body written by the other are
    read back as the messages sent, in order, and end cleanly, however the source
    is paced and the bytes are cut. -/
theorem framing_round_trip {related : σ → δ → Prop} (inStep : InStep enc dec related)
    (inverse : z.Inverse) (schedule : List (Option T)) (encoder : σ) (decoder : δ)
    (rel : related encoder decoder)
    (fits : Fits enc z compressionEncoding sendLimit recvLimit encoder schedule.reduceOption) :
    (∃ bytes, Carries (EncodeBody.pollFrame enc z)
        (.newClient encoder (paced schedule) compressionEncoding sendLimit) bytes .eof ∧
      ∀ chunks, (Body.mk (ε := Status) chunks .eof).data = bytes →
        ∃ t, Reads (Streaming.pollNext dec z)
          (.newRequest decoder ⟨chunks, .eof⟩ compressionEncoding recvLimit)
          schedule.reduceOption none t) ∧
    (∃ bytes trailers, Carries (EncodeBody.pollFrame enc z)
        (.newServer encoder (paced schedule) compressionEncoding sendLimit) bytes
        (.trailers trailers) ∧
      ∀ chunks, (Body.mk (ε := Status) chunks (.trailers trailers)).data = bytes →
        ∃ t, Reads (Streaming.pollNext dec z)
          (.newResponse decoder ⟨chunks, .trailers trailers⟩ 200 compressionEncoding recvLimit)
          schedule.reduceOption none t) := by
  obtain ⟨sent, last, run, bytes⟩ := sent_reads enc z compressionEncoding sendLimit recvLimit
    schedule [] encoder none fits (by
      intro threshold last kept
      have rest := spread_flushed kept []
      obtain ⟨good, bad⟩ := good_items_append (ε := Status) kept []
      rw [List.append_nil, spread_nil] at rest
      rw [emitted, rest, good, bad]
      exact ⟨List.append_nil _, rfl⟩)
  rw [List.append_nil] at run
  refine ⟨⟨_, client_carries enc z rfl run, ?_⟩, ?_⟩
  · intro chunks cut
    obtain ⟨t, reads, _⟩ := reads_frames enc dec z compressionEncoding sendLimit recvLimit inStep
      inverse _ encoder decoder rel fits .request chunks .eof (cut.trans bytes)
    exact ⟨t, reads⟩
  · obtain ⟨trailers, ok, carries⟩ := server_carries enc z run
    refine ⟨_, trailers, carries, ?_⟩
    intro chunks cut
    obtain ⟨t, reads, _⟩ := reads_frames enc dec z compressionEncoding sendLimit recvLimit inStep
      inverse _ encoder decoder rel fits (.response 200) chunks (.trailers trailers)
      (cut.trans bytes)
    rw [ending, inferred_ok ok] at reads
    exact ⟨t, reads⟩

theorem framing_round_trip_bytes :
    let enc := plainEncoder (fun m : Bytes => m) .default
    let dec := plainDecoder fun bytes : Bytes => .ok bytes
    let z : Compressors := ⟨fun _ plain => .ok plain, fun _ packed => .ok packed⟩
    ∃ bytes, Carries (EncodeBody.pollFrame enc z)
        (.newClient () (paced [some [1, 2], none, some []]) none (some 2)) bytes .eof ∧
      ∀ chunks, (Body.mk (ε := Status) chunks .eof).data = bytes →
        ∃ t, Reads (Streaming.pollNext dec z) (.newRequest () ⟨chunks, .eof⟩ none none)
          [[1, 2], []] none t :=
  (framing_round_trip (plainEncoder (fun m : Bytes => m) .default)
    (plainDecoder fun bytes : Bytes => .ok bytes)
    ⟨fun _ plain => .ok plain, fun _ packed => .ok packed⟩ none (some 2) none
    (plain_codec_in_step _ _ _ fun _ => rfl)
    (by intro _ plain packed packing; simpa using packing.symm)
    [some [1, 2], none, some []] () () trivial
    ⟨⟨_, rfl, by decide, by decide, by decide⟩, ⟨_, rfl, by decide, by decide, by decide⟩,
      trivial⟩).1

end FramingRoundTrip
