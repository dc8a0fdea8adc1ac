import PureGrpc.StreamingScan

/-!
When a body that breaks off inside a frame is noticed. The stream looks only at
what is left in its buffer, and only at EOF: a header that was already taken out
of the buffer is not there any more, and before trailers nothing is looked at.
-/
namespace TruncationDetection
open LengthFraming GrpcMetadata GrpcStatus GrpcCompression GrpcCodec PolledMachines HttpBodies
open StreamingDecode StreamingScan

variable {δ T : Type} (dec : Decoder δ T) (z : Compressors)
  (encoding : Option CompressionEncoding) (maxMessageSize : Option Nat)

theorem received_unique {d : δ} {bytes : Bytes} {chunks : List Chunk} {ms ns : List T} {o p : Fate}
    (left : Received dec z encoding maxMessageSize d bytes chunks ms o)
    (right : Received dec z encoding maxMessageSize d bytes chunks ns p) : ms = ns ∧ o = p := by
  induction left generalizing ns with
  | bad h => cases right <;> simp_all [idle]
  | message h _ ih =>
    cases right with
    | message h' later =>
      cases h.symm.trans h'
      obtain ⟨msgs, outcome⟩ := ih later
      exact ⟨by rw [msgs], outcome⟩
    | _ => simp_all [idle]
  | finished h =>
    cases right with
    | finished h' =>
      cases h.symm.trans h'
      exact ⟨rfl, rfl⟩
    | _ => simp_all [idle]
  | pending h _ ih =>
    cases right with
    | pending h' later =>
      cases h.symm.trans h'
      exact ih later
    | _ => simp_all [idle]
  | data h _ ih =>
    cases right with
    | data h' later =>
      cases h.symm.trans h'
      exact ih later
    | _ => simp_all [idle]

theorem idle_length {d next : δ} {bytes kept left : Bytes}
    (h : idle dec z encoding maxMessageSize d bytes = some (next, kept, left)) :
    kept.length ≤ bytes.length := by
  rcases idle_cases dec z encoding maxMessageSize h with ⟨_, _, rfl, _⟩ | ⟨scan, rfl⟩
  · exact Nat.le_refl _
  · have shorter : left.length + 5 ≤ bytes.length :=
      scan_frame_rest dec z encoding maxMessageSize (by rw [scan]; rfl)
    rw [List.length_append, List.length_take]
    omega

theorem received_total (d : δ) (bytes : Bytes) (chunks : List Chunk) :
    ∃ msgs fate, Received dec z encoding maxMessageSize d bytes chunks msgs fate := by
  induction size : bytes.length + (Body.mk (ε := Status) chunks .eof).data.length + chunks.length
    using Nat.strongRecOn generalizing d bytes chunks with
  | ind n ih =>
    have turns {next kept left} (h : idle dec z encoding maxMessageSize d bytes =
        some (next, kept, left)) :
        ∃ msgs fate, Received dec z encoding maxMessageSize d bytes chunks msgs fate := by
      have shorter := idle_length dec z encoding maxMessageSize h
      cases chunks with
      | nil => exact ⟨[], _, .finished h⟩
      | cons chunk more =>
        cases chunk with
        | pending =>
          rw [body_data_pending, List.length_cons] at size
          obtain ⟨msgs, fate, later⟩ := ih _ (by omega) next kept more rfl
          exact ⟨msgs, fate, .pending h later⟩
        | data data =>
          rw [body_data_cons, List.length_cons, List.length_append] at size
          have fewer : (kept ++ data).length + (Body.mk (ε := Status) more .eof).data.length +
              more.length < n := by
            rw [List.length_append]
            omega
          obtain ⟨msgs, fate, later⟩ := ih _ fewer next (kept ++ data) more rfl
          exact ⟨msgs, fate, .data h later⟩
    cases scan : scanFrame dec z encoding maxMessageSize d bytes with
    | bad status => exact ⟨[], _, .bad scan⟩
    | short => exact turns (idle_short dec z encoding maxMessageSize scan)
    | stall next rest => exact turns (idle_stall dec z encoding maxMessageSize scan)
    | message msg next rest =>
      have shorter : rest.length + 5 ≤ bytes.length :=
        scan_frame_rest dec z encoding maxMessageSize (by rw [scan]; rfl)
      obtain ⟨msgs, fate, later⟩ := ih _ (by omega) next rest chunks rfl
      exact ⟨msg :: msgs, fate, .message scan later⟩

section Whole
variable {dec} (whole : dec.Whole)
include whole

theorem scan_payload_whole (d : δ) (view : Bytes) (rest : Nat → Bytes) :
    (∃ status, scanPayload dec d view rest = .bad status) ∨
      ∃ msg next, scanPayload dec d view rest = .message msg next (rest view.length) := by
  unfold scanPayload
  rcases whole d view with ⟨status, result⟩ | ⟨consumed, msg, result⟩
  · exact .inl ⟨status, by simp only [result]⟩
  · exact .inr ⟨msg, _, by simp only [result, consumed]; rfl⟩

theorem scan_frame_whole (d : δ) (bytes : Bytes) :
    match scanFrame dec z encoding maxMessageSize d bytes with
    | .short => readFrame bytes = none
    | .bad _ => True
    | .stall _ _ => False
    | .message _ _ rest => ∃ f, readFrame bytes = some (f, rest) := by
  unfold scanFrame readFrame
  cases LengthFraming.readHeader bytes with
  | none => rfl
  | some triple =>
    obtain ⟨flag, len, after⟩ := triple
    dsimp only
    cases compressionOf encoding flag with
    | error status => trivial
    | ok compression =>
      cases lengthWithin maxMessageSize len with
      | error status => trivial
      | ok _ =>
        simp only [scanBody]
        by_cases fewer : after.length < len
        · simp only [fewer, if_true]
        · simp only [fewer, if_false]
          cases compression with
          | none =>
            have size : (after.take len).length = len := by simp; omega
            rcases scan_payload_whole whole d (after.take len) after.drop with
              ⟨status, scan⟩ | ⟨msg, next, scan⟩
            · simp only [scan]
            · simp only [scan, size]
              exact ⟨_, rfl⟩
          | some encoding =>
            dsimp only
            cases z.decompress encoding (after.take len) with
            | error err => trivial
            | ok plain =>
              rcases scan_payload_whole whole d plain (fun _ => after.drop len) with
                ⟨status, scan⟩ | ⟨msg, next, scan⟩
              · simp only [scan]
              · simp only [scan]
                exact ⟨_, rfl⟩

theorem scan_total (d : δ) (bytes : Bytes) :
    ∃ msgs o, Scanned dec z encoding maxMessageSize d bytes msgs o ∧
      ∀ rest, o = .short rest → rest = (splitFrames bytes).2 := by
  induction size : bytes.length using Nat.strongRecOn generalizing d bytes with
  | ind n ih =>
    have frame := scan_frame_whole z encoding maxMessageSize whole d bytes
    cases scan : scanFrame dec z encoding maxMessageSize d bytes with
    | short =>
      rw [scan] at frame
      refine ⟨[], _, .short scan, ?_⟩
      rintro rest same
      rw [split_short frame]
      cases same
      rfl
    | bad status => exact ⟨[], _, .bad scan, by simp⟩
    | stall next rest =>
      rw [scan] at frame
      exact frame.elim
    | message msg next rest =>
      rw [scan] at frame
      obtain ⟨f, read⟩ := frame
      obtain ⟨msgs, o, later, left⟩ := ih rest.length (size ▸ read_frame_shrinks read) next rest rfl
      refine ⟨msg :: msgs, o, .message scan later, ?_⟩
      rw [split_cons read]
      exact left

end Whole

/-- Some frame of the bytes that arrive, or the header they break off after, is rejected. -/
def Rejected (decoder : δ) (chunks : List Chunk) : Prop :=
  ∃ (msgs : List T) (status : Status),
    Received dec z encoding maxMessageSize decoder [] chunks msgs (.bad status)

/-- All bytes have arrived, and some that stand behind the last header are not used. -/
def LeftOver (decoder : δ) (chunks : List Chunk) : Prop :=
  ∃ (msgs : List T) (left : Bytes),
    Received dec z encoding maxMessageSize decoder [] chunks msgs (.finished left) ∧ left ≠ []

def Detected (decoder : δ) (direction : Direction) (body : Body Status) : Prop :=
  Rejected dec z encoding maxMessageSize decoder body.chunks ∨
    match body.tail with
    | .eof => LeftOver dec z encoding maxMessageSize decoder body.chunks ∨
        inferred direction none ≠ none
    | .trailers map => inferred direction (some map) ≠ none
    | .error _ => True

def DetectedInBytes (decoder : δ) (direction : Direction) (body : Body Status) : Prop :=
  (∃ (msgs : List T) (status : Status),
    Scanned dec z encoding maxMessageSize decoder body.data msgs (.bad status)) ∨
    match body.tail with
    | .eof => (splitFrames body.data).2.length ≠ 5 ∨ inferred direction none ≠ none
    | .trailers map => inferred direction (some map) ≠ none
    | .error _ => True

/-- Where every payload is rejected or used up, what is left over is what stands
    behind the last complete frame, less a header. -/
theorem detected_in_bytes_iff (whole : dec.Whole) (decoder : δ) (direction : Direction)
    (body : Body Status) (cut : ¬ Whole body.data) :
    Detected dec z encoding maxMessageSize decoder direction body ↔
      DetectedInBytes dec z encoding maxMessageSize decoder direction body := by
  obtain ⟨msgs, o, scanned, left⟩ := scan_total z encoding maxMessageSize whole decoder body.data
  have received {ns p} (scan : Scanned dec z encoding maxMessageSize decoder body.data ns p) :
      Received dec z encoding maxMessageSize decoder [] body.chunks ns p.fate := by
    have all : Scanned dec z encoding maxMessageSize decoder
        ([] ++ (Body.mk body.chunks body.tail).data) ns p := scan
    exact received_scanned dec z encoding maxMessageSize all
  have unique {ns p}
      (run : Received dec z encoding maxMessageSize decoder [] body.chunks ns p) : o.fate = p :=
    (received_unique dec z encoding maxMessageSize (received scanned) run).2
  unfold Detected DetectedInBytes
  cases o with
  | bad status =>
    constructor
    · intro _
      exact .inl ⟨msgs, status, scanned⟩
    · intro _
      exact .inl ⟨msgs, status, received scanned⟩
  | short rest =>
    have rejected : ¬ Rejected dec z encoding maxMessageSize decoder body.chunks := by
      intro scanned
      obtain ⟨ns, status, run⟩ := scanned
      cases unique run
    have accepted : ¬ ∃ (ns : List T) (status : Status),
        Scanned dec z encoding maxMessageSize decoder body.data ns (.bad status) := by
      intro scanned
      obtain ⟨ns, status, scan⟩ := scanned
      exact rejected ⟨ns, status, received scan⟩
    have rest_eq := left rest rfl
    have nonempty : rest ≠ [] := by
      rw [rest_eq]
      exact cut
    have taken : held rest = [] ↔ rest.length = 5 := by
      unfold held
      split
      · simp only [nonempty, false_iff]
        omega
      · rw [List.drop_eq_nil_iff]
        omega
    have leftOver : LeftOver dec z encoding maxMessageSize decoder body.chunks ↔ rest.length ≠ 5 := by
      constructor
      · rintro ⟨ns, bytes, run, some_left⟩ header
        cases unique run
        exact some_left (taken.mpr header)
      · intro header
        exact ⟨msgs, held rest, received scanned, mt taken.mp header⟩
    simp only [rejected, accepted, false_or, leftOver, ← rest_eq]

/-- A broken-off body makes the stream return an error exactly when a frame before
    the cut is rejected, the body ends in an error itself, the status of the
    response is an error, or the body ends without trailers while bytes are left
    over; with decoders that use up payloads, unless the cut is right after a header. -/
theorem truncation_detected_iff (decoder : δ) (body : Body Status) (direction : Direction)
    (cut : ¬ Whole body.data)
    (notCancelled : ∀ status, body.tail = .error status →
      ¬ (direction = .request ∧ status.code = .cancelled)) :
    ∃ msgs o t, Reads (Streaming.pollNext dec z)
        (.new decoder body direction encoding maxMessageSize) msgs o t ∧
      (o ≠ none ↔ Detected dec z encoding maxMessageSize decoder direction body) ∧
      (dec.Whole → (o ≠ none ↔
        DetectedInBytes dec z encoding maxMessageSize decoder direction body)) := by
  obtain ⟨msgs, fate, received⟩ := received_total dec z encoding maxMessageSize decoder [] body.chunks
  obtain ⟨t, reads, _⟩ := new_received dec z encoding maxMessageSize decoder body direction received
  have unique {ns p}
      (run : Received dec z encoding maxMessageSize decoder [] body.chunks ns p) : fate = p :=
    (received_unique dec z encoding maxMessageSize received run).2
  have detected : fate.verdict direction body.tail ≠ none ↔
      Detected dec z encoding maxMessageSize decoder direction body := by
    unfold Detected
    cases fate with
    | bad status =>
      simp only [Fate.verdict, ne_eq, reduceCtorEq, not_false_eq_true, true_iff]
      exact .inl ⟨msgs, status, received⟩
    | finished left =>
      have accepted : ¬ Rejected dec z encoding maxMessageSize decoder body.chunks := by
        intro scanned
        obtain ⟨ns, status, run⟩ := scanned
        cases unique run
      have leftOver : LeftOver dec z encoding maxMessageSize decoder body.chunks ↔ left ≠ [] := by
        constructor
        · intro scanned
          obtain ⟨ns, bytes, run, some_left⟩ := scanned
          cases unique run
          exact some_left
        · intro some_left
          exact ⟨msgs, left, received, some_left⟩
      simp only [Fate.verdict, accepted, false_or, leftOver]
      cases tail : body.tail with
      | eof =>
        simp only [ending]
        by_cases empty : left = []
        · simp [empty]
        · simp [empty]
      | trailers map => rfl
      | error status => simp [ending, notCancelled status tail]
  refine ⟨msgs, _, t, reads, detected, ?_⟩
  intro whole
  exact detected.trans
    (detected_in_bytes_iff dec z encoding maxMessageSize whole decoder direction body cut)

theorem truncation_detected_in_header :
    let dec := plainDecoder fun bytes : Bytes => (.ok bytes : Except Status Bytes)
    let z : Compressors := ⟨fun _ plain => .ok plain, fun _ packed => .ok packed⟩
    let body : Body Status := ⟨[.data [0, 0], .pending, .data [0]], .eof⟩
    ∃ msgs o t, Reads (Streaming.pollNext dec z) (.new () body .request none none) msgs o t ∧
      (o ≠ none ↔ Detected dec z none none () .request body) ∧
      (dec.Whole → (o ≠ none ↔ DetectedInBytes dec z none none () .request body)) :=
  truncation_detected_iff _ _ none none ()
    ⟨[.data [0, 0], .pending, .data [0]], .eof⟩ .request
    (by rw [Whole, split_short (by decide)]; decide) (by simp)

/-- EOF right after a header, and trailers inside a payload, look like a good end. -/
theorem truncation_missed :
    let dec := plainDecoder fun bytes : Bytes => (.ok bytes : Except Status Bytes)
    let z : Compressors := ⟨fun _ plain => .ok plain, fun _ packed => .ok packed⟩
    let atHeader : Body Status := ⟨[.data [0, 0, 0, 0, 1]], .eof⟩
    let inPayload : Body Status :=
      ⟨[.data [0, 0, 0, 0, 3, 7]], .trailers [(grpcStatus, Code.ok.toHeaderValue)]⟩
    ¬ Whole atHeader.data ∧ ¬ Whole inPayload.data ∧
      (∃ t, Reads (Streaming.pollNext dec z) (.newRequest () atHeader none none) [] none t) ∧
      ∃ t, Reads (Streaming.pollNext dec z) (.newResponse () inPayload 200 none none) [] none t := by
  intro dec z atHeader inPayload
  have noFrame (bytes : Bytes) (short : readFrame bytes = none) (nonempty : bytes ≠ []) :
      ¬ Whole bytes := by
    rw [Whole, split_short short]
    exact nonempty
  have undetected (direction : Direction) (body : Body Status) (len : Nat) (rest : Bytes)
      (header : LengthFraming.readHeader body.data = some (0, len, rest))
      (partly : rest.length < len) (fits : len ≤ defaultMaxRecvMessageSize)
      (quiet : ending direction body.tail (held body.data) = none) :
      ∃ t, Reads (Streaming.pollNext dec z) (.new () body direction none none) [] none t := by
    have within : lengthWithin none len = .ok () := length_within_ok fits
    have scan : scanFrame dec z none none () body.data = .short := by
      simp only [scanFrame, header, compressionOf, within, scanBody, partly, if_true]
    obtain ⟨t, reads, _⟩ := new_reads dec z none none () body direction (.short scan)
    rw [Outcome.verdict, quiet] at reads
    exact ⟨t, reads⟩
  exact ⟨noFrame _ (by decide) (by decide), noFrame _ (by decide) (by decide),
    undetected .request atHeader 1 [] (by decide) (by decide) (by decide) (by decide),
    undetected (.response 200) inPayload 3 [7] (by decide) (by decide) (by decide) (by decide)⟩

end TruncationDetection
