import PureGrpc.DecoderCalls

/-!
The receive limit and what the decoder is given. The limit is compared with the
length in the frame header, which for a compressed frame is the compressed length:
what it is decompressed to is handed over whatever its size.
-/
namespace ReceiveLimit
open LengthFraming GrpcStatus GrpcCompression GrpcCodec PolledMachines HttpBodies
open MessageEncoding StreamingDecode StreamingScan DecoderCalls

variable {δ T : Type} (dec : Decoder δ T) (z : Compressors)

def receiveLimit (maxMessageSize : Option Nat) : Nat :=
  maxMessageSize.getD defaultMaxRecvMessageSize

/-- What the complete and accepted compressed frame at the front decompresses to. -/
def inflated (encoding : Option CompressionEncoding) (maxMessageSize : Option Nat)
    (bytes : Bytes) : Option Bytes :=
  match LengthFraming.readHeader bytes with
  | none => none
  | some (flag, len, rest) =>
    match compressionOf encoding flag with
    | .ok (some encoding) =>
      if receiveLimit maxMessageSize < len ∨ rest.length < len then none
      else (z.decompress encoding (rest.take len)).toOption
    | _ => none

/-- The frame the stream is about to decode decompresses to more than the limit. -/
def Inflates (inner : StreamingInner) : Prop :=
  inner.state.isError = false ∧
    ∃ plain, inflated z inner.encoding inner.maxMessageSize (unread inner) = some plain ∧
      receiveLimit inner.maxMessageSize < plain.length

theorem inflated_handed {encoding : Option CompressionEncoding} {maxMessageSize : Option Nat}
    {bytes plain : Bytes} (inflates : inflated z encoding maxMessageSize bytes = some plain) :
    handed z encoding maxMessageSize bytes = some plain := by
  cases header : LengthFraming.readHeader bytes with
  | none => simp only [inflated, header, reduceCtorEq] at inflates
  | some triple =>
    obtain ⟨flag, len, rest⟩ := triple
    simp only [inflated, header] at inflates
    split at inflates
    · rename_i encoding flagged
      split at inflates
      · cases inflates
      · rename_i fits
        have small : len ≤ receiveLimit maxMessageSize := by omega
        have within := length_within_ok small
        have enough : ¬ rest.length < len := by omega
        simp only [handed, header, flagged, within, handedBody, enough, if_false]
        exact inflates
    · cases inflates

theorem handed_cases {encoding : Option CompressionEncoding} {maxMessageSize : Option Nat}
    {bytes view : Bytes} (hands : handed z encoding maxMessageSize bytes = some view) :
    inflated z encoding maxMessageSize bytes = some view ∨
      view.length ≤ receiveLimit maxMessageSize := by
  obtain ⟨flag, len, rest, compression, header, flagged, within, enough, shown⟩ :=
    handed_some z encoding maxMessageSize hands
  have fits : len ≤ receiveLimit maxMessageSize := (length_within_iff _ _).mp within
  rcases shown with ⟨rfl, rfl⟩ | ⟨encoding, rfl, unpacked⟩
  · right
    rw [List.length_take]
    omega
  · left
    have accepted : ¬ (receiveLimit maxMessageSize < len ∨ rest.length < len) := by omega
    simp only [inflated, header, flagged, accepted, if_false, unpacked, Except.toOption]

section Runs
variable (maxMessageSize : Option Nat)

structure LoggedWithin (stream : Streaming (δ × List Bytes)) : Prop where
  checked : Checked stream.inner
  limit : stream.inner.maxMessageSize = maxMessageSize
  logged : ∀ view ∈ stream.decoder.2, view.length ≤ receiveLimit maxMessageSize

theorem turn_log (self : Streaming (δ × List Bytes)) (checked : Checked self.inner) :
    (self.turn (noting dec) z).state.decoder.2 = self.decoder.2 ++
      (if self.inner.state.isError then []
        else (handed z self.inner.encoding self.inner.maxMessageSize (unread self.inner)).toList) := by
  rw [(turn_decoder (noting dec) z self).2]
  rcases checked with taken | failed
  · have running := taken_running taken
    rw [running, decode_chunk_decoder (noting dec) z self taken]
    cases handed z self.inner.encoding self.inner.maxMessageSize (unread self.inner) with
    | none => simp [after]
    | some view => simp [after, noting]
  · simp only [failed, if_true, List.append_nil]

theorem turn_within {self : Streaming (δ × List Bytes)} (within : LoggedWithin maxMessageSize self)
    (fits : ¬ Inflates z self.inner) :
    LoggedWithin maxMessageSize (self.turn (noting dec) z).state := by
  have keeps := (turn_decoder (noting dec) z self).1
  refine ⟨keeps.checked within.checked, keeps.maxMessageSize.trans within.limit, ?_⟩
  intro view logged
  rw [turn_log dec z self within.checked] at logged
  rcases List.mem_append.mp logged with old | new
  · exact within.logged view old
  · split at new
    · cases new
    · rename_i running
      have hands := Option.mem_toList.mp new
      rw [← within.limit]
      rcases handed_cases z hands with inflates | small
      · by_contra large
        exact fits ⟨by simpa using running, view, inflates, by omega⟩
      · exact small

def Reached (dec : Decoder δ T) (start s : Streaming δ) : Prop :=
  ∃ n, (Streaming.loop dec z).Visits (stateAt (Streaming.pollNext dec z) start n) s

theorem reached_rule (dec : Decoder δ T) {start : Streaming δ} (keep : Streaming δ → Prop)
    (first : keep start)
    (turns : ∀ s, Reached z dec start s → keep s → keep (s.turn dec z).state) :
    (∀ n, keep (stateAt (Streaming.pollNext dec z) start n)) ∧
      ∀ s, Reached z dec start s → keep s := by
  have inside (n : Nat) (before : keep (stateAt (Streaming.pollNext dec z) start n))
      (s : Streaming δ)
      (visits : (Streaming.loop dec z).Visits (stateAt (Streaming.pollNext dec z) start n) s) :
      keep s := by
    induction visits with
    | here => exact before
    | @next t u visits turn ih =>
      have same : t.turn dec z = .again u := turn
      have next := turns t ⟨n, visits⟩ ih
      rw [same] at next
      exact next
  have between (n : Nat) : keep (stateAt (Streaming.pollNext dec z) start n) := by
    induction n with
    | zero => exact first
    | succ n ih =>
      apply run_rule (Streaming.loop dec z)
        (fun s => (Streaming.loop dec z).Visits
          (stateAt (Streaming.pollNext dec z) start n) s)
        (fun _ t => keep t)
      · intro s t visits turn
        exact .next visits turn
      · intro s r t visits turn
        have same : s.turn dec z = .done r t := turn
        have next := turns s ⟨n, visits⟩ (inside n ih s visits)
        rw [same] at next
        exact next
      · exact .here _
  refine ⟨between, ?_⟩
  rintro s ⟨n, visits⟩
  exact inside n (between n) s visits

theorem handed_logged {self : Streaming (δ × List Bytes)} (taken : Taken self.inner)
    {view : Bytes} (hands : handed z self.inner.encoding self.inner.maxMessageSize
      (unread self.inner) = some view) :
    view ∈ (self.pollNext (noting dec) z).2.decoder.2 := by
  have logs (s : Streaming (δ × List Bytes)) (checked : Checked s.inner)
      (here : s = self ∨ view ∈ s.decoder.2) :
      view ∈ (s.turn (noting dec) z).state.decoder.2 := by
    rw [turn_log dec z s checked]
    rcases here with rfl | old
    · simp [taken_running taken, hands]
    · exact List.mem_append_left _ old
  apply run_rule (Streaming.loop (noting dec) z)
    (fun s => Checked s.inner ∧ (s = self ∨ view ∈ s.decoder.2))
    (fun _ t => view ∈ t.decoder.2)
  · rintro s t ⟨checked, here⟩ turn
    have same : s.turn (noting dec) z = .again t := turn
    have next := logs s checked here
    have keeps := (turn_decoder (noting dec) z s).1.checked checked
    rw [same] at next keeps
    exact ⟨keeps, .inr next⟩
  · rintro s r t ⟨checked, here⟩ turn
    have same : s.turn (noting dec) z = .done r t := turn
    have next := logs s checked here
    rw [same] at next
    exact next
  · exact ⟨.inl taken, .inl rfl⟩

/-- Every buffer the decoder is handed is within the limit, and a compressed frame that
    decompresses to more is answered with OutOfRange. -/
def LimitHolds (start : Streaming (δ × List Bytes)) : Prop :=
  (∀ n, ∀ view ∈ (stateAt (Streaming.pollNext (noting dec) z) start n).decoder.2,
    view.length ≤ receiveLimit maxMessageSize) ∧
  ∀ s, Reached z (noting dec) start s → Inflates z s.inner →
    ∃ status, (s.decodeChunk (noting dec) z).1 = .error status ∧ status.code = .outOfRange

/-- The limit bounds what the decoder is given exactly as long as no frame decompresses
    past it. -/
theorem receive_limit_iff (decoder : δ) (body : Body Status) (direction : Direction)
    (encoding : Option CompressionEncoding) :
    LimitHolds dec z maxMessageSize (.new (decoder, []) body direction encoding maxMessageSize) ↔
      ∀ s, Reached z (noting dec)
        (.new (decoder, []) body direction encoding maxMessageSize) s → ¬ Inflates z s.inner := by
  have fresh : LoggedWithin maxMessageSize
      (.new (decoder, []) body direction encoding maxMessageSize) :=
    ⟨.inl trivial, rfl, by simp [Streaming.new]⟩
  constructor
  · rintro ⟨small, _⟩ s reached ⟨running, plain, inflates, large⟩
    obtain ⟨checked, limit⟩ := (reached_rule z (noting dec)
      (fun s => Checked s.inner ∧ s.inner.maxMessageSize = maxMessageSize)
      ⟨fresh.checked, fresh.limit⟩ fun s _ keep =>
        have keeps := (turn_decoder (noting dec) z s).1
        ⟨keeps.checked keep.1, keeps.maxMessageSize.trans keep.2⟩).2 s reached
    obtain ⟨n, visits⟩ := reached
    rcases checked with taken | failed
    · have logged := handed_logged dec z taken (inflated_handed z inflates)
      have same : (s.pollNext (noting dec) z).2 = stateAt (Streaming.pollNext (noting dec) z)
          (.new (decoder, []) body direction encoding maxMessageSize) (n + 1) :=
        congrArg Prod.snd (visits_run (Streaming.loop (noting dec) z) visits).symm
      rw [same] at logged
      have fits := small (n + 1) plain logged
      rw [limit] at large
      omega
    · rw [running] at failed
      cases failed
  · intro fits
    have within := reached_rule z (noting dec) (LoggedWithin maxMessageSize) fresh
      fun s reached keep => turn_within dec z maxMessageSize keep (fits s reached)
    constructor
    · intro n
      exact (within.1 n).logged
    · intro s reached inflates
      exact absurd inflates (fits s reached)

end Runs

def deflatedZeros : Bytes := [99, 96, 192, 4, 0]

/-- A frame of five payload bytes becomes twenty, where eight are allowed. -/
theorem limit_exceeded :
    let dec := plainDecoder fun bytes : Bytes => (.ok bytes : Except Status Bytes)
    let z : Compressors := ⟨fun _ _ => .ok deflatedZeros, fun _ packed =>
      if packed = deflatedZeros then .ok (List.replicate 20 0) else .error "corrupt deflate stream"⟩
    ¬ LimitHolds dec z (some 8) (.new ((), []) ⟨[.data ([1, 0, 0, 0, 5] ++ deflatedZeros)], .eof⟩
      .request (some .deflate) (some 8)) := by
  intro dec z holds
  let start : Streaming (Unit × List Bytes) := .new ((), [])
    ⟨[.data ([1, 0, 0, 0, 5] ++ deflatedZeros)], .eof⟩ .request (some .deflate) (some 8)
  let fed : StreamingInner := { start.inner with
    body := ⟨[], .eof⟩, buf := [1, 0, 0, 0, 5] ++ deflatedZeros }
  have feeds : (start.pollNext (noting dec) z).2 = (Streaming.pollNext (noting dec) z
      ⟨((), []), fed⟩).2 :=
    congrArg Prod.snd (run_again (Streaming.loop (noting dec) z) rfl)
  have logged : List.replicate 20 0 ∈
      (Streaming.pollNext (noting dec) z ⟨((), []), fed⟩).2.decoder.2 := by
    have taken : Taken fed := trivial
    have hands : handed z fed.encoding fed.maxMessageSize (unread fed) =
        some (List.replicate 20 0) := by decide
    exact handed_logged dec z taken hands
  have fits := holds.1 1 _ (feeds ▸ logged)
  revert fits
  decide

end ReceiveLimit
