import PureGrpc.WebBodies

/-!
Decoding the text form of a request as it arrives. A data frame that is
base64 by itself is decoded at once, others are buffered up to whole groups of
four. The decoded frames join up to the bytes that were encoded when no frame
of the first kind overtakes buffered symbols and no buffered run has padding
inside; a run with padding inside is passed on as text and makes too many bytes.
-/
namespace WebTextDecoding
open LengthFraming GrpcMetadata PolledMachines HttpBodies WebBodies

def whole (data : Bytes) : Bool := (Base64Groups.decode .canonical data).isSome

/-- The whole groups of the buffered symbols with a frame behind them. -/
def runOf (buf data : Bytes) : Bytes := (buf ++ data).take (alignedLen (buf ++ data))

def leftAfter (buf data : Bytes) : Bytes :=
  if whole data then buf else (buf ++ data).drop (alignedLen (buf ++ data))

def arrivals : Bytes → List Chunk → List (Bytes × Bytes)
  | _, [] => []
  | buf, .pending :: rest => arrivals buf rest
  | buf, .data data :: rest => (buf, data) :: arrivals (leftAfter buf data) rest

def Overtakes (arrival : Bytes × Bytes) : Prop :=
  whole arrival.2 = true ∧ arrival.2 ≠ [] ∧ arrival.1 ≠ []

def RunDecodes (arrival : Bytes × Bytes) : Prop :=
  whole arrival.2 = true ∨ whole (runOf arrival.1 arrival.2) = true

instance (arrival : Bytes × Bytes) : Decidable (Overtakes arrival) :=
  inferInstanceAs (Decidable (_ ∧ _ ∧ _))

instance (arrival : Bytes × Bytes) : Decidable (RunDecodes arrival) :=
  inferInstanceAs (Decidable (_ ∨ _))

variable {ε : Type}

/-- The bytes a frame gives: its own, those of the run, or the run as it stands. -/
inductive Gives (buf data : Bytes) : Bytes → Prop where
  | own {out} (h : Base64Groups.decode .canonical data = some out) : Gives buf data out
  | run {out} (alone : Base64Groups.decode .canonical data = none)
      (h : Base64Groups.decode .canonical (runOf buf data) = some out) : Gives buf data out
  | raw (alone : Base64Groups.decode .canonical data = none)
      (h : Base64Groups.decode .canonical (runOf buf data) = none) :
      Gives buf data (runOf buf data)

theorem run_split (buf data : Bytes) :
    runOf buf data ++ (buf ++ data).drop (alignedLen (buf ++ data)) = buf ++ data ∧
      (runOf buf data).length = alignedLen (buf ++ data) := by
  refine ⟨List.take_append_drop _ _, ?_⟩
  simp only [runOf, alignedLen, List.length_take]
  omega

theorem left_after_short {buf data : Bytes} (short : buf.length < 4) :
    (leftAfter buf data).length < 4 := by
  unfold leftAfter
  split
  · exact short
  · simp only [alignedLen, List.length_drop]
    omega

theorem decode_text_gives (buf data : Bytes) :
    ∃ out, Gives buf data out ∧
      (decodeText (ε := ε) buf data = (.ready (some (.ok (.data out))), leftAfter buf data) ∨
        out = [] ∧ decodeText (ε := ε) buf data = (.pending, leftAfter buf data)) := by
  cases alone : Base64Groups.decode .canonical data with
  | some out =>
    refine ⟨out, .own alone, .inl ?_⟩
    simp only [decodeText, leftAfter, whole, alone, Option.isSome_some, if_true]
  | none =>
    have size := (run_split buf data).2
    by_cases some_run : 0 < alignedLen (buf ++ data)
    · cases run : Base64Groups.decode .canonical (runOf buf data) with
      | some out =>
        refine ⟨out, .run alone run, .inl ?_⟩
        rw [runOf] at run
        simp [decodeText, leftAfter, whole, alone, run, some_run]
      | none =>
        refine ⟨_, .raw alone run, .inl ?_⟩
        rw [runOf] at run
        simp [decodeText, leftAfter, whole, alone, run, some_run, runOf]
    · have empty : runOf buf data = [] := List.eq_nil_of_length_eq_zero (by omega)
      refine ⟨[], .run alone (by rw [empty]; rfl), .inr ⟨rfl, ?_⟩⟩
      have none : alignedLen (buf ++ data) = 0 := by omega
      simp [decodeText, leftAfter, whole, alone, none]

def textRequest (buf : Bytes) (chunks : List Chunk) : GrpcWebCall (Body ε) :=
  { GrpcWebCall.request ⟨chunks, .eof⟩ .base64 with buf }

theorem carries_frame (buf data : Bytes) (rest : List Chunk) :
    ∃ out, Gives buf data out ∧ ∀ bytes,
      Carries (GrpcWebCall.pollFrame Body.pollFrame) (textRequest (ε := ε) buf (.data data :: rest))
          bytes .eof ↔
        ∃ more, bytes = out ++ more ∧ Carries (GrpcWebCall.pollFrame Body.pollFrame)
          (textRequest (ε := ε) (leftAfter buf data) rest) more .eof := by
  obtain ⟨out, gives, answer⟩ := decode_text_gives (ε := ε) buf data
  refine ⟨out, gives, ?_⟩
  intro bytes
  rcases answer with now | ⟨rfl, now⟩
  · have poll : GrpcWebCall.pollFrame Body.pollFrame (textRequest (ε := ε) buf (.data data :: rest)) =
        (.ready (some (.ok (.data out))), textRequest (leftAfter buf data) rest) := by
      simp only [textRequest, GrpcWebCall.request, GrpcWebCall.pollFrame, GrpcWebCall.pollDecode,
        Body.pollFrame, now]
    constructor
    · intro run
      cases run with
      | data h rest =>
        cases poll.symm.trans h
        exact ⟨_, rfl, rest⟩
      | eof h => cases poll.symm.trans h
      | wait h _ => cases poll.symm.trans h
    · rintro ⟨more, rfl, run⟩
      exact .data poll run
  · have poll : GrpcWebCall.pollFrame Body.pollFrame (textRequest (ε := ε) buf (.data data :: rest)) =
        (.pending, textRequest (leftAfter buf data) rest) := by
      simp only [textRequest, GrpcWebCall.request, GrpcWebCall.pollFrame, GrpcWebCall.pollDecode,
        Body.pollFrame, now]
    constructor
    · intro run
      cases run with
      | wait h rest =>
        cases poll.symm.trans h
        exact ⟨_, rfl, rest⟩
      | eof h => cases poll.symm.trans h
      | data h _ => cases poll.symm.trans h
    · rintro ⟨more, rfl, run⟩
      exact .wait poll run

/-- Where runs decode and nothing overtakes, a frame gives the bytes of the groups that
    leave the buffer. -/
theorem gives_groups {buf data out : Bytes} (gives : Gives buf data out)
    (decodes : RunDecodes (buf, data)) (apart : ¬ Overtakes (buf, data)) :
    ∃ front, front ++ leftAfter buf data = buf ++ data ∧ Base64Groups.groups front = some out := by
  cases gives with
  | own h =>
    have alone : whole data = true := by simp [whole, h]
    simp only [leftAfter, alone, if_true]
    by_cases empty : data = []
    · subst empty
      cases h
      exact ⟨[], by simp, rfl⟩
    · have clear : buf = [] := by
        by_contra held
        exact apart ⟨alone, empty, held⟩
      subst clear
      exact ⟨data, by simp, Base64Groups.groups_of_decode h⟩
  | run alone h =>
    simp only [leftAfter, whole, alone, Option.isSome_none, Bool.false_eq_true, if_false]
    exact ⟨_, (run_split buf data).1, Base64Groups.groups_of_decode h⟩
  | raw alone h => simp [RunDecodes, whole, alone, h] at decodes

theorem aligned_carries {chunks : List Chunk} {buf out : Bytes} (short : buf.length < 4)
    (aligned : ∀ arrival ∈ arrivals buf chunks, RunDecodes arrival ∧ ¬ Overtakes arrival)
    (text : Base64Groups.groups (buf ++ (Body.mk (ε := ε) chunks .eof).data) = some out) :
    Carries (GrpcWebCall.pollFrame Body.pollFrame) (textRequest (ε := ε) buf chunks) out .eof := by
  induction chunks generalizing buf out with
  | nil =>
    -- fewer than four symbols that are whole groups are none
    rw [body_data_nil, List.append_nil] at text
    have length := Base64Groups.groups_length text
    have empty : buf = [] := List.eq_nil_of_length_eq_zero (by omega)
    subst empty
    cases text
    exact .eof rfl
  | cons chunk chunks ih =>
    cases chunk with
    | pending => exact .wait rfl (ih short aligned text)
    | data data =>
      rw [arrivals, List.forall_mem_cons] at aligned
      obtain ⟨⟨decodes, apart⟩, later⟩ := aligned
      obtain ⟨given, gives, carries⟩ := carries_frame (ε := ε) buf data chunks
      obtain ⟨front, split, groups⟩ := gives_groups gives decodes apart
      rw [body_data_cons, ← List.append_assoc, ← split, List.append_assoc] at text
      obtain ⟨more, rest, joined⟩ := Base64Groups.groups_split groups text
      exact (carries out).mpr ⟨more, joined.symm, ih (left_after_short short) later rest⟩

theorem gives_size {buf data out : Bytes} (gives : Gives buf data out) :
    let symbols := 3 * (buf ++ data).length + 4 * (leftAfter buf data).count Base64Groups.pad
    let bytes := 4 * (out.length + (buf ++ data).count Base64Groups.pad) +
      3 * (leftAfter buf data).length
    (leftAfter buf data).length % 4 = (buf ++ data).length % 4 ∧ symbols ≤ bytes ∧
      (symbols = bytes → RunDecodes (buf, data)) := by
  have ofRun (alone : Base64Groups.decode .canonical data = none) :
      (leftAfter buf data).length + alignedLen (buf ++ data) = (buf ++ data).length ∧
      (runOf buf data).count Base64Groups.pad + (leftAfter buf data).count Base64Groups.pad =
        (buf ++ data).count Base64Groups.pad := by
    obtain ⟨split, size⟩ := run_split buf data
    simp only [leftAfter, whole, alone, Option.isSome_none, Bool.false_eq_true, if_false]
    rw [← List.count_append, split]
    refine ⟨?_, rfl⟩
    have total := congrArg List.length split
    rw [List.length_append, size] at total
    omega
  intro symbols bytes
  cases gives with
  | own h =>
    have alone : whole data = true := by simp [whole, h]
    have groups := Base64Groups.groups_of_decode h
    have length := Base64Groups.groups_length groups
    have size := Base64Groups.groups_size groups
    simp only [symbols, bytes, leftAfter, alone, if_true, List.length_append, List.count_append]
    exact ⟨by omega, by omega, fun _ => .inl alone⟩
  | run alone h =>
    obtain ⟨length, pads⟩ := ofRun alone
    have size := Base64Groups.groups_size (Base64Groups.groups_of_decode h)
    rw [(run_split buf data).2] at size
    simp only [symbols, bytes]
    refine ⟨?_, ?_, fun _ => .inr ?_⟩
    · simp only [alignedLen] at length
      omega
    · omega
    · simp only [whole, h, Option.isSome_some]
  | raw alone h =>
    obtain ⟨length, pads⟩ := ofRun alone
    have size := (run_split buf data).2
    have nonempty : runOf buf data ≠ [] := by
      intro empty
      rw [empty] at h
      cases h
    have positive := List.length_pos_iff.mpr nonempty
    simp only [symbols, bytes]
    refine ⟨?_, ?_, fun same => ?_⟩
    · simp only [alignedLen] at length
      omega
    · omega
    · omega

/-- Whole groups of symbols carry at least the bytes they stand for, and no more only if
    every run decodes. -/
theorem carries_size {chunks : List Chunk} {buf out : Bytes} (short : buf.length < 4)
    (run : Carries (GrpcWebCall.pollFrame Body.pollFrame) (textRequest (ε := ε) buf chunks) out .eof) :
    let text := buf ++ (Body.mk (ε := ε) chunks .eof).data
    text.length % 4 = 0 →
      3 * text.length ≤ 4 * (out.length + text.count Base64Groups.pad) ∧
      (3 * text.length = 4 * (out.length + text.count Base64Groups.pad) →
        ∀ arrival ∈ arrivals buf chunks, RunDecodes arrival) := by
  induction chunks generalizing buf out with
  | nil =>
    intro text length
    simp only [text, body_data_nil, List.append_nil] at length ⊢
    have empty : buf = [] := List.eq_nil_of_length_eq_zero (by omega)
    subst empty
    constructor
    · simp
    · intro _ arrival none
      cases none
  | cons chunk chunks ih =>
    cases chunk with
    | pending =>
      cases run with
      | wait h rest =>
        cases h
        exact ih short rest
      | eof h => cases h
      | data h _ => cases h
    | data data =>
      obtain ⟨given, gives, carries⟩ := carries_frame (ε := ε) buf data chunks
      obtain ⟨more, rfl, rest⟩ := (carries out).mp run
      have later := ih (left_after_short short) rest
      obtain ⟨aligned, least, exact_run⟩ := gives_size gives
      intro text length
      simp only [List.length_append, List.count_append] at later least exact_run aligned
      simp only [text, body_data_cons, List.length_append, List.count_append] at length ⊢
      obtain ⟨more_least, more_exact⟩ := later (by omega)
      refine ⟨by omega, ?_⟩
      intro same
      rw [arrivals, List.forall_mem_cons]
      exact ⟨exact_run (by omega), more_exact (by omega)⟩

/-- Text is decoded to the bytes it encodes, also when it joins several encodings that
    are padded each for itself, if every run decodes and no frame overtakes buffered
    symbols; and it is not if some run does not decode. -/
theorem text_decoded (parts : List Bytes) (chunks : List Chunk)
    (cut : (Body.mk (ε := ε) chunks .eof).data = parts.flatMap (Base64Groups.encode true)) :
    ((∀ arrival ∈ arrivals [] chunks, RunDecodes arrival ∧ ¬ Overtakes arrival) →
      Carries (GrpcWebCall.pollFrame Body.pollFrame)
        (GrpcWebCall.request (Body.mk (ε := ε) chunks .eof) .base64) parts.flatten .eof) ∧
    (Carries (GrpcWebCall.pollFrame Body.pollFrame)
        (GrpcWebCall.request (Body.mk (ε := ε) chunks .eof) .base64) parts.flatten .eof →
      ∀ arrival ∈ arrivals [] chunks, RunDecodes arrival) := by
  have text : Base64Groups.groups ([] ++ (Body.mk (ε := ε) chunks .eof).data) =
      some parts.flatten := by
    rw [List.nil_append, cut]
    exact Base64Groups.groups_encodings parts
  constructor
  · intro aligned
    exact aligned_carries (by simp) aligned text
  · intro run
    have size := Base64Groups.groups_size text
    exact (carries_size (by simp) run (Base64Groups.groups_length text)).2 size.symm

/-- Two parts, the first cut inside its only group. -/
theorem two_parts_decoded :
    let chunks := [.data (asBytes "aG"), .pending, .data (asBytes "k="), .data (asBytes "IQ==")]
    Carries (GrpcWebCall.pollFrame Body.pollFrame)
      (GrpcWebCall.request (Body.mk (ε := String) chunks .eof) .base64) (asBytes "hi!") .eof :=
  (text_decoded [asBytes "hi", asBytes "!"] _ (by decide)).1 (by decide)

/-- AQIDBAUG cut behind its first symbol: the four symbols of the second frame are
    base64 by themselves and overtake it. -/
theorem frame_overtakes_symbol :
    let body := Body.mk (ε := String) [.data [65], .data [81, 73, 68, 66], .data [65, 85, 71]] .eof
    body.data = [[1, 2, 3, 4, 5, 6]].flatMap (Base64Groups.encode true) ∧
    ¬ Carries (GrpcWebCall.pollFrame Body.pollFrame) (GrpcWebCall.request body .base64)
      [1, 2, 3, 4, 5, 6] .eof := by
  refine ⟨by decide, ?_⟩
  have run : Carries (GrpcWebCall.pollFrame Body.pollFrame)
      (textRequest (ε := String) [] [.data [65], .data [81, 73, 68, 66], .data [65, 85, 71]])
      ([64, 128, 193] ++ ([0, 5, 6] ++ [])) .eof :=
    .wait (t := textRequest [65] [.data [81, 73, 68, 66], .data [65, 85, 71]]) rfl
      (.data (t := textRequest [65] [.data [65, 85, 71]]) rfl
        (.data (t := textRequest [] []) rfl (.eof (t := textRequest [] []) rfl)))
  intro claimed
  have same := (carries_unique _ run claimed).1
  cases same

end WebTextDecoding
