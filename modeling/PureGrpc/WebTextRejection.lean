import PureGrpc.WebTextDecoding

/-!
Text that is not base64. The decoder has no error of its own: a run that does not decode
is handed on as it is, and symbols left at the end are dropped, so only a body that fails
by itself is rejected.
-/
namespace WebTextRejection
open LengthFraming GrpcMetadata PolledMachines HttpBodies WebBodies WebTextDecoding

variable {ε : Type}

/-- Encodings that are padded each for itself, one behind the other. -/
def Segmented (text : Bytes) : Prop :=
  ∃ segments : List Bytes, text = segments.flatten ∧ ∀ segment ∈ segments, whole segment = true

/-- The bytes handed on are those of the frame, or of the run it completes. -/
def Decoded (s : GrpcWebCall (Body ε)) (out : Bytes) : Prop :=
  ∃ data rest, s.inner.chunks = .data data :: rest ∧
    (Base64Groups.decode .canonical data = some out ∨
      Base64Groups.decode .canonical (runOf s.buf data) = some out)

/-- Sooner or later there is an error, and only decoded bytes are handed on. -/
def Rejected (s : GrpcWebCall (Body ε)) : Prop :=
  (∃ n e, answerAt (GrpcWebCall.pollFrame Body.pollFrame) s n = .ready (some (.error e))) ∧
    ∀ n out, answerAt (GrpcWebCall.pollFrame Body.pollFrame) s n =
        .ready (some (.ok (.data out))) →
      Decoded (stateAt (GrpcWebCall.pollFrame Body.pollFrame) s n) out

def RejectsMalformed (body : Body ε) : Prop :=
  ¬ Segmented body.data → Rejected (GrpcWebCall.request body .base64)

def textCall (buf : Bytes) (chunks : List Chunk) (tail : Tail ε) : GrpcWebCall (Body ε) :=
  { GrpcWebCall.request ⟨chunks, tail⟩ .base64 with buf }

theorem segmented_groups (text : Bytes) :
    Segmented text ↔ (Base64Groups.groups text).isSome = true := by
  constructor
  · intro segmented
    obtain ⟨segments, rfl, decodes⟩ := segmented
    induction segments with
    | nil => rfl
    | cons segment segments ih =>
      obtain ⟨x, first⟩ := Option.isSome_iff_exists.mp (decodes segment List.mem_cons_self)
      obtain ⟨y, later⟩ := Option.isSome_iff_exists.mp
        (ih fun other mem => decodes other (List.mem_cons_of_mem segment mem))
      rw [List.flatten_cons,
        Base64Groups.groups_append (Base64Groups.groups_of_decode first) later]
      rfl
  · intro read
    fun_induction Base64Groups.groups text with
    | case1 => exact ⟨[], rfl, by simp⟩
    | case2 a b c d rest ih =>
      obtain ⟨out, reads⟩ := Option.isSome_iff_exists.mp read
      simp only [Option.bind_eq_bind, Option.bind_eq_some_iff, Option.some.injEq] at reads
      obtain ⟨head, first, tail, more, _⟩ := reads
      obtain ⟨segments, split, decodes⟩ := ih (by rw [more]; rfl)
      refine ⟨[a, b, c, d] :: segments, by rw [List.flatten_cons, ← split]; rfl, ?_⟩
      rw [List.forall_mem_cons]
      refine ⟨?_, decodes⟩
      simp [whole, Base64Groups.decode, first]
    | case3 => cases read

theorem rejected_step (s : GrpcWebCall (Body ε))
    (good : ∀ e, (GrpcWebCall.pollFrame Body.pollFrame s).1 ≠ .ready (some (.error e))) :
    Rejected s ↔
      (∀ out, (GrpcWebCall.pollFrame Body.pollFrame s).1 = .ready (some (.ok (.data out))) →
        Decoded s out) ∧
      Rejected (GrpcWebCall.pollFrame Body.pollFrame s).2 := by
  constructor
  · intro rejected
    obtain ⟨⟨n, e, failed⟩, decoded⟩ := rejected
    refine ⟨decoded 0, ?_, ?_⟩
    · cases n with
      | zero => exact absurd failed (good e)
      | succ n => exact ⟨n, e, (answer_at_shift _ s n).trans failed⟩
    · intro n out handed
      rw [state_at_shift]
      exact decoded (n + 1) out ((answer_at_shift _ s n).symm.trans handed)
  · intro rejected
    obtain ⟨first, ⟨n, e, failed⟩, decoded⟩ := rejected
    refine ⟨⟨n + 1, e, (answer_at_shift _ s n).symm.trans failed⟩, ?_⟩
    intro m out handed
    cases m with
    | zero => exact first out handed
    | succ m =>
      rw [← state_at_shift]
      exact decoded m out ((answer_at_shift _ s m).trans handed)

theorem handed_decoded (buf data : Bytes) (rest : List Chunk) (tail : Tail ε) :
    (∀ out, (decodeText (ε := ε) buf data).1 = .ready (some (.ok (.data out))) →
      Decoded (textCall buf (.data data :: rest) tail) out) ↔ RunDecodes (buf, data) := by
  obtain ⟨given, gives, answer⟩ := decode_text_gives (ε := ε) buf data
  constructor
  · intro decoded
    cases gives with
    | own alone => exact .inl (by rw [whole, alone]; rfl)
    | run _ run => exact .inr (by rw [whole, run]; rfl)
    | raw alone run =>
      rcases answer with now | ⟨empty, _⟩
      · obtain ⟨data', rest', same, own | whole⟩ := decoded (runOf buf data) (by rw [now])
        · cases same
          cases alone.symm.trans own
        · cases same
          cases run.symm.trans whole
      · rw [empty] at run
        cases run
  · intro decodes out handed
    refine ⟨data, rest, rfl, ?_⟩
    rcases answer with now | ⟨_, now⟩
    · rw [now] at handed
      cases handed
      cases gives with
      | own alone => exact .inl alone
      | run _ run => exact .inr run
      | raw alone run => simp [RunDecodes, whole, alone, run] at decodes
    · rw [now] at handed
      cases handed

theorem decode_text_good (buf data : Bytes) (e : ε) :
    (decodeText buf data).1 ≠ .ready (some (.error e)) := by
  obtain ⟨_, _, now | ⟨_, now⟩⟩ := decode_text_gives (ε := ε) buf data
  · rw [now]
    intro wrong
    cases wrong
  · rw [now]
    intro wrong
    cases wrong

theorem text_call_poll (buf data : Bytes) (rest : List Chunk) (tail : Tail ε) :
    GrpcWebCall.pollFrame Body.pollFrame (textCall buf (.data data :: rest) tail) =
      ((decodeText buf data).1, textCall (leftAfter buf data) rest tail) := by
  obtain ⟨_, _, now | ⟨_, now⟩⟩ := decode_text_gives (ε := ε) buf data
  · simp only [textCall, GrpcWebCall.request, GrpcWebCall.pollFrame, GrpcWebCall.pollDecode,
      Body.pollFrame, now]
  · simp only [textCall, GrpcWebCall.request, GrpcWebCall.pollFrame, GrpcWebCall.pollDecode,
      Body.pollFrame, now]

theorem over_rejected (buf : Bytes) (tail : Tail ε) :
    Rejected (textCall buf [] tail) ↔ ∃ e, tail = .error e := by
  have ended (n : Nat) : answerAt (GrpcWebCall.pollFrame Body.pollFrame)
      (textCall (ε := ε) buf [] .eof) n = .ready none := (end_stays (GrpcWebCall.pollFrame Body.pollFrame) rfl n).2
  cases tail with
  | eof =>
    constructor
    · intro rejected
      obtain ⟨⟨n, e, failed⟩, _⟩ := rejected
      cases (ended n).symm.trans failed
    · intro ended
      obtain ⟨e, wrong⟩ := ended
      cases wrong
  | trailers map =>
    constructor
    · intro rejected
      obtain ⟨⟨n, e, failed⟩, _⟩ := rejected
      cases n with
      | zero => cases failed
      | succ n =>
        rw [← answer_at_shift] at failed
        cases (ended n).symm.trans failed
    · intro ended
      obtain ⟨e, wrong⟩ := ended
      cases wrong
  | error e =>
    constructor
    · intro _
      exact ⟨e, rfl⟩
    · intro _
      refine ⟨⟨0, e, rfl⟩, ?_⟩
      intro n out handed
      cases n with
      | zero => cases handed
      | succ n =>
        rw [← answer_at_shift] at handed
        cases (ended n).symm.trans handed

theorem text_rejected (buf : Bytes) (chunks : List Chunk) (tail : Tail ε) :
    Rejected (textCall buf chunks tail) ↔
      (∃ e, tail = .error e) ∧ ∀ arrival ∈ arrivals buf chunks, RunDecodes arrival := by
  induction chunks generalizing buf with
  | nil =>
    rw [over_rejected]
    constructor
    · intro fails
      exact ⟨fails, by simp [arrivals]⟩
    · intro both
      obtain ⟨fails, _⟩ := both
      exact fails
  | cons chunk chunks ih =>
    cases chunk with
    | pending =>
      rw [rejected_step _ (by intro e wrong; cases wrong), arrivals, ← ih buf]
      constructor
      · intro both
        obtain ⟨_, later⟩ := both
        exact later
      · intro later
        exact ⟨(by intro out wrong; cases wrong), later⟩
    | data data =>
      have poll := text_call_poll buf data chunks tail
      have good := decode_text_good (ε := ε) buf data
      rw [rejected_step _ (by rw [poll]; exact good), poll, handed_decoded, ih, arrivals,
        List.forall_mem_cons]
      constructor
      · intro all
        obtain ⟨here, fails, later⟩ := all
        exact ⟨fails, here, later⟩
      · intro all
        obtain ⟨fails, here, later⟩ := all
        exact ⟨here, fails, later⟩

def leftAtEnd : Bytes → List Chunk → Bytes
  | buf, [] => buf
  | buf, .pending :: rest => leftAtEnd buf rest
  | buf, .data data :: rest => leftAtEnd (leftAfter buf data) rest

theorem decoded_segmented (buf : Bytes) (chunks : List Chunk) (tail : Tail ε)
    (aligned : ∀ arrival ∈ arrivals buf chunks, RunDecodes arrival ∧ ¬ Overtakes arrival)
    (empty : leftAtEnd buf chunks = []) : Segmented (buf ++ (Body.mk chunks tail).data) := by
  induction chunks generalizing buf with
  | nil =>
    rw [leftAtEnd] at empty
    rw [empty]
    exact ⟨[], rfl, by simp⟩
  | cons chunk chunks ih =>
    cases chunk with
    | pending => exact ih buf aligned empty
    | data data =>
      rw [arrivals, List.forall_mem_cons] at aligned
      obtain ⟨⟨decodes, apart⟩, later⟩ := aligned
      obtain ⟨given, gives, _⟩ := decode_text_gives (ε := ε) buf data
      obtain ⟨front, split, groups⟩ := gives_groups gives decodes apart
      have rest := ih (leftAfter buf data) later empty
      rw [segmented_groups] at rest ⊢
      obtain ⟨more, reads⟩ := Option.isSome_iff_exists.mp rest
      rw [body_data_cons, ← List.append_assoc, ← split, List.append_assoc,
        Base64Groups.groups_append groups reads]
      rfl

/-- Malformed text of a body that does not fail slips through in one of three ways. -/
theorem malformed_slips {body : Body ε} (malformed : ¬ Segmented body.data) :
    (∃ arrival ∈ arrivals [] body.chunks, ¬ RunDecodes arrival ∨ Overtakes arrival) ∨
      leftAtEnd [] body.chunks ≠ [] := by
  by_contra neither
  rw [not_or] at neither
  apply malformed
  apply decoded_segmented [] body.chunks body.tail
  · intro arrival mem
    by_contra wrong
    rw [not_and_or, not_not] at wrong
    exact neither.1 ⟨arrival, mem, wrong⟩
  · exact not_not.mp neither.2

/-- Malformed text is rejected exactly where the body underneath fails and no frame or run
of it is handed on as text. -/
theorem malformed_rejected (body : Body ε) :
    RejectsMalformed body ↔ Segmented body.data ∨
      (∃ e, body.tail = .error e) ∧ ∀ arrival ∈ arrivals [] body.chunks, RunDecodes arrival := by
  rw [← text_rejected, RejectsMalformed, or_iff_not_imp_left]
  rfl

/-- The text !!!! is handed on as it is, and of aGkha the lone symbol at the end is dropped;
neither body gives an error. -/
theorem malformed_accepted :
    let raw := Body.mk (ε := String) [.data [33, 33, 33, 33]] .eof
    let cut := Body.mk (ε := String) [.data [97, 71, 107, 104], .data [97]] .eof
    ¬ RejectsMalformed raw ∧ ¬ RejectsMalformed cut ∧
      answerAt (GrpcWebCall.pollFrame Body.pollFrame) (GrpcWebCall.request raw .base64) 0 =
        .ready (some (.ok (.data [33, 33, 33, 33]))) ∧
      (stateAt (GrpcWebCall.pollFrame Body.pollFrame) (GrpcWebCall.request cut .base64) 2).buf =
        [97] ∧
      answerAt (GrpcWebCall.pollFrame Body.pollFrame) (GrpcWebCall.request cut .base64) 2 =
        .ready none := by
  intro raw cut
  have accepted (body : Body String) (eof : body.tail = .eof)
      (malformed : (Base64Groups.groups body.data).isSome = false) : ¬ RejectsMalformed body := by
    intro rejects
    have rejected := rejects (by rw [segmented_groups, malformed]; decide)
    obtain ⟨⟨e, wrong⟩, _⟩ := (text_rejected [] body.chunks body.tail).mp rejected
    cases eof.symm.trans wrong
  exact ⟨accepted raw rfl (by decide), accepted cut rfl (by decide), by decide, by decide, by decide⟩

end WebTextRejection
