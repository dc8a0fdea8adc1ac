import PureGrpc.PolledMachines

/-!
When one who polls cannot tell two machines apart. `Shows` follows a machine
for a while, `Reads` up to its first error or end; `Alike` machines show and read
the same items. Machines that answer alike step by step are alike, and alike
machines stay so as long as both give the same answers.
-/
namespace ComparedMachines
open PolledMachines

variable {σ τ α ε : Type} (poll : σ → Poll (Option (Except ε α)) × σ)
  (peer : τ → Poll (Option (Except ε α)) × τ)

inductive Shows : σ → List α → σ → Prop where
  | here (s) : Shows s [] s
  | wait {s t items u} (h : poll s = (.pending, t)) (rest : Shows t items u) : Shows s items u
  | item {s t a items u} (h : poll s = (.ready (some (.ok a)), t)) (rest : Shows t items u) :
      Shows s (a :: items) u

structure Alike (s : σ) (t : τ) : Prop where
  shows : ∀ items, (∃ u, Shows poll s items u) ↔ ∃ u, Shows peer t items u
  reads : ∀ items o, (∃ u, Reads poll s items o u) ↔ ∃ u, Reads peer t items o u

/-- In related states both machines answer the same, and stay related unless it was
    an error or the end. -/
def Lockstep (related : σ → τ → Prop) : Prop :=
  ∀ s t, related s t → (poll s).1 = (peer t).1 ∧
    ((poll s).1 = .pending ∨ (∃ a, (poll s).1 = .ready (some (.ok a))) →
      related (poll s).2 (peer t).2)

section Rules
variable {poll peer} {related : σ → τ → Prop}

theorem lockstep_flip (steps : Lockstep poll peer related) :
    Lockstep peer poll fun t s => related s t := by
  intro t s start
  obtain ⟨same, next⟩ := steps s t start
  rw [same] at next
  exact ⟨same.symm, next⟩

theorem shows_lockstep (steps : Lockstep poll peer related) {s u : σ} {t : τ} {items : List α}
    (start : related s t) (run : Shows poll s items u) : ∃ v, Shows peer t items v := by
  induction run generalizing t with
  | here s => exact ⟨t, .here t⟩
  | wait h _ ih =>
    obtain ⟨same, next⟩ := steps _ t start
    rw [h] at same next
    obtain ⟨v, later⟩ := ih (next (.inl rfl))
    exact ⟨v, .wait (Prod.ext same.symm rfl) later⟩
  | item h _ ih =>
    obtain ⟨same, next⟩ := steps _ t start
    rw [h] at same next
    obtain ⟨v, later⟩ := ih (next (.inr ⟨_, rfl⟩))
    exact ⟨v, .item (Prod.ext same.symm rfl) later⟩

theorem reads_lockstep (steps : Lockstep poll peer related) {s u : σ} {t : τ} {items : List α}
    {o : Option ε} (start : related s t) (run : Reads poll s items o u) :
    ∃ v, Reads peer t items o v := by
  induction run generalizing t with
  | stop h =>
    have same := (steps _ t start).1
    rw [h] at same
    exact ⟨_, .stop (Prod.ext same.symm rfl)⟩
  | fail h =>
    have same := (steps _ t start).1
    rw [h] at same
    exact ⟨_, .fail (Prod.ext same.symm rfl)⟩
  | wait h _ ih =>
    obtain ⟨same, next⟩ := steps _ t start
    rw [h] at same next
    obtain ⟨v, later⟩ := ih (next (.inl rfl))
    exact ⟨v, .wait (Prod.ext same.symm rfl) later⟩
  | item h _ ih =>
    obtain ⟨same, next⟩ := steps _ t start
    rw [h] at same next
    obtain ⟨v, later⟩ := ih (next (.inr ⟨_, rfl⟩))
    exact ⟨v, .item (Prod.ext same.symm rfl) later⟩

theorem alike_lockstep (steps : Lockstep poll peer related) {s : σ} {t : τ}
    (start : related s t) : Alike poll peer s t := by
  have back := lockstep_flip steps
  constructor
  · intro items
    constructor
    · intro ends
      obtain ⟨u, run⟩ := ends
      exact shows_lockstep steps start run
    · intro ends
      obtain ⟨u, run⟩ := ends
      exact shows_lockstep back start run
  · intro items o
    constructor
    · intro ends
      obtain ⟨u, run⟩ := ends
      exact reads_lockstep steps start run
    · intro ends
      obtain ⟨u, run⟩ := ends
      exact reads_lockstep back start run

end Rules

section Steps
variable {poll}

theorem shows_after_wait {s t : σ} (h : poll s = (.pending, t)) (items : List α) :
    (∃ u, Shows poll s items u) ↔ ∃ u, Shows poll t items u := by
  constructor
  · intro ends
    obtain ⟨u, run⟩ := ends
    cases run with
    | here => exact ⟨t, .here t⟩
    | wait h' rest =>
      cases h.symm.trans h'
      exact ⟨u, rest⟩
    | item h' _ => cases h.symm.trans h'
  · intro ends
    obtain ⟨u, run⟩ := ends
    exact ⟨u, .wait h run⟩

theorem shows_after_item {s t : σ} {a : α} (h : poll s = (.ready (some (.ok a)), t))
    (items : List α) : (∃ u, Shows poll s (a :: items) u) ↔ ∃ u, Shows poll t items u := by
  constructor
  · intro ends
    obtain ⟨u, run⟩ := ends
    cases run with
    | wait h' _ => cases h.symm.trans h'
    | item h' rest =>
      cases h.symm.trans h'
      exact ⟨u, rest⟩
  · intro ends
    obtain ⟨u, run⟩ := ends
    exact ⟨u, .item h run⟩

theorem reads_after_wait {s t : σ} (h : poll s = (.pending, t)) (items : List α) (o : Option ε) :
    (∃ u, Reads poll s items o u) ↔ ∃ u, Reads poll t items o u := by
  constructor
  · intro ends
    obtain ⟨u, run⟩ := ends
    cases run with
    | wait h' rest =>
      cases h.symm.trans h'
      exact ⟨u, rest⟩
    | stop h' => cases h.symm.trans h'
    | fail h' => cases h.symm.trans h'
    | item h' _ => cases h.symm.trans h'
  · intro ends
    obtain ⟨u, run⟩ := ends
    exact ⟨u, .wait h run⟩

theorem reads_after_item {s t : σ} {a : α} (h : poll s = (.ready (some (.ok a)), t))
    (items : List α) (o : Option ε) :
    (∃ u, Reads poll s (a :: items) o u) ↔ ∃ u, Reads poll t items o u := by
  constructor
  · intro ends
    obtain ⟨u, run⟩ := ends
    cases run with
    | wait h' _ => cases h.symm.trans h'
    | item h' rest =>
      cases h.symm.trans h'
      exact ⟨u, rest⟩
  · intro ends
    obtain ⟨u, run⟩ := ends
    exact ⟨u, .item h run⟩

variable {peer} {s u : σ} {t v : τ}

theorem alike_after_wait (alike : Alike poll peer s t) (h : poll s = (.pending, u))
    (h' : peer t = (.pending, v)) : Alike poll peer u v := by
  constructor
  · intro items
    rw [← shows_after_wait h, ← shows_after_wait h']
    exact alike.shows items
  · intro items o
    rw [← reads_after_wait h, ← reads_after_wait h']
    exact alike.reads items o

theorem alike_after_item {a : α} (alike : Alike poll peer s t)
    (h : poll s = (.ready (some (.ok a)), u)) (h' : peer t = (.ready (some (.ok a)), v)) :
    Alike poll peer u v := by
  constructor
  · intro items
    rw [← shows_after_item h, ← shows_after_item h']
    exact alike.shows (a :: items)
  · intro items o
    rw [← reads_after_item h, ← reads_after_item h']
    exact alike.reads (a :: items) o

end Steps

end ComparedMachines
