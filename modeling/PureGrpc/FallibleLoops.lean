import Mathlib.Data.List.Basic

/-!
Loops that stop at their first error. When such a loop gets through, each of its
steps did, and the loop did what its steps do without the errors.
-/
namespace FallibleLoops

variable {ε α β γ : Type}

theorem bind_ok {x : Except ε α} {next : α → Except ε β} {b : β} (run : x >>= next = .ok b) :
    ∃ a, x = .ok a ∧ next a = .ok b := by
  cases x with
  | error e => cases run
  | ok a => exact ⟨a, rfl, run⟩

theorem bind_error {x : Except ε α} {next : α → Except ε β} {e : ε}
    (run : x >>= next = .error e) : x = .error e ∨ ∃ a, x = .ok a ∧ next a = .error e := by
  cases x with
  | error other =>
    cases run
    exact .inl rfl
  | ok a => exact .inr ⟨a, rfl, run⟩

theorem map_error_ok {ε' : Type} {x : Except ε α} {change : ε → ε'} {a : α}
    (run : x.mapError change = .ok a) : x = .ok a := by
  cases x with
  | error e => cases run
  | ok b =>
    cases run
    rfl

/-- What a step gives for each item, one after the other. -/
def gather (f : α → Except ε (List β)) : List α → Except ε (List β)
  | [] => .ok []
  | a :: rest => do
    let here ← f a
    let later ← gather f rest
    return here ++ later

theorem gather_ok {f : α → Except ε (List β)} {items : List α} {all : List β}
    (run : gather f items = .ok all) :
    (∀ a ∈ items, ∃ here, f a = .ok here) ∧
      ∀ b, b ∈ all ↔ ∃ a ∈ items, ∃ here, f a = .ok here ∧ b ∈ here := by
  induction items generalizing all with
  | nil =>
    cases run
    exact ⟨(fun _ mem => nomatch mem), fun b => by simp⟩
  | cons a rest ih =>
    obtain ⟨here, first, run⟩ := bind_ok run
    obtain ⟨later, more, run⟩ := bind_ok run
    cases run
    obtain ⟨each, members⟩ := ih more
    constructor
    · rw [List.forall_mem_cons]
      exact ⟨⟨here, first⟩, each⟩
    · intro b
      rw [List.mem_append, members, List.exists_mem_cons_iff]
      simp only [first, Except.ok.injEq, exists_eq_left']

theorem gather_total {f : α → Except ε (List β)} {g : α → List β} {items : List α}
    (steps : ∀ a ∈ items, f a = .ok (g a)) : gather f items = .ok (items.flatMap g) := by
  induction items with
  | nil => rfl
  | cons a rest ih =>
    obtain ⟨here, later⟩ := List.forall_mem_cons.mp steps
    rw [gather, here, ih later]
    rfl

/-- The error of a loop is the error of its first step that has one. -/
theorem gather_error_iff {f : α → Except ε (List β)} {items : List α} {e : ε} :
    gather f items = .error e ↔ ∃ before a after, items = before ++ a :: after ∧
      (∀ b ∈ before, ∃ here, f b = .ok here) ∧ f a = .error e := by
  induction items with
  | nil => simp [gather]
  | cons a rest ih =>
    cases first : f a with
    | error other =>
      have stopped : gather f (a :: rest) = .error other := by
        rw [gather, first]
        rfl
      rw [stopped]
      constructor
      · intro same
        cases same
        exact ⟨[], a, rest, rfl, by simp, first⟩
      · intro located
        obtain ⟨before, b, after, split, passed, failed⟩ := located
        cases before with
        | nil =>
          cases split
          exact first.symm.trans failed
        | cons c before =>
          cases split
          obtain ⟨here, passes⟩ := passed a List.mem_cons_self
          cases first.symm.trans passes
    | ok here =>
      have goes : gather f (a :: rest) = .error e ↔ gather f rest = .error e := by
        rw [gather, first]
        cases gather f rest with
        | error other => exact Iff.rfl
        | ok later => exact ⟨(by intro wrong; cases wrong), (by intro wrong; cases wrong)⟩
      rw [goes, ih]
      constructor
      · intro located
        obtain ⟨before, b, after, split, passed, failed⟩ := located
        refine ⟨a :: before, b, after, by rw [split, List.cons_append], ?_, failed⟩
        exact List.forall_mem_cons.mpr ⟨⟨here, first⟩, passed⟩
      · intro located
        obtain ⟨before, b, after, split, passed, failed⟩ := located
        cases before with
        | nil =>
          cases split
          cases first.symm.trans failed
        | cons c before =>
          cases split
          exact ⟨before, b, after, rfl, (List.forall_mem_cons.mp passed).2, failed⟩

theorem fold_ok {step : γ → α → Except ε γ} {good : α → Prop} {total : γ → α → γ}
    (steps : ∀ s a t, step s a = .ok t → good a ∧ t = total s a) {items : List α} {s t : γ}
    (run : items.foldlM step s = .ok t) : (∀ a ∈ items, good a) ∧ t = items.foldl total s := by
  induction items generalizing s with
  | nil =>
    cases run
    exact ⟨(fun _ mem => nomatch mem), rfl⟩
  | cons a rest ih =>
    rw [List.foldlM_cons] at run
    obtain ⟨next, first, run⟩ := bind_ok run
    obtain ⟨here, rfl⟩ := steps s a next first
    obtain ⟨later, last⟩ := ih run
    rw [List.forall_mem_cons]
    exact ⟨⟨here, later⟩, last⟩

/-- A loop that carries a state fails where its first failing step does. -/
theorem fold_error_iff {step : γ → α → Except ε γ} {items : List α} {s : γ} {e : ε} :
    items.foldlM step s = .error e ↔ ∃ before a after t, items = before ++ a :: after ∧
      before.foldlM step s = .ok t ∧ step t a = .error e := by
  constructor
  · intro run
    induction items generalizing s with
    | nil => cases run
    | cons a rest ih =>
      rw [List.foldlM_cons] at run
      cases first : step s a with
      | error other =>
        rw [first] at run
        cases run
        exact ⟨[], a, rest, s, rfl, rfl, first⟩
      | ok next =>
        rw [first] at run
        obtain ⟨before, b, after, t, split, passed, failed⟩ := ih run
        refine ⟨a :: before, b, after, t, by rw [split, List.cons_append], ?_, failed⟩
        rw [List.foldlM_cons, first]
        exact passed
  · intro located
    obtain ⟨before, a, after, t, split, passed, failed⟩ := located
    rw [split, List.foldlM_append, passed]
    change (step t a >>= fun next => after.foldlM step next) = .error e
    rw [failed]
    rfl

end FallibleLoops
