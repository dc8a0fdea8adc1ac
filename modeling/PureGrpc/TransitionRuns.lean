import Mathlib.Data.List.Basic

/-!
Runs of a step relation with labelled steps. A guard restricts a relation to
the steps it allows, so the runs of a guarded relation are the runs whose
steps are all allowed; what every allowed step keeps holds of every state such
a run reaches.
-/
namespace TransitionRuns

variable {σ α : Type} (step : σ → α → σ → Prop)

inductive Run : σ → List α → σ → Prop where
  | stop (s) : Run s [] s
  | next {s a t as u} (h : step s a t) (rest : Run t as u) : Run s (a :: as) u

def Guarded (allowed : σ → α → Prop) (s : σ) (a : α) (t : σ) : Prop := allowed s a ∧ step s a t

/-- The steps into states with a property; a run of them has it in every state it reaches. -/
def Reaching (keep : σ → Prop) (s : σ) (a : α) (t : σ) : Prop := step s a t ∧ keep t

variable {step}

theorem run_keeps {keep : σ → Prop} (steps : ∀ s a t, keep s → step s a t → keep t) {s t : σ}
    {as : List α} (start : keep s) (run : Run step s as t) : keep t := by
  induction run with
  | stop => exact start
  | next h _ ih => exact ih (steps _ _ _ start h)

/-- The invariant rule for runs whose steps are all allowed. -/
theorem guarded_run_keeps {allowed : σ → α → Prop} {keep : σ → Prop}
    (steps : ∀ s a t, keep s → allowed s a → step s a t → keep t) {s t : σ} {as : List α}
    (start : keep s) (run : Run (Guarded step allowed) s as t) : keep t :=
  run_keeps (fun s a t kept h => steps s a t kept h.1 h.2) start run

theorem run_imp {step' : σ → α → σ → Prop} {keep : σ → Prop}
    (steps : ∀ s a t, keep s → step s a t → step' s a t ∧ keep t) {s t : σ} {as : List α}
    (start : keep s) (run : Run step s as t) : Run step' s as t := by
  induction run with
  | stop => exact .stop _
  | next h _ ih =>
    obtain ⟨taken, kept⟩ := steps _ _ _ start h
    exact .next taken (ih kept)

/-- A guard is exact when it is what keeps an invariant and every step into a state with the
property has it: the runs it allows are those with the property in every state. -/
theorem guarded_iff_reaching {allowed : σ → α → Prop} {keep property : σ → Prop}
    (steps : ∀ s a t, keep s → allowed s a → step s a t → keep t)
    (holds : ∀ s, keep s → property s)
    (needs : ∀ s a t, keep s → step s a t → property t → allowed s a) {s t : σ} {as : List α}
    (start : keep s) : Run (Guarded step allowed) s as t ↔ Run (Reaching step property) s as t := by
  constructor
  · apply run_imp _ start
    intro s a t kept h
    have next := steps s a t kept h.1 h.2
    exact ⟨⟨h.2, holds t next⟩, next⟩
  · apply run_imp _ start
    intro s a t kept h
    have may := needs s a t kept h.1 h.2
    exact ⟨⟨may, h.1⟩, steps s a t kept may h.1⟩

end TransitionRuns
