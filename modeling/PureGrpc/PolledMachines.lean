import Mathlib.Data.List.Basic

/-!
Machines that are polled: each poll answers Pending, an item, or the end, and
moves to a next state. `Drains` follows a machine to its first end; `Reads`
stops at the first error item as well. `Loop` is a loop body with a budget
that every further turn spends, so running it is total.
-/
namespace PolledMachines

inductive Poll (α : Type) where
  | pending
  | ready (value : α)
  deriving DecidableEq, Repr

/-- One turn of a loop body: return a result, or go round again. -/
inductive Turn (ρ σ : Type) where
  | done (result : ρ) (state : σ)
  | again (state : σ)

def Turn.state {ρ σ : Type} : Turn ρ σ → σ
  | .done _ state => state
  | .again state => state

def Turn.shown {ρ ρ' σ : Type} (f : ρ → ρ') : Turn ρ σ → Turn ρ' σ
  | .done result state => .done (f result) state
  | .again state => .again state

structure Loop (ρ σ : Type) where
  turn : σ → Turn ρ σ
  budget : σ → Nat
  spends : ∀ {s t}, turn s = .again t → budget t < budget s

section Tasks
variable {ρ σ : Type} (turn : σ → Turn ρ σ)

inductive Returns : σ → ρ → σ → Prop where
  | done {s r t} (h : turn s = .done r t) : Returns s r t
  | again {s t r u} (h : turn s = .again t) (later : Returns t r u) : Returns s r u

theorem returns_unique {s t u : σ} {r q : ρ} (one : Returns turn s r t)
    (other : Returns turn s q u) : r = q ∧ t = u := by
  induction one with
  | done h =>
    cases other with
    | done h' =>
      cases h.symm.trans h'
      exact ⟨rfl, rfl⟩
    | again h' _ => cases h.symm.trans h'
  | again h _ ih =>
    cases other with
    | done h' => cases h.symm.trans h'
    | again h' later =>
      cases h.symm.trans h'
      exact ih later

end Tasks

section Loops
variable {ρ σ : Type} (l : Loop ρ σ)

def Loop.run (s : σ) : ρ × σ :=
  match _turn : l.turn s with
  | .done r t => (r, t)
  | .again t => run t
termination_by l.budget s
decreasing_by exact l.spends _turn

theorem run_done {s t : σ} {r : ρ} (h : l.turn s = .done r t) : l.run s = (r, t) := by
  rw [Loop.run]
  split
  · rename_i r' t' h'
    rw [h] at h'
    cases h'
    rfl
  · rename_i t' h'
    rw [h] at h'
    cases h'

theorem run_again {s t : σ} (h : l.turn s = .again t) : l.run s = l.run t := by
  rw [Loop.run]
  split
  · rename_i r' t' h'
    rw [h] at h'
    cases h'
  · rename_i t' h'
    rw [h] at h'
    cases h'
    rfl

inductive Loop.Visits : σ → σ → Prop where
  | here (s) : Visits s s
  | next {s t u} (h : Visits s t) (turn : l.turn t = .again u) : Visits s u

theorem visits_done {s t u : σ} {r : ρ} (done : l.turn s = .done r u) (visits : l.Visits s t) :
    t = s := by
  induction visits with
  | here => rfl
  | next _ turn ih =>
    rw [ih, done] at turn
    cases turn

theorem visits_run {s t : σ} (visits : l.Visits s t) : l.run s = l.run t := by
  induction visits with
  | here => rfl
  | next _ turn ih => rw [ih, run_again l turn]

/-- The loop rule: what every turn keeps and every return establishes holds of
    the result of the whole loop. -/
theorem run_rule (keep : σ → Prop) (post : ρ → σ → Prop)
    (again : ∀ s t, keep s → l.turn s = .again t → keep t)
    (done : ∀ s r t, keep s → l.turn s = .done r t → post r t)
    (s : σ) (start : keep s) : post (l.run s).1 (l.run s).2 := by
  induction h : l.budget s using Nat.strongRecOn generalizing s with
  | ind n ih =>
    cases turn : l.turn s with
    | done r t =>
      rw [run_done l turn]
      exact done s r t start turn
    | again t =>
      rw [run_again l turn]
      exact ih (l.budget t) (h ▸ l.spends turn) t (again s t start turn) rfl

theorem run_shown {ρ' : Type} (l' : Loop ρ' σ) (f : ρ → ρ')
    (same : ∀ s, l'.turn s = (l.turn s).shown f) (s : σ) :
    l'.run s = (f (l.run s).1, (l.run s).2) := by
  induction h : l.budget s using Nat.strongRecOn generalizing s with
  | ind n ih =>
    have turns := same s
    cases turn : l.turn s with
    | done r t =>
      rw [turn] at turns
      rw [run_done l turn, run_done l' turns]
    | again t =>
      rw [turn] at turns
      rw [run_again l turn, run_again l' turns]
      exact ih (l.budget t) (h ▸ l.spends turn) t rfl

end Loops

section Machines
variable {σ α : Type} (poll : σ → Poll (Option α) × σ)

/-- Polled up to its first end, the machine gives exactly these items. -/
inductive Drains : σ → List α → σ → Prop where
  | stop {s t} (h : poll s = (.ready none, t)) : Drains s [] t
  | wait {s t items u} (h : poll s = (.pending, t)) (rest : Drains t items u) :
      Drains s items u
  | item {s t a items u} (h : poll s = (.ready (some a), t)) (rest : Drains t items u) :
      Drains s (a :: items) u

/-- How the items go on from one answer of the machine. -/
def Follows (answer : Poll (Option α) × σ) (items : List α) (t : σ) : Prop :=
  match answer with
  | (.pending, s) => Drains poll s items t
  | (.ready none, s) => items = [] ∧ s = t
  | (.ready (some a), s) => ∃ rest, items = a :: rest ∧ Drains poll s rest t

theorem drains_of_follows {s t : σ} {items : List α} (h : Follows poll (poll s) items t) :
    Drains poll s items t := by
  cases answer : poll s with
  | mk a next =>
    rw [answer] at h
    rcases a with _ | _ | a
    · exact .wait answer h
    · obtain ⟨rfl, rfl⟩ := h
      exact .stop answer
    · obtain ⟨rest, rfl, later⟩ := h
      exact .item answer later

/-- The state before the poll with number n, counting from 0. -/
def stateAt (s : σ) : Nat → σ
  | 0 => s
  | n + 1 => (poll (stateAt s n)).2

def answerAt (s : σ) (n : Nat) : Poll (Option α) := (poll (stateAt poll s n)).1

theorem state_at_shift (s : σ) (n : Nat) :
    stateAt poll (poll s).2 n = stateAt poll s (n + 1) := by
  induction n with
  | zero => rfl
  | succ n ih => simp only [stateAt, ih]

theorem polls_keep {keep : σ → Prop} {gives : Poll (Option α) → Prop}
    (step : ∀ s, keep s → gives (poll s).1 ∧ keep (poll s).2) {s : σ} (start : keep s) (n : Nat) :
    gives (answerAt poll s n) := by
  have kept : keep (stateAt poll s n) := by
    induction n with
    | zero => exact start
    | succ n ih => exact (step _ ih).2
  exact (step _ kept).1

def itemsOf : Poll (Option α) → List α
  | .ready (some a) => [a]
  | _ => []

def given (s : σ) : Nat → List α
  | 0 => []
  | n + 1 => given s n ++ itemsOf (answerAt poll s n)

theorem polls_account {keep : List α → σ → Prop}
    (step : ∀ items s, keep items s → keep (items ++ itemsOf (poll s).1) (poll s).2) {s : σ}
    (start : keep [] s) (n : Nat) : keep (given poll s n) (stateAt poll s n) := by
  induction n with
  | zero => exact start
  | succ n ih => exact step _ _ ih

theorem end_stays {s : σ} (h : poll s = (.ready none, s)) (n : Nat) :
    stateAt poll s n = s ∧ answerAt poll s n = .ready none := by
  have state : stateAt poll s n = s := by
    induction n with
    | zero => rfl
    | succ n ih => rw [stateAt, ih, h]
  exact ⟨state, by rw [answerAt, state, h]⟩

end Machines

section Fallible
variable {σ α ε : Type} (poll : σ → Poll (Option (Except ε α)) × σ)

/-- Polled up to its first error or end, the machine gives these good items. -/
inductive Reads : σ → List α → Option ε → σ → Prop where
  | stop {s t} (h : poll s = (.ready none, t)) : Reads s [] none t
  | fail {s t e} (h : poll s = (.ready (some (.error e)), t)) : Reads s [] (some e) t
  | wait {s t items o u} (h : poll s = (.pending, t)) (rest : Reads t items o u) :
      Reads s items o u
  | item {s t a items o u} (h : poll s = (.ready (some (.ok a)), t))
      (rest : Reads t items o u) : Reads s (a :: items) o u

theorem reads_unique {s u v : σ} {as bs : List α} {o p : Option ε}
    (left : Reads poll s as o u) (right : Reads poll s bs p v) :
    as = bs ∧ o = p ∧ u = v := by
  induction left generalizing bs with
  | stop h => cases right <;> simp_all
  | fail h =>
    cases right with
    | fail h' =>
      have same := h.symm.trans h'
      cases same
      exact ⟨rfl, rfl, rfl⟩
    | stop h' => simp_all
    | wait h' _ => simp_all
    | item h' _ => simp_all
  | wait h rest ih =>
    cases right with
    | wait h' rest' =>
      have same := h.symm.trans h'
      cases same
      exact ih rest'
    | stop h' => simp_all
    | fail h' => simp_all
    | item h' _ => simp_all
  | item h rest ih =>
    cases right with
    | item h' rest' =>
      have same := h.symm.trans h'
      cases same
      obtain ⟨items, outcome, last⟩ := ih rest'
      exact ⟨by rw [items], outcome, last⟩
    | stop h' => simp_all
    | fail h' => simp_all
    | wait h' _ => simp_all

theorem reads_same_poll {s t u : σ} {items : List α} {o : Option ε} (same : poll s = poll t)
    (run : Reads poll t items o u) : Reads poll s items o u := by
  cases run with
  | stop h => exact .stop (same.trans h)
  | fail h => exact .fail (same.trans h)
  | wait h rest => exact .wait (same.trans h) rest
  | item h rest => exact .item (same.trans h) rest

/-- Good items and Pending for a while, then at most two errors, then the end for good. -/
def Settles (s : σ) : Prop :=
  ∃ good bad, bad ≤ 2 ∧
    (∀ n < good, answerAt poll s n = .pending ∨ ∃ a, answerAt poll s n = .ready (some (.ok a))) ∧
    (∀ n, good ≤ n → n < good + bad → ∃ e, answerAt poll s n = .ready (some (.error e))) ∧
    ∀ n, good + bad ≤ n → answerAt poll s n = .ready none

theorem answer_at_shift (s : σ) (n : Nat) :
    answerAt poll (poll s).2 n = answerAt poll s (n + 1) := by
  rw [answerAt, answerAt, state_at_shift]

theorem settles_finished {s : σ} (finished : ∀ n, answerAt poll s n = .ready none) : Settles poll s :=
  ⟨0, 0, by omega, by omega, by omega, fun n _ => finished n⟩

theorem settles_after {s : σ}
    (good : (poll s).1 = .pending ∨ ∃ a, (poll s).1 = .ready (some (.ok a)))
    (later : Settles poll (poll s).2) : Settles poll s := by
  obtain ⟨i, j, few, front, errors, finished⟩ := later
  refine ⟨i + 1, j, few, ?_, ?_, ?_⟩
  · intro n within
    cases n with
    | zero => exact good
    | succ n =>
      rw [← answer_at_shift]
      exact front n (by omega)
  · intro n from_good within
    obtain ⟨n, rfl⟩ := Nat.exists_eq_add_of_le' (by omega : 1 ≤ n)
    rw [← answer_at_shift]
    exact errors n (by omega) (by omega)
  · intro n late
    obtain ⟨n, rfl⟩ := Nat.exists_eq_add_of_le' (by omega : 1 ≤ n)
    rw [← answer_at_shift]
    exact finished n (by omega)

theorem settled_answers {s : σ} (settles : Settles poll s) :
    (∀ e, (poll s).1 = .ready (some (.error e)) → ∀ n a,
      answerAt poll s n ≠ .ready (some (.ok a))) ∧
    ∃ n, answerAt poll s n = .ready none := by
  obtain ⟨good, bad, _, front, errors, finished⟩ := settles
  refine ⟨?_, good + bad, finished _ (Nat.le_refl _)⟩
  intro e first n a item
  have none : good = 0 := by
    by_contra some
    rcases front 0 (by omega) with pending | ⟨b, ok⟩
    · cases first.symm.trans pending
    · cases first.symm.trans ok
  by_cases early : n < good + bad
  · obtain ⟨e', error⟩ := errors n (by omega) early
    cases error.symm.trans item
  · cases (finished n (by omega)).symm.trans item

theorem settles_failing {s : σ} (bad : Nat) (few : bad ≤ 2)
    (errors : ∀ n < bad, ∃ e, answerAt poll s n = .ready (some (.error e)))
    (finished : ∀ n, bad ≤ n → answerAt poll s n = .ready none) : Settles poll s :=
  ⟨0, bad, few, by omega, fun n _ within => errors n (by omega), fun n late => finished n (by omega)⟩

/-- A machine settles when its live polls use up a measure, an error closes it or
    is repeated once, and once finished it stays finished. Each poll of the run may be
    assumed to start in an allowed state. -/
theorem settles_rule (allowed live failing finished : σ → Prop) (measure : σ → Nat)
    (live_step : ∀ s, allowed s → live s →
      (((poll s).1 = .pending ∨ ∃ a, (poll s).1 = .ready (some (.ok a))) ∧
        live (poll s).2 ∧ measure (poll s).2 < measure s) ∨
      ((∃ e, (poll s).1 = .ready (some (.error e))) ∧
        (failing (poll s).2 ∨ finished (poll s).2)) ∨
      ((poll s).1 = .ready none ∧ finished (poll s).2))
    (failing_step : ∀ s, failing s →
      (∃ e, (poll s).1 = .ready (some (.error e))) ∧ finished (poll s).2)
    (finished_step : ∀ s, allowed s → finished s → (poll s).1 = .ready none ∧ finished (poll s).2)
    (s : σ) (run : ∀ n, allowed (stateAt poll s n)) (start : live s) : Settles poll s := by
  have tail {s : σ} (run : ∀ n, allowed (stateAt poll s n)) :
      ∀ n, allowed (stateAt poll (poll s).2 n) := by
    intro n
    rw [state_at_shift]
    exact run (n + 1)
  have stays (s : σ) (run : ∀ n, allowed (stateAt poll s n)) (done : finished s) (n : Nat) :
      answerAt poll s n = .ready none := by
    have here : ∀ n, finished (stateAt poll s n) := by
      intro n
      induction n with
      | zero => exact done
      | succ n ih => exact (finished_step _ (run n) ih).2
    exact (finished_step _ (run n) (here n)).1
  induction size : measure s using Nat.strongRecOn generalizing s with
  | ind n ih =>
    rcases live_step s (run 0) start with ⟨good, next, less⟩ | ⟨error, next⟩ | ⟨ended, next⟩
    · exact settles_after poll good (ih _ (size ▸ less) _ (tail run) next rfl)
    · rcases next with again | closed
      · obtain ⟨repeated, closed⟩ := failing_step _ again
        have rest := stays _ (tail (tail run)) closed
        refine settles_failing poll 2 (by omega) ?_ ?_
        · intro n within
          match n, within with
          | 0, _ => exact error
          | 1, _ =>
            rw [← answer_at_shift]
            exact repeated
        · intro n late
          obtain ⟨n, rfl⟩ := Nat.exists_eq_add_of_le' late
          rw [← answer_at_shift, ← answer_at_shift]
          exact rest n
      · have rest := stays _ (tail run) closed
        refine settles_failing poll 1 (by omega) ?_ ?_
        · intro n within
          match n, within with
          | 0, _ => exact error
        · intro n late
          obtain ⟨n, rfl⟩ := Nat.exists_eq_add_of_le' late
          rw [← answer_at_shift]
          exact rest n
    · have rest := stays _ (tail run) next
      apply settles_finished
      intro n
      cases n with
      | zero => exact ended
      | succ n =>
        rw [← answer_at_shift]
        exact rest n

def goodItems : List (Except ε α) → List α
  | .ok a :: rest => a :: goodItems rest
  | _ => []

def firstError : List (Except ε α) → Option ε
  | [] => none
  | .ok _ :: rest => firstError rest
  | .error e :: _ => some e

theorem good_items_append (as : List α) (rest : List (Except ε α)) :
    goodItems (as.map .ok ++ rest) = as ++ goodItems rest ∧
      firstError (as.map .ok ++ rest) = firstError rest := by
  induction as with
  | nil => exact ⟨rfl, rfl⟩
  | cons a as ih => exact ⟨by simp [goodItems, ih.1], by simp [firstError, ih.2]⟩

theorem reads_of_drains {s t : σ} {items : List (Except ε α)} (run : Drains poll s items t) :
    ∃ u, Reads poll s (goodItems items) (firstError items) u := by
  induction run with
  | stop h => exact ⟨_, .stop h⟩
  | wait h _ ih =>
    obtain ⟨u, later⟩ := ih
    exact ⟨u, .wait h later⟩
  | @item s t a items v h _ ih =>
    cases a with
    | error e => exact ⟨t, .fail h⟩
    | ok a =>
      obtain ⟨u, later⟩ := ih
      exact ⟨u, .item h later⟩

end Fallible

end PolledMachines
