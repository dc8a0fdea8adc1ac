import Mathlib.Data.Nat.Basic
import Mathlib.Tactic.Ring

/-!
Amounts counted in units of growing size, rounded down. `finest` takes the first
unit of a list whose count is within a limit. Rounding down loses less than one
unit; where a finer unit was over the limit, one unit is a small part of the amount.
-/
namespace FlooredUnits

variable {α : Type} {size : α → Nat} {limit amount : Nat} {unit : α} {units : List α}

def finest (size : α → Nat) (limit amount : Nat) : List α → Option α
  | [] => none
  | unit :: units =>
    if amount / size unit ≤ limit then some unit else finest size limit amount units

/-- Each unit is at most this many times the unit before it. -/
def Graded (size : α → Nat) (radix : Nat) : List α → Prop
  | unit :: next :: units =>
    size next ≤ radix * size unit ∧ Graded size radix (next :: units)
  | _ => True

instance gradedDecidable (size : α → Nat) (radix : Nat) :
    (units : List α) → Decidable (Graded size radix units)
  | [] => isTrue trivial
  | [_] => isTrue trivial
  | _ :: next :: units =>
    have := gradedDecidable size radix (next :: units)
    inferInstanceAs (Decidable (_ ∧ _))

theorem finest_within (found : finest size limit amount units = some unit) :
    unit ∈ units ∧ amount / size unit ≤ limit := by
  induction units with
  | nil => cases found
  | cons first units ih =>
    rw [finest] at found
    split at found
    · cases found
      exact ⟨List.mem_cons_self, by assumption⟩
    · obtain ⟨mem, within⟩ := ih found
      exact ⟨List.mem_cons_of_mem first mem, within⟩

theorem finest_found (mem : unit ∈ units) (within : amount / size unit ≤ limit) :
    ∃ found, finest size limit amount units = some found := by
  induction units with
  | nil => cases mem
  | cons first units ih =>
    rw [finest]
    split
    · exact ⟨first, rfl⟩
    · cases mem with
      | head => contradiction
      | tail _ later => exact ih later

theorem finest_skips (growing : units.Pairwise fun unit later => size unit < size later)
    (found : finest size limit amount units = some unit) :
    ∀ finer ∈ units, size finer < size unit → limit < amount / size finer := by
  induction units with
  | nil => cases found
  | cons first units ih =>
    rw [List.pairwise_cons] at growing
    intro finer mem less
    rw [finest] at found
    split at found
    · cases found
      cases mem with
      | head => omega
      | tail _ later =>
        have more := growing.1 finer later
        omega
    · cases mem with
      | head => omega
      | tail _ later => exact ih growing.2 found finer later less

theorem finest_before {radix : Nat} {first : α} (graded : Graded size radix (first :: units))
    (found : finest size limit amount (first :: units) = some unit) :
    unit = first ∨
      ∃ finer, size unit ≤ radix * size finer ∧ limit < amount / size finer := by
  induction units generalizing first with
  | nil =>
    obtain ⟨mem, _⟩ := finest_within found
    exact .inl (List.mem_singleton.mp mem)
  | cons next units ih =>
    rw [finest] at found
    split at found
    · cases found
      exact .inl rfl
    · right
      rcases ih graded.2 found with rfl | before
      · exact ⟨first, graded.1, by omega⟩
      · exact before

section Rounding
variable {size : Nat}

theorem floor_bounds (amount : Nat) (positive : 0 < size) :
    amount / size * size ≤ amount ∧ amount < (amount / size + 1) * size := by
  refine ⟨Nat.div_mul_le_self amount size, ?_⟩
  have split := Nat.div_add_mod amount size
  have less := Nat.mod_lt amount positive
  rw [Nat.add_mul, Nat.one_mul, Nat.mul_comm]
  omega

/-- Rounding down loses less than one part in `parts` once a finer unit is over the limit. -/
theorem floor_loss {radix parts finer : Nat} (positive : 0 < size) (near : size ≤ radix * finer)
    (fine : parts * radix ≤ limit + 1) (above : limit < amount / finer) :
    (amount - amount / size * size) * parts < amount := by
  obtain ⟨_, less⟩ := floor_bounds amount positive
  rw [Nat.add_mul, Nat.one_mul] at less
  have lost : amount - amount / size * size < size := by omega
  have counted : (limit + 1) * finer ≤ amount :=
    Nat.le_trans (Nat.mul_le_mul_right finer above) (Nat.div_mul_le_self amount finer)
  have unit : size * parts ≤ amount := by
    calc size * parts ≤ radix * finer * parts := Nat.mul_le_mul_right parts near
      _ = parts * radix * finer := by ring
      _ ≤ (limit + 1) * finer := Nat.mul_le_mul_right finer fine
      _ ≤ amount := counted
  by_cases none : parts = 0
  · subst none
    rw [Nat.mul_zero]
    by_contra zero
    have empty : amount = 0 := by omega
    subst empty
    simp at above
  · exact Nat.lt_of_lt_of_le (Nat.mul_lt_mul_of_pos_right lost (Nat.pos_of_ne_zero none)) unit

end Rounding
end FlooredUnits
