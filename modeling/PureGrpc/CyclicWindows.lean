import Mathlib.Data.Nat.ModEq
import Mathlib.Data.List.Nodup
import Mathlib.Data.List.Perm.Subperm

/-!
Residues of a counter that itself wraps. `picks` are the residues modulo n of a
counter that runs modulo m; a window of n of them is fair when every residue
occurs in it once. Across the wrap that depends on whether n divides m.
-/
namespace CyclicWindows

variable (m n : Nat)

def picks (start count : Nat) : List Nat := (List.range count).map fun i => (start + i) % m % n

def Fair (window : List Nat) : Prop := ∀ j < n, window.count j = 1

theorem picks_length (start count : Nat) : (picks m n start count).length = count := by
  rw [picks, List.length_map, List.length_range]

theorem picks_one (start : Nat) : picks m n start 1 = [start % m % n] := rfl

theorem picks_add (start a b : Nat) :
    picks m n start (a + b) = picks m n start a ++ picks m n (start + a) b := by
  simp only [picks, List.range_add, List.map_append, List.map_map, Function.comp_def,
    Nat.add_assoc]

theorem picks_wrap (start count : Nat) : picks m n (start % m) count = picks m n start count := by
  simp only [picks, Nat.mod_add_mod]

theorem picks_part {start count : Nat} {before window after : List Nat}
    (parts : picks m n start count = before ++ window ++ after) :
    before.length + window.length ≤ count ∧
      window = picks m n (start + before.length) window.length := by
  have size := picks_length m n start count
  rw [parts, List.length_append, List.length_append] at size
  refine ⟨by omega, ?_⟩
  rw [← size, picks_add, picks_add] at parts
  have left := List.append_inj_left parts (by simp [picks_length])
  exact (List.append_inj_right left (by simp [picks_length])).symm

variable {n}

theorem picks_below (positive : 0 < n) {start count j : Nat} (mem : j ∈ picks m n start count) : j < n := by
  obtain ⟨i, _, rfl⟩ := List.mem_map.mp mem
  exact Nat.mod_lt _ positive

theorem fair_iff_nodup {window : List Nat} (size : window.length = n)
    (below : ∀ j ∈ window, j < n) : Fair n window ↔ window.Nodup := by
  constructor
  · intro fair
    rw [List.nodup_iff_count_le_one]
    intro j
    by_cases mem : j ∈ window
    · exact le_of_eq (fair j (below j mem))
    · rw [List.count_eq_zero_of_not_mem mem]
      exact Nat.zero_le 1
  · intro nodup j small
    have inside : window ⊆ List.range n := fun i mem => List.mem_range.mpr (below i mem)
    have perm : window.Perm (List.range n) :=
      (List.subperm_of_subset nodup inside).perm_of_length_le (by rw [size, List.length_range])
    rw [perm.count_eq, List.count_eq_one_of_mem List.nodup_range (List.mem_range.mpr small)]

theorem fair_picks_iff_nodup (positive : 0 < n) (start : Nat) :
    Fair n (picks m n start n) ↔ (picks m n start n).Nodup :=
  fair_iff_nodup (picks_length m n start n) fun _ mem => picks_below m positive mem

theorem picks_repeat {start count i j : Nat} (less : i < j) (inside : j < count)
    (same : (start + i) % m % n = (start + j) % m % n) :
    ¬ (picks m n start count).Nodup := by
  intro nodup
  have injective := List.inj_on_of_nodup_map nodup
  have equal := injective (List.mem_range.mpr (less.trans inside)) (List.mem_range.mpr inside) same
  omega

theorem residues_nodup (start : Nat) :
    ((List.range n).map fun i => (start + i) % n).Nodup := by
  refine List.Nodup.map_on ?_ List.nodup_range
  intro i hi j hj same
  have residues : i ≡ j [MOD n] := Nat.ModEq.add_left_cancel' start same
  exact residues.eq_of_lt_of_lt (List.mem_range.mp hi) (List.mem_range.mp hj)

theorem fair_picks_iff (positive : 0 < n) (start : Nat) (word : start < m) :
    Fair n (picks m n start n) ↔ n ∣ m ∨ start + n ≤ m := by
  rw [fair_picks_iff_nodup m positive]
  constructor
  · intro nodup
    by_contra neither
    push Not at neither
    obtain ⟨remainder, over_wrap⟩ := neither
    have shift : 0 < m % n := Nat.pos_of_ne_zero fun zero =>
      remainder (Nat.dvd_of_mod_eq_zero zero)
    have small : m % n < n := Nat.mod_lt _ positive
    have bound : m % n ≤ m := Nat.mod_le _ _
    have multiple : n ∣ m - m % n := Nat.dvd_sub_mod m
    by_cases early : start ≤ m - m % n
    · -- the last multiple of n before the wrap and the zero after it are both picked
      refine picks_repeat m (i := m - m % n - start) (j := m - start) (by omega) (by omega) ?_ nodup
      have first : start + (m - m % n - start) = m - m % n := by omega
      have second : start + (m - start) = m := by omega
      rw [first, second, Nat.mod_self, Nat.zero_mod,
        Nat.mod_eq_of_lt (show m - m % n < m by omega), Nat.mod_eq_zero_of_dvd multiple]
    · -- the first pick comes again that many places later
      refine picks_repeat m (i := 0) (j := m % n) shift small ?_ nodup
      obtain ⟨q, whole⟩ := multiple
      have later : start + m % n = m + (start + m % n - m) := by omega
      have here : start = n * q + (start + m % n - m) := by omega
      rw [Nat.add_zero, Nat.mod_eq_of_lt word, later, Nat.add_mod_left,
        Nat.mod_eq_of_lt (show start + m % n - m < m by omega)]
      calc start % n = (n * q + (start + m % n - m)) % n := by rw [← here]
        _ = (start + m % n - m) % n := Nat.mul_add_mod n q _
  · intro whole
    have plain : picks m n start n = (List.range n).map fun i => (start + i) % n := by
      refine List.map_congr_left ?_
      intro i inside
      rcases whole with divides | room
      · exact Nat.mod_mod_of_dvd _ divides
      · have small := List.mem_range.mp inside
        rw [Nat.mod_eq_of_lt (show start + i < m by omega)]
    rw [plain]
    exact residues_nodup start

/-- Every window of a run from zero is fair, up to the first wrap or for ever. -/
theorem fair_run_iff (positive : 0 < n) (addressable : n ≤ m) (count : Nat) :
    (∀ before window after, picks m n 0 count = before ++ window ++ after →
      window.length = n → Fair n window) ↔ n ∣ m ∨ count ≤ m := by
  constructor
  · intro fair
    by_contra neither
    push Not at neither
    obtain ⟨remainder, long⟩ := neither
    have several : n ≠ 1 := fun one => remainder (one ▸ Nat.one_dvd m)
    -- the window that has the wrap before its last pick
    have cut : count = (m - n + 1) + n + (count - m - 1) := by omega
    have parts := picks_add m n 0 (m - n + 1 + n) (count - m - 1)
    rw [← cut, picks_add] at parts
    have window := fair _ _ _ parts (picks_length m n _ n)
    rw [Nat.zero_add, fair_picks_iff m positive _ (by omega)] at window
    omega
  · intro whole before window after parts size
    obtain ⟨bound, same⟩ := picks_part m n parts
    rw [size] at bound same
    rw [same, ← picks_wrap, fair_picks_iff m positive _ (Nat.mod_lt _ (by omega)), Nat.zero_add]
    rcases whole with divides | short
    · exact .inl divides
    · right
      rw [Nat.mod_eq_of_lt (by omega)]
      omega

end CyclicWindows
