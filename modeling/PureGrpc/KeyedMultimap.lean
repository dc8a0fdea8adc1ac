import Mathlib.Data.List.Basic

/-!
A multimap as a list of entries. `insertKey` replaces every value of its key,
`appendKey` adds one, and `extend` lets each key of the incoming map replace all
the values the key had before. What a map means is `getAll`, the values of each
key, in order; in what order a map goes through its keys is not said.
-/
namespace KeyedMultimap
variable {K V : Type} [DecidableEq K]

abbrev Multimap (K V : Type) := List (K × V)

def getAll (m : Multimap K V) (k : K) : List V :=
  m.filterMap fun entry => if entry.1 = k then some entry.2 else none

def getKey (m : Multimap K V) (k : K) : Option V := (getAll m k).head?

def containsKey (m : Multimap K V) (k : K) : Bool := m.any fun entry => entry.1 = k

def removeKey (m : Multimap K V) (k : K) : Multimap K V := m.filter fun entry => entry.1 ≠ k

def appendKey (m : Multimap K V) (k : K) (v : V) : Multimap K V := m ++ [(k, v)]

/-- The new entry stands where the first entry of its key stood, or at the end. -/
def insertKey : Multimap K V → K → V → Multimap K V
  | [], k, v => [(k, v)]
  | entry :: rest, k, v =>
    if entry.1 = k then (k, v) :: removeKey rest k else entry :: insertKey rest k v

def extend (m other : Multimap K V) : Multimap K V :=
  m.filter (fun entry => !containsKey other entry.1) ++ other

@[simp] theorem get_all_nil (k : K) : getAll ([] : Multimap K V) k = [] := rfl

theorem get_all_cons (entry : K × V) (m : Multimap K V) (k : K) :
    getAll (entry :: m) k = if entry.1 = k then entry.2 :: getAll m k else getAll m k := by
  simp only [getAll, List.filterMap_cons]
  split <;> simp_all

@[simp] theorem get_all_append_maps (m other : Multimap K V) (k : K) :
    getAll (m ++ other) k = getAll m k ++ getAll other k := by
  simp [getAll]

theorem contains_key_iff (m : Multimap K V) (k : K) :
    containsKey m k = true ↔ getAll m k ≠ [] := by
  induction m with
  | nil => simp [containsKey]
  | cons entry m ih =>
    simp only [containsKey, List.any_cons, Bool.or_eq_true, decide_eq_true_eq] at ih ⊢
    rw [get_all_cons]
    by_cases same : entry.1 = k
    · simp [same]
    · simp only [same, false_or, ih, if_false]

theorem get_all_filter (keep : K → Bool) (m : Multimap K V) (k : K) :
    getAll (m.filter fun entry => keep entry.1) k = if keep k then getAll m k else [] := by
  induction m with
  | nil => simp
  | cons entry m ih =>
    rw [List.filter_cons]
    by_cases same : entry.1 = k
    · cases kept : keep k <;> simp_all [get_all_cons]
    · cases keep entry.1 <;> simp_all [get_all_cons]

theorem get_all_remove (m : Multimap K V) (k k' : K) :
    getAll (removeKey m k) k' = if k = k' then [] else getAll m k' := by
  rw [removeKey, get_all_filter fun name => decide (name ≠ k)]
  by_cases same : k = k'
  · simp [same]
  · simp [same, Ne.symm same]

@[simp] theorem get_all_append (m : Multimap K V) (k k' : K) (v : V) :
    getAll (appendKey m k v) k' = if k = k' then getAll m k' ++ [v] else getAll m k' := by
  simp only [appendKey, get_all_append_maps, get_all_cons, get_all_nil]
  split <;> simp

@[simp] theorem get_all_insert (m : Multimap K V) (k k' : K) (v : V) :
    getAll (insertKey m k v) k' = if k = k' then [v] else getAll m k' := by
  induction m with
  | nil => simp [insertKey, get_all_cons]
  | cons entry m ih =>
    rw [insertKey]
    split
    · rename_i same
      rw [get_all_cons, get_all_remove, get_all_cons, same]
      by_cases here : k = k' <;> simp [here]
    · rename_i other
      rw [get_all_cons, get_all_cons, ih]
      by_cases here : k = k'
      · simp [here ▸ other, here]
      · simp [here]

theorem get_all_extend (m other : Multimap K V) (k : K) :
    getAll (extend m other) k =
      if containsKey other k then getAll other k else getAll m k := by
  rw [extend, get_all_append_maps, get_all_filter fun name => !containsKey other name]
  cases present : containsKey other k
  · have empty : getAll other k = [] := by
      by_contra some_value
      simp [(contains_key_iff other k).mpr some_value] at present
    simp [empty]
  · simp

theorem get_all_insertions (skip : K → Prop) [DecidablePred skip] (m target : Multimap K V)
    (k : K) :
    getAll (m.foldl (fun target entry =>
        if skip entry.1 then target else insertKey target entry.1 entry.2) target) k =
      if skip k then getAll target k
      else (getAll m k).getLast?.elim (getAll target k) fun v => [v] := by
  induction m generalizing target with
  | nil =>
    rw [List.foldl_nil, get_all_nil, List.getLast?_nil, Option.elim_none]
    split <;> rfl
  | cons entry m ih =>
    rw [List.foldl_cons, ih, get_all_cons]
    by_cases same : entry.1 = k
    · subst same
      by_cases skipped : skip entry.1
      · simp only [if_pos skipped]
      · simp only [if_neg skipped, if_pos, get_all_insert, List.getLast?_cons, Option.elim_some]
        cases (getAll m entry.1).getLast? <;> rfl
    · rw [if_neg same]
      by_cases skipped : skip entry.1
      · simp only [if_pos skipped]
      · simp only [if_neg skipped, get_all_insert, if_neg same]

theorem last_alone (values : List V) :
    (values.getLast?.elim [] fun v => [v]) = values ↔ values.length ≤ 1 := by
  rcases values with _ | ⟨v, _ | ⟨w, values⟩⟩
  · simp
  · simp
  · simp [List.getLast?_cons]

theorem mem_iff_get_all (m : Multimap K V) (k : K) (v : V) : (k, v) ∈ m ↔ v ∈ getAll m k := by
  simp only [getAll, List.mem_filterMap]
  constructor
  · intro mem
    exact ⟨(k, v), mem, if_pos rfl⟩
  · rintro ⟨⟨k', v'⟩, mem, found⟩
    split at found
    · rename_i same
      cases same
      cases found
      exact mem
    · cases found

omit [DecidableEq K] in
/-- A scan for what there is at most one of finds it, in whatever order. -/
theorem find_unique {m n : Multimap K V} (order : n.Perm m) {such : K × V → Bool}
    (unique : ∀ a ∈ m, ∀ b ∈ m, such a = true → such b = true → a = b) (entry : K × V) :
    n.find? such = some entry ↔ entry ∈ m ∧ such entry = true := by
  constructor
  · intro found
    exact ⟨order.mem_iff.mp (List.mem_of_find?_eq_some found), List.find?_some found⟩
  · rintro ⟨mem, holds⟩
    have some_entry : (n.find? such).isSome = true :=
      List.find?_isSome.mpr ⟨entry, order.mem_iff.mpr mem, holds⟩
    obtain ⟨other, found⟩ := Option.isSome_iff_exists.mp some_entry
    rw [found, unique other (order.mem_iff.mp (List.mem_of_find?_eq_some found)) entry mem
      (List.find?_some found) holds]

theorem get_insert (m : Multimap K V) (k k' : K) (v : V) :
    getKey (insertKey m k v) k' = if k = k' then some v else getKey m k' := by
  simp only [getKey, get_all_insert]
  split <;> simp

def insertAll (m writes : Multimap K V) : Multimap K V :=
  writes.foldl (fun m entry => insertKey m entry.1 entry.2) m

theorem insert_all_append (m front back : Multimap K V) :
    insertAll m (front ++ back) = insertAll (insertAll m front) back := List.foldl_append

theorem insert_batches {B : Type} (batch : B → Multimap K V) (m : Multimap K V) (batches : List B) :
    batches.foldl (fun m b => insertAll m (batch b)) m = insertAll m (batches.flatMap batch) := by
  induction batches generalizing m with
  | nil => rfl
  | cons b batches ih => rw [List.foldl_cons, ih, List.flatMap_cons, insert_all_append]

theorem get_insert_all (m writes : Multimap K V) (k : K) :
    getKey (insertAll m writes) k = (getAll writes k).getLast?.or (getKey m k) := by
  have all := get_all_insertions (fun _ => False) writes m k
  simp only [if_false] at all
  rw [getKey, insertAll, all]
  cases (getAll writes k).getLast? with
  | none => rfl
  | some v => rfl

theorem get_last_batch {B : Type} (batch : B → Multimap K V) (m : Multimap K V) {k : K} {b : B}
    (front : List B) {back : List B} (here : ∃ v, (k, v) ∈ batch b)
    (later : ∀ c ∈ back, ¬ ∃ v, (k, v) ∈ batch c) :
    ∃ v, (k, v) ∈ batch b ∧
      getKey (insertAll m ((front ++ b :: back).flatMap batch)) k = some v := by
  have none_later : getAll (back.flatMap batch) k = [] := by
    rw [List.eq_nil_iff_forall_not_mem]
    intro v mem
    obtain ⟨c, after, mem⟩ := List.mem_flatMap.mp ((mem_iff_get_all _ _ _).mpr mem)
    exact later c after ⟨v, mem⟩
  obtain ⟨v, mem⟩ := here
  have some_here : getAll (batch b) k ≠ [] := List.ne_nil_of_mem ((mem_iff_get_all _ _ _).mp mem)
  refine ⟨(getAll (batch b) k).getLast some_here, ?_, ?_⟩
  · exact (mem_iff_get_all _ _ _).mpr (List.getLast_mem some_here)
  · rw [get_insert_all, List.flatMap_append, List.flatMap_cons, get_all_append_maps,
      get_all_append_maps, none_later, List.append_nil, List.getLast?_append_of_ne_nil _ some_here,
      List.getLast?_eq_some_getLast some_here, Option.some_or]

theorem exists_last {B : Type} {P : B → Prop} {bs : List B} (one : ∃ b ∈ bs, P b) :
    ∃ front b back, bs = front ++ b :: back ∧ P b ∧ ∀ c ∈ back, ¬ P c := by
  induction bs with
  | nil =>
    obtain ⟨_, mem, _⟩ := one
    cases mem
  | cons b rest ih =>
    by_cases later : ∃ c ∈ rest, P c
    · obtain ⟨front, c, back, split, here, after⟩ := ih later
      exact ⟨b :: front, c, back, by rw [split, List.cons_append], here, after⟩
    · rw [List.exists_mem_cons_iff] at one
      exact ⟨[], b, rest, rfl, one.resolve_right later, fun c mem here => later ⟨c, mem, here⟩⟩

/-- What a key has in the end was put there by the last batch with the key. -/
theorem last_batch_of_get {B : Type} {batch : B → Multimap K V} {bs : List B} {k : K} {v : V}
    (found : getKey (insertAll [] (bs.flatMap batch)) k = some v) :
    ∃ front b back, bs = front ++ b :: back ∧ (k, v) ∈ batch b ∧
      ∀ c ∈ back, ¬ ∃ v, (k, v) ∈ batch c := by
  have written : v ∈ getAll (bs.flatMap batch) k := by
    rw [get_insert_all, getKey, get_all_nil, List.head?_nil, Option.or_none] at found
    exact List.mem_of_getLast? found
  obtain ⟨b, mem, wrote⟩ := List.mem_flatMap.mp ((mem_iff_get_all _ _ _).mpr written)
  obtain ⟨front, c, back, rfl, here, later⟩ :=
    exists_last (P := fun c => ∃ v, (k, v) ∈ batch c) ⟨b, mem, v, wrote⟩
  obtain ⟨w, last, same⟩ := get_last_batch batch [] front here later
  rw [same] at found
  cases found
  exact ⟨front, c, back, rfl, last, later⟩

theorem get_altered (m : Multimap K V) (k k' : K) (change : V → V) :
    getKey ((getKey m k).elim m fun v => insertKey m k (change v)) k' =
      if k = k' then (getKey m k').map change else getKey m k' := by
  by_cases same : k = k'
  · subst same
    cases found : getKey m k with
    | some v => simp [get_insert]
    | none => simp [found]
  · cases getKey m k with
    | some v => simp [get_insert, same]
    | none => simp [same]

end KeyedMultimap
