import Mathlib.Data.Finset.Card
import Mathlib.Data.Finset.Dedup
import Mathlib.Logic.Relation

/-!
A worklist over a finite graph that may have cycles. A node that is taken off the frontier
for the first time pushes its successors; one that was taken before is dropped. The set
collected is what can be reached from the frontier.
-/
namespace Worklists
open Relation

variable {α : Type}

/-- What a node pushes onto the frontier; however the frontier looks, the same few nodes. -/
structure Graph (α : Type) where
  push : α → List α → List α
  pushes : ∀ a frontier, push a frontier = push a [] ++ frontier
  nodes : Finset α
  closed : ∀ a, ∀ b ∈ push a [], b ∈ nodes

def Graph.Edge (g : Graph α) (a b : α) : Prop := b ∈ g.push a []

theorem mem_push {g : Graph α} {a b : α} {frontier : List α} :
    b ∈ g.push a frontier ↔ g.Edge a b ∨ b ∈ frontier := by
  rw [g.pushes, List.mem_append]
  rfl

variable [DecidableEq α] (g : Graph α)

def Graph.uncollected (out : Finset α) (frontier : List α) : Finset α :=
  (g.nodes ∪ frontier.toFinset) \ out

variable {g} {a b : α} {out : Finset α} {frontier : List α}

theorem uncollected_dropped :
    (g.uncollected out frontier).card ≤ (g.uncollected out (a :: frontier)).card := by
  apply Finset.card_le_card
  intro b
  simp only [Graph.uncollected, Finset.mem_sdiff, Finset.mem_union, List.mem_toFinset, List.mem_cons]
  intro mem
  exact ⟨mem.1.imp_right .inr, mem.2⟩

/-- A node that is collected leaves the uncollected ones, and what it pushes was one of them. -/
theorem uncollected_less (new : a ∉ out) :
    (g.uncollected (insert a out) (g.push a frontier)).card <
      (g.uncollected out (a :: frontier)).card := by
  apply Finset.card_lt_card
  rw [Finset.ssubset_iff_of_subset]
  · refine ⟨a, ?_, ?_⟩
    · simp [Graph.uncollected, new]
    · simp [Graph.uncollected]
  · intro b
    simp only [Graph.uncollected, Finset.mem_sdiff, Finset.mem_union, List.mem_toFinset, mem_push,
      Finset.mem_insert, List.mem_cons, not_or]
    intro mem
    obtain ⟨either, _, old⟩ := mem
    refine ⟨?_, old⟩
    rcases either with node | edge | later
    · exact .inl node
    · exact .inl (g.closed a b edge)
    · exact .inr (.inr later)

variable (g)

/-- The loop: the next node is taken off the frontier until it is empty. -/
def Graph.collect (out : Finset α) : List α → Finset α
  | [] => out
  | a :: frontier =>
    if a ∈ out then collect out frontier else collect (insert a out) (g.push a frontier)
termination_by frontier => ((g.uncollected out frontier).card, frontier.length)
decreasing_by
  · exact Prod.Lex.right' _ uncollected_dropped (Nat.lt_succ_self _)
  · exact Prod.Lex.left _ _ (uncollected_less (by assumption))

variable {g}

theorem collect_contains :
    out ⊆ g.collect out frontier ∧ ∀ a ∈ frontier, a ∈ g.collect out frontier := by
  induction out, frontier using Graph.collect.induct g with
  | case1 out =>
    rw [Graph.collect]
    exact ⟨fun _ mem => mem, fun _ mem => nomatch mem⟩
  | case2 out a frontier old ih =>
    rw [Graph.collect, if_pos old]
    exact ⟨ih.1, List.forall_mem_cons.mpr ⟨ih.1 old, ih.2⟩⟩
  | case3 out a frontier new ih =>
    rw [Graph.collect, if_neg new]
    have kept := Finset.insert_subset_iff.mp ih.1
    refine ⟨kept.2, List.forall_mem_cons.mpr ⟨kept.1, ?_⟩⟩
    intro b later
    exact ih.2 b (mem_push.mpr (.inr later))

/-- While what was collected leads only to what is collected or on the frontier, the result
    leads nowhere else. -/
theorem collect_closed (inside : ∀ a ∈ out, ∀ b, g.Edge a b → b ∈ out ∨ b ∈ frontier) :
    ∀ a ∈ g.collect out frontier, ∀ b, g.Edge a b → b ∈ g.collect out frontier := by
  induction out, frontier using Graph.collect.induct g with
  | case1 out =>
    rw [Graph.collect]
    intro a mem b edge
    exact (inside a mem b edge).resolve_right List.not_mem_nil
  | case2 out a frontier old ih =>
    rw [Graph.collect, if_pos old]
    apply ih
    intro c mem b edge
    rcases inside c mem b edge with here | next
    · exact .inl here
    · rcases List.mem_cons.mp next with rfl | later
      · exact .inl old
      · exact .inr later
  | case3 out a frontier new ih =>
    rw [Graph.collect, if_neg new]
    apply ih
    intro c mem b edge
    rcases Finset.mem_insert.mp mem with rfl | before
    · exact .inr (mem_push.mpr (.inl edge))
    · rcases inside c before b edge with here | next
      · exact .inl (Finset.mem_insert_of_mem here)
      · rcases List.mem_cons.mp next with rfl | later
        · exact .inl (Finset.mem_insert_self ..)
        · exact .inr (mem_push.mpr (.inr later))

theorem collect_reached (mem : b ∈ g.collect out frontier) :
    b ∈ out ∨ ∃ a ∈ frontier, ReflTransGen g.Edge a b := by
  induction out, frontier using Graph.collect.induct g with
  | case1 out =>
    rw [Graph.collect] at mem
    exact .inl mem
  | case2 out a frontier old ih =>
    rw [Graph.collect, if_pos old] at mem
    rcases ih mem with here | ⟨c, later, path⟩
    · exact .inl here
    · exact .inr ⟨c, List.mem_cons_of_mem a later, path⟩
  | case3 out a frontier new ih =>
    rw [Graph.collect, if_neg new] at mem
    rcases ih mem with here | ⟨c, next, path⟩
    · rcases Finset.mem_insert.mp here with rfl | before
      · exact .inr ⟨b, List.mem_cons_self, .refl⟩
      · exact .inl before
    · rcases mem_push.mp next with edge | later
      · exact .inr ⟨a, List.mem_cons_self, .head edge path⟩
      · exact .inr ⟨c, List.mem_cons_of_mem a later, path⟩

theorem mem_collect_iff :
    b ∈ g.collect ∅ frontier ↔ ∃ a ∈ frontier, ReflTransGen g.Edge a b := by
  constructor
  · intro mem
    exact (collect_reached mem).resolve_left (Finset.notMem_empty b)
  · intro reached
    obtain ⟨a, start, path⟩ := reached
    induction path with
    | refl => exact collect_contains.2 a start
    | tail _ edge ih =>
      exact collect_closed (fun c none => absurd none (Finset.notMem_empty c)) _ ih _ edge

end Worklists
