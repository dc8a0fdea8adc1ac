import PureGrpc.CyclicWindows
import PureGrpc.FallibleLoops
import PureGrpc.TransitionRuns

/-!
The balanced channel. The endpoints and an atomic counter are shared by all
clones, so a run is the calls of the clones in the order of their increments.
The counter is a machine word of any width and wraps.
-/
namespace RoundRobin
open CyclicWindows FallibleLoops TransitionRuns

/-- A vector of the target, whose length is a machine word. -/
def Vec (w : Nat) (α : Type) : Type := { items : List α // items.length < 2 ^ w }

structure BalancedChannel (w : Nat) (χ : Type) where
  channels : Vec w χ
  next : BitVec w
  nonempty : channels.val ≠ []

variable {w : Nat} {υ χ : Type}

theorem map_m_length {ε α β : Type} {f : α → Except ε β} {items : List α} {made : List β}
    (run : items.mapM f = .ok made) : made.length = items.length := by
  induction items generalizing made with
  | nil =>
    cases run
    rfl
  | cons a rest ih =>
    rw [List.mapM_cons] at run
    obtain ⟨b, _, run⟩ := bind_ok run
    obtain ⟨bs, later, run⟩ := bind_ok run
    cases run
    rw [List.length_cons, List.length_cons, ih later]

theorem map_m_nonempty {ε α β : Type} {f : α → Except ε β} {items : List α} {made : List β}
    (run : items.mapM f = .ok made) (some_item : items ≠ []) : made ≠ [] := by
  have same := map_m_length run
  intro none_made
  rw [none_made] at same
  exact some_item (List.eq_nil_of_length_eq_zero same.symm)

/-- Every endpoint is connected to, the first failure ends it. -/
def BalancedChannel.fromUris (connect : υ → Except String χ) (endpoints : Vec w υ) :
    Except String (BalancedChannel w χ) :=
  if empty : endpoints.val = [] then .error "at least one endpoint is required"
  else
    match connected : endpoints.val.mapM connect with
    | .error e => .error e
    | .ok channels => .ok {
        channels := ⟨channels, lt_of_eq_of_lt (map_m_length connected) endpoints.property⟩
        next := 0
        nonempty := map_m_nonempty connected empty }

def BalancedChannel.numEndpoints (self : BalancedChannel w χ) : Nat := self.channels.val.length

/-- The index taken by the increment, and what is left for the next caller. -/
def BalancedChannel.fetch (self : BalancedChannel w χ) : Nat × BalancedChannel w χ :=
  (self.next.toNat % self.numEndpoints, { self with next := self.next + 1 })

/-- A call goes to the channel of its index; indexing past the end would panic. -/
def BalancedChannel.call (self : BalancedChannel w χ) : Option χ × BalancedChannel w χ :=
  (self.channels.val[self.fetch.1]?, self.fetch.2)

theorem num_endpoints_pos (self : BalancedChannel w χ) : 0 < self.numEndpoints :=
  List.length_pos_of_ne_nil self.nonempty

theorem call_in_range (self : BalancedChannel w χ) :
    ∃ channel, self.call.1 = some channel ∧ channel ∈ self.channels.val := by
  have inside : self.next.toNat % self.numEndpoints < self.channels.val.length :=
    Nat.mod_lt _ (num_endpoints_pos self)
  exact ⟨self.channels.val[self.next.toNat % self.numEndpoints],
    List.getElem?_eq_getElem inside, List.getElem_mem inside⟩

structure Shared (w : Nat) (χ : Type) where
  channel : BalancedChannel w χ
  handles : List Nat

inductive Event where
  | clone (handle made : Nat)
  | call (handle idx : Nat)
  | drop (handle : Nat)
  deriving DecidableEq, Repr

inductive Step : Shared w χ → Event → Shared w χ → Prop where
  | clone {s handle made} (alive : handle ∈ s.handles) (fresh : made ∉ s.handles) :
      Step s (.clone handle made) { s with handles := made :: s.handles }
  | call {s handle} (alive : handle ∈ s.handles) :
      Step s (.call handle s.channel.fetch.1) { s with channel := s.channel.call.2 }
  | drop {s handle} (alive : handle ∈ s.handles) :
      Step s (.drop handle) { s with handles := s.handles.erase handle }

def selections (events : List Event) : List Nat :=
  events.filterMap fun event =>
    match event with
    | .call _ idx => some idx
    | _ => none

theorem next_after (self : BalancedChannel w χ) :
    self.fetch.2.next.toNat = (self.next.toNat + 1) % 2 ^ w := by
  simp only [BalancedChannel.fetch, BitVec.ofNat_eq_ofNat, BitVec.toNat_add, BitVec.toNat_ofNat,
    Nat.add_mod_mod]

theorem run_selections {s t : Shared w χ} {events : List Event} (run : Run Step s events t) :
    selections events = picks (2 ^ w) s.channel.numEndpoints s.channel.next.toNat
      (selections events).length := by
  induction run with
  | stop => rfl
  | @next s a t as u step rest ih =>
    cases step with
    | clone alive fresh => exact ih
    | drop alive => exact ih
    | @call handle alive =>
      have seen : selections (.call handle s.channel.fetch.1 :: as) =
          [s.channel.fetch.1] ++ selections as := rfl
      have later : (s.channel.call.2).next.toNat = (s.channel.next.toNat + 1) % 2 ^ w :=
        next_after s.channel
      have first : s.channel.fetch.1 =
          s.channel.next.toNat % 2 ^ w % s.channel.numEndpoints := by
        rw [Nat.mod_eq_of_lt s.channel.next.isLt]
        rfl
      rw [seen, List.length_append, picks_add, List.length_singleton, picks_one, ← first,
        ← picks_wrap _ _ (s.channel.next.toNat + 1), ← later]
      exact congrArg _ ih

theorem from_uris_ok {connect : υ → Except String χ} {endpoints : Vec w υ}
    {balanced : BalancedChannel w χ} (made : BalancedChannel.fromUris connect endpoints = .ok balanced) :
    balanced.next = 0 ∧ balanced.numEndpoints = endpoints.val.length := by
  unfold BalancedChannel.fromUris at made
  split at made
  · cases made
  · split at made
    · cases made
    · rename_i connected
      cases made
      exact ⟨rfl, map_m_length connected⟩

theorem selection_in_range {s t : Shared w χ} {events : List Event} (run : Run Step s events t)
    {idx : Nat} (chosen : idx ∈ selections events) : idx < s.channel.numEndpoints := by
  rw [run_selections run] at chosen
  exact picks_below _ (num_endpoints_pos s.channel) chosen

/-- Any N consecutive selections of a run choose each of the N endpoints once. -/
def RoundRobinFair (endpoints : Nat) (events : List Event) : Prop :=
  ∀ before window after, selections events = before ++ window ++ after →
    window.length = endpoints → Fair endpoints window

/-- In the runs of a fresh channel the selection is fair for ever when the number of endpoints
    divides the range of the counter, and else exactly up to the wrap; no index is out of range. -/
theorem round_robin_fair_iff (connect : υ → Except String χ) (endpoints : Vec w υ)
    (balanced : BalancedChannel w χ)
    (made : BalancedChannel.fromUris connect endpoints = .ok balanced) (handles : List Nat)
    (t : Shared w χ) (events : List Event) (run : Run Step ⟨balanced, handles⟩ events t) :
    (RoundRobinFair endpoints.val.length events ↔
      endpoints.val.length ∣ 2 ^ w ∨ (selections events).length ≤ 2 ^ w) ∧
    ∀ idx ∈ selections events, idx < endpoints.val.length := by
  obtain ⟨zero, size⟩ := from_uris_ok made
  have seen := run_selections run
  have start : balanced.next.toNat = 0 := by rw [zero]; rfl
  simp only [start, size] at seen
  refine ⟨?_, fun idx chosen => lt_of_lt_of_eq (selection_in_range run chosen) size⟩
  have positive : 0 < endpoints.val.length := size ▸ num_endpoints_pos balanced
  have windows := CyclicWindows.fair_run_iff (2 ^ w) positive (Nat.le_of_lt endpoints.property)
    (selections events).length
  rw [← windows, ← seen]
  rfl

theorem calls_run (s : Shared w χ) {handle : Nat} (alive : handle ∈ s.handles) (count : Nat) :
    ∃ events t, Run Step s events t ∧ (selections events).length = count := by
  induction count generalizing s with
  | zero => exact ⟨[], s, .stop s, rfl⟩
  | succ count ih =>
    obtain ⟨events, t, run, size⟩ := ih { s with channel := s.channel.call.2 } alive
    refine ⟨.call handle s.channel.fetch.1 :: events, t, .next (.call alive) run, ?_⟩
    exact congrArg Nat.succ size

def threeEndpoints : Vec 32 Nat := ⟨[50051, 50052, 50053], by decide⟩

def threeChannels : BalancedChannel 32 Nat := ⟨threeEndpoints, 0, by decide⟩

/-- On a 32-bit target the first of three endpoints is chosen twice in a row at the wrap. -/
theorem three_endpoints_unfair_at_the_wrap :
    BalancedChannel.fromUris .ok threeEndpoints = .ok threeChannels ∧
      ∃ events t, Run Step ⟨threeChannels, [0]⟩ events t ∧
        (∃ before, selections events = before ++ [2, 0, 0]) ∧ ¬ RoundRobinFair 3 events := by
  refine ⟨rfl, ?_⟩
  obtain ⟨events, t, run, size⟩ := calls_run ⟨threeChannels, [0]⟩ (List.mem_singleton.mpr rfl)
    (2 ^ 32 - 2 + 3)
  have seen := run_selections run
  have last : picks (2 ^ 32) 3 (0 + (2 ^ 32 - 2)) 3 = [2, 0, 0] := by decide
  rw [size, picks_add] at seen
  have parts : selections events = picks (2 ^ 32) 3 0 (2 ^ 32 - 2) ++ [2, 0, 0] := by
    rw [← last]
    exact seen
  refine ⟨events, t, run, ⟨_, parts⟩, ?_⟩
  intro fair
  have window := fair _ [2, 0, 0] [] (by rw [parts, List.append_nil]) rfl 1 (by decide)
  exact absurd window (by decide)

def fiveCalls : List Event :=
  [.clone 0 1, .call 1 0, .call 0 1, .call 1 2, .drop 1, .call 0 0, .call 0 1]

theorem five_calls_fair : RoundRobinFair 3 fiveCalls ∧ ∀ idx ∈ selections fiveCalls, idx < 3 := by
  have run : Run Step ⟨threeChannels, [0]⟩ fiveCalls _ :=
    .next (.clone (by decide) (by decide)) (.next (.call (by decide)) (.next (.call (by decide))
      (.next (.call (by decide)) (.next (.drop (by decide)) (.next (.call (by decide))
        (.next (.call (by decide)) (.stop _)))))))
  obtain ⟨fair, inside⟩ :=
    round_robin_fair_iff .ok threeEndpoints threeChannels rfl [0] _ fiveCalls run
  exact ⟨fair.mpr (.inr (by decide)), inside⟩

end RoundRobin
