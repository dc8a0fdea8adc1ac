import PureGrpc.TransitionRuns

/-!
A value that many receivers watch. A send replaces the value, unless nobody is left to see it;
a receiver that is polled shows the value if it is new to it. So it may miss values, but it
shows them in order, and the one it showed last is the value whenever it has nothing to show.
-/
namespace WatchedValues
open TransitionRuns

variable {α : Type}

/-- What a receiver has shown, whether the value is new to it, and whether it is still there. -/
structure Receiver (α : Type) where
  shown : List α
  fresh : Bool
  alive : Bool
  deriving DecidableEq, Repr

def Receiver.new : Receiver α := ⟨[], true, true⟩

def Receiver.notify (r : Receiver α) : Receiver α := { r with fresh := true }

def Receiver.poll (value : α) (r : Receiver α) : Receiver α :=
  if r.fresh then { r with shown := r.shown ++ [value], fresh := false } else r

def Receiver.drop (r : Receiver α) : Receiver α := { r with alive := false }

structure Channel (α : Type) where
  value : α
  receivers : List (Receiver α)
  deriving DecidableEq, Repr

def live (receivers : List (Receiver α)) : Nat := receivers.countP (·.alive)

def Channel.send (c : Channel α) (value : α) : Channel α :=
  if live c.receivers = 0 then c else ⟨value, c.receivers.map .notify⟩

inductive Event (α : Type) where
  | send (value : α)
  | subscribe
  | poll (k : Nat)
  | drop (k : Nat)
  deriving DecidableEq, Repr

inductive Step : Channel α → Event α → Channel α → Prop where
  | send {c} (value) : Step c (.send value) (c.send value)
  | subscribe {c} : Step c .subscribe { c with receivers := c.receivers ++ [.new] }
  | poll {c k r} (found : c.receivers[k]? = some r) (alive : r.alive = true) :
      Step c (.poll k) { c with receivers := c.receivers.set k (r.poll c.value) }
  | drop {c k r} (found : c.receivers[k]? = some r) (alive : r.alive = true) :
      Step c (.drop k) { c with receivers := c.receivers.set k r.drop }

def sent : Event α → Option α
  | .send value => some value
  | _ => none

section Counting

theorem live_alive {receivers : List (Receiver α)} {r : Receiver α} (mem : r ∈ receivers)
    (alive : r.alive = true) : 0 < live receivers :=
  List.countP_pos_iff.mpr ⟨r, mem, alive⟩

theorem live_notify (receivers : List (Receiver α)) :
    live (receivers.map .notify) = live receivers := by
  rw [live, List.countP_map]
  rfl

theorem live_subscribe (receivers : List (Receiver α)) :
    live (receivers ++ [.new]) = live receivers + 1 := by
  rw [live, List.countP_append]
  rfl

theorem live_set {receivers : List (Receiver α)} {k : Nat} {r : Receiver α}
    (found : receivers[k]? = some r) (alive : r.alive = true) (next : Receiver α) :
    live (receivers.set k next) = if next.alive then live receivers else live receivers - 1 := by
  obtain ⟨within, rfl⟩ := List.getElem?_eq_some_iff.mp found
  have some_live := live_alive (List.getElem_mem within) alive
  rw [live] at some_live
  rw [live, live, List.countP_set within, alive]
  cases next.alive <;> simp
  omega

end Counting

/-- What is known of a receiver once these values have been sent since it subscribed, the first
    of them before. -/
structure Follows (values : List α) (value : α) (r : Receiver α) : Prop where
  order : r.shown.Sublist values
  behind : r.alive = true → r.fresh = true → ∃ before, values = before ++ [value] ∧
    r.shown.Sublist before

theorem new_follows (value : α) : Follows [value] value .new where
  order := List.nil_sublist _
  behind _ _ := ⟨[], rfl, List.nil_sublist _⟩

theorem notify_follows {values : List α} {value : α} {r : Receiver α}
    (follows : Follows values value r) (next : α) : Follows (values ++ [next]) next r.notify where
  order := follows.order.trans (List.sublist_append_left ..)
  behind _ _ := ⟨values, rfl, follows.order⟩

theorem poll_follows {values : List α} {value : α} {r : Receiver α} (alive : r.alive = true)
    (follows : Follows values value r) : Follows values value (r.poll value) := by
  unfold Receiver.poll
  split
  · rename_i fresh
    obtain ⟨before, rfl, order⟩ := follows.behind alive fresh
    have next : (r.shown ++ [value]).Sublist (before ++ [value]) :=
      order.append (List.Sublist.refl _)
    exact ⟨next, fun _ wrong => by cases wrong⟩
  · exact follows

theorem dropped_follows {values : List α} {value : α} {r : Receiver α} (gone : r.alive = false)
    (order : r.shown.Sublist values) : Follows values value r where
  order := order
  behind alive := by cases gone.symm.trans alive

/-- A receiver keeps its place, and what is known of it, in every step. -/
theorem step_follows {c next : Channel α} {event : Event α} (step : Step c event next) {k : Nat}
    {r : Receiver α} {values : List α} (found : c.receivers[k]? = some r)
    (follows : Follows values c.value r) : ∃ r', next.receivers[k]? = some r' ∧
      Follows (values ++ (sent event).toList) next.value r' := by
  have within : k < c.receivers.length := (List.getElem?_eq_some_iff.mp found).1
  cases step with
  | send value =>
    by_cases unheard : live c.receivers = 0
    · rw [Channel.send, if_pos unheard]
      have gone : r.alive = false := by
        by_contra alive
        have some_live := live_alive (List.mem_of_getElem? found) (by simpa using alive)
        omega
      exact ⟨r, found, dropped_follows gone (follows.order.trans (List.sublist_append_left ..))⟩
    · rw [Channel.send, if_neg unheard]
      exact ⟨r.notify, by simp [found], notify_follows follows value⟩
  | subscribe =>
    refine ⟨r, ?_, ?_⟩
    · rw [List.getElem?_append_left within, found]
    · simpa [sent] using follows
  | @poll j r' here alive =>
    by_cases same : j = k
    · subst same
      cases here.symm.trans found
      refine ⟨r.poll c.value, List.getElem?_set_self within, ?_⟩
      simpa [sent] using poll_follows alive follows
    · refine ⟨r, (List.getElem?_set_ne same).trans found, ?_⟩
      simpa [sent] using follows
  | @drop j r' here alive =>
    by_cases same : j = k
    · subst same
      cases here.symm.trans found
      refine ⟨r.drop, List.getElem?_set_self within, dropped_follows rfl ?_⟩
      simpa [sent, Receiver.drop] using follows.order
    · refine ⟨r, (List.getElem?_set_ne same).trans found, ?_⟩
      simpa [sent] using follows

theorem run_follows {c last : Channel α} {events : List (Event α)} (run : Run Step c events last)
    {k : Nat} {r : Receiver α} {values : List α} (found : c.receivers[k]? = some r)
    (follows : Follows values c.value r) : ∃ r', last.receivers[k]? = some r' ∧
      Follows (values ++ events.filterMap sent) last.value r' := by
  induction run generalizing r values with
  | stop =>
    rw [List.filterMap_nil, List.append_nil]
    exact ⟨r, found, follows⟩
  | @next c event mid events last step rest ih =>
    obtain ⟨r', kept, known⟩ := step_follows step found follows
    obtain ⟨r'', ends, settled⟩ := ih kept known
    have gathered : values ++ (sent event).toList ++ events.filterMap sent =
        values ++ (event :: events).filterMap sent := by
      rw [List.append_assoc]
      cases event <;> rfl
    exact ⟨r'', ends, gathered ▸ settled⟩

theorem subscriber_follows {receivers : List (Receiver α)} {value : α} {last : Channel α}
    {events : List (Event α)} (run : Run Step ⟨value, receivers ++ [.new]⟩ events last) :
    ∃ r, last.receivers[receivers.length]? = some r ∧
      Follows (value :: events.filterMap sent) last.value r :=
  run_follows run List.getElem?_concat_length (new_follows value)

/-- A receiver with nothing to show has shown the value last. -/
def Level (c : Channel α) : Prop :=
  ∀ r ∈ c.receivers, r.alive = true → r.fresh = false → r.shown.getLast? = some c.value

theorem new_level {c : Channel α} (level : Level c) :
    Level { c with receivers := c.receivers ++ [.new] } := by
  intro r mem alive old
  rcases List.mem_append.mp mem with before | new
  · exact level r before alive old
  · cases List.mem_singleton.mp new
    cases old

theorem poll_level {value : α} {r : Receiver α}
    (level : r.fresh = false → r.shown.getLast? = some value) :
    (r.poll value).shown.getLast? = some value := by
  unfold Receiver.poll
  split
  · exact List.getLast?_concat
  · rename_i old
    exact level (by simpa using old)

theorem step_level {c next : Channel α} {event : Event α} (level : Level c)
    (step : Step c event next) : Level next := by
  cases step with
  | send value =>
    unfold Channel.send
    split
    · exact level
    · intro r mem _ old
      obtain ⟨_, _, rfl⟩ := List.mem_map.mp mem
      cases old
  | subscribe => exact new_level level
  | @poll k r found alive =>
    intro r' mem alive' old
    rcases List.mem_or_eq_of_mem_set mem with other | rfl
    · exact level r' other alive' old
    · exact poll_level (level r (List.mem_of_getElem? found) alive)
  | @drop k r found alive =>
    intro r' mem alive' old
    rcases List.mem_or_eq_of_mem_set mem with other | rfl
    · exact level r' other alive' old
    · cases alive'

end WatchedValues
