import PureGrpc.HealthService
import PureGrpc.TransitionRuns

/-!
Health calls that overlap. Setting a status writes the map and then sends; a
Watch reads the map and then subscribes or makes the channel; other steps may
come between. An update is lost when what is sent or what the channel starts
with is no longer the service's status and nobody is left to send that one.
-/
namespace HealthInterleaving
open KeyedMultimap TransitionRuns HealthService

/-- The shared state, the open Watch streams, and the calls between their two steps. -/
structure System where
  state : HealthState
  streams : List String
  sets : List (String × ServingStatus)
  watches : List (String × Option ServingStatus)
  deriving DecidableEq, Repr

inductive Action where
  | write (service : String) (status : ServingStatus)
  | send (service : String) (status : ServingStatus)
  | read (service : String)
  | subscribe (service : String) (initialStatus : Option ServingStatus)
  deriving DecidableEq, Repr

inductive Step : System → Action → System → Prop where
  | write {w} (service status) :
      Step w (.write service status)
        { w with state := w.state.insertStatus service status, sets := (service, status) :: w.sets }
  | send {w service status} (written : (service, status) ∈ w.sets) :
      Step w (.send service status)
        { w with
          state := w.state.notifyWatchers service status, sets := w.sets.erase (service, status) }
  | read {w} (service) :
      Step w (.read service)
        { w with watches := (service, w.state.initialStatus service) :: w.watches }
  | subscribe {w service initialStatus} (wasRead : (service, initialStatus) ∈ w.watches) :
      Step w (.subscribe service initialStatus)
        { w with
          state := w.state.subscribe service initialStatus
          streams := service :: w.streams
          watches := w.watches.erase (service, initialStatus) }

def start : System := ⟨healthService, [], [], []⟩

/-- Calls that do not overlap make their two steps one after the other. -/
theorem set_status_steps (state : HealthState) (streams : List String) (service : String)
    (status : ServingStatus) :
    Run Step ⟨state, streams, [], []⟩ [.write service status, .send service status]
      ⟨state.setStatus service status, streams, [], []⟩ := by
  have last : Step ⟨state.insertStatus service status, streams, [(service, status)], []⟩
      (.send service status) ⟨state.setStatus service status, streams, [], []⟩ := by
    have sent := Step.send (w := ⟨state.insertStatus service status, streams, [(service, status)], []⟩)
      (List.mem_singleton_self (service, status))
    simpa [HealthState.setStatus] using sent
  exact .next (.write service status) (.next last (.stop _))

theorem watch_steps (state : HealthState) (streams : List String) (service : String) :
    Run Step ⟨state, streams, [], []⟩
      [.read service, .subscribe service (state.initialStatus service)]
      ⟨state.watch service, service :: streams, [], []⟩ := by
  have last : Step ⟨state, streams, [], [(service, state.initialStatus service)]⟩
      (.subscribe service (state.initialStatus service))
      ⟨state.watch service, service :: streams, [], []⟩ := by
    have subscribed := Step.subscribe
      (w := ⟨state, streams, [], [(service, state.initialStatus service)]⟩)
      (List.mem_singleton_self (service, state.initialStatus service))
    simpa [HealthState.watch] using subscribed
  exact .next (.read service) (.next last (.stop _))

/-- Some set is still to send what the map holds for a service. -/
def Unsent (w : System) (sets : List (String × ServingStatus)) (service : String) : Prop :=
  (service, w.state.statusOf service) ∈ sets

/-- What is sent to a channel, or what one is made with, is the service's status, or the status
    is still to be sent by another set. -/
def Timely (w : System) : Action → Prop
  | .send service status =>
    (getKey w.state.watchers service).isNone ∨ status = w.state.statusOf service ∨
      Unsent w (w.sets.erase (service, status)) service
  | .subscribe service initialStatus =>
    (getKey w.state.watchers service).isSome ∨
      initialStatus.getD .serviceUnknown = w.state.statusOf service ∨ Unsent w w.sets service
  | _ => True

instance (w : System) (sets : List (String × ServingStatus)) (service : String) :
    Decidable (Unsent w sets service) := inferInstanceAs (Decidable (_ ∈ _))

instance (w : System) : ∀ action, Decidable (Timely w action)
  | .write _ _ => inferInstanceAs (Decidable True)
  | .read _ => inferInstanceAs (Decidable True)
  | .send _ _ => inferInstanceAs (Decidable (_ ∨ _))
  | .subscribe _ _ => inferInstanceAs (Decidable (_ ∨ _))

/-- When no call is in progress, the current value of every open stream is the status. -/
def Settled (w : System) : Prop :=
  w.sets = [] → w.watches = [] →
    ∀ service ∈ w.streams, w.state.watched service = some (w.state.check service)

/-- Every channel stores its service's status, or a set has still to send that. -/
def Stored (w : System) : Prop := ∀ service tx, getKey w.state.watchers service = some tx →
  tx.value = w.state.statusOf service ∨ Unsent w w.sets service

theorem write_stored {w : System} (service : String) (status : ServingStatus) (stored : Stored w) :
    Stored { w with
      state := w.state.insertStatus service status, sets := (service, status) :: w.sets } := by
  intro other tx found
  have value := stored other tx found
  simp only [Unsent, status_of_insert] at value ⊢
  by_cases same : service = other
  · subst same
    rw [if_pos rfl]
    exact .inr (List.mem_cons_self ..)
  · rw [if_neg same]
    rcases value with current | unsent
    · exact .inl current
    · exact .inr (List.mem_cons_of_mem _ unsent)

theorem send_stored {w : System} {service : String} {status : ServingStatus} (stored : Stored w)
    (kept : ∀ tx, getKey w.state.watchers service = some tx →
      (tx.send status).2.value = w.state.statusOf service ∨
        Unsent w (w.sets.erase (service, status)) service) :
    Stored { w with
      state := w.state.notifyWatchers service status, sets := w.sets.erase (service, status) } := by
  intro other tx found
  simp only [notify_watcher] at found
  simp only [Unsent, notify_status_of]
  by_cases same : service = other
  · subst same
    rw [if_pos rfl] at found
    obtain ⟨old, before, rfl⟩ := Option.map_eq_some_iff.mp found
    exact kept old before
  · rw [if_neg same] at found
    rcases stored other tx found with current | unsent
    · exact .inl current
    · right
      have different : (other, w.state.statusOf other) ≠ (service, status) := by
        intro pair
        exact same (congrArg Prod.fst pair).symm
      exact (List.mem_erase_of_ne different).mpr unsent

theorem subscribe_stored {w : System} {service : String} {initialStatus : Option ServingStatus}
    (stored : Stored w) (timely : Timely w (.subscribe service initialStatus)) :
    Stored { w with
      state := w.state.subscribe service initialStatus
      streams := service :: w.streams
      watches := w.watches.erase (service, initialStatus) } := by
  intro other tx found
  simp only [subscribe_watcher] at found
  simp only [Unsent, subscribe_status_of]
  by_cases same : service = other
  · subst same
    rw [if_pos rfl] at found
    cases found
    cases before : getKey w.state.watchers service with
    | some old => exact stored service old before
    | none =>
      simp only [Timely, before, Option.isSome_none, Bool.false_eq_true, false_or] at timely
      exact timely
  · rw [if_neg same] at found
    exact stored other tx found

/-- Every channel has a receiver, and the services with channels are those with streams. -/
structure Current (w : System) : Prop where
  stored : Stored w
  alive : ∀ service tx, getKey w.state.watchers service = some tx → 0 < tx.receivers
  channels : ∀ service, service ∈ w.streams ↔ (getKey w.state.watchers service).isSome

theorem start_current : Current start := by
  refine ⟨?_, ?_, ?_⟩
  · intro service tx found
    cases found
  · intro service tx found
    cases found
  · intro service
    exact ⟨(by intro opened; cases opened), (by intro found; cases found)⟩

theorem current_settled {w : System} (current : Current w) : Settled w := by
  intro noSets _ service opened
  obtain ⟨tx, found⟩ := Option.isSome_iff_exists.mp ((current.channels service).mp opened)
  have value := current.stored service tx found
  simp only [Unsent, noSets, List.not_mem_nil, or_false] at value
  simp only [HealthState.watched, HealthState.check, found, Option.map_some, value]

theorem send_current {w : System} {service : String} {status : ServingStatus}
    (current : Current w) (timely : Timely w (.send service status)) :
    Current { w with
      state := w.state.notifyWatchers service status, sets := w.sets.erase (service, status) } := by
  refine ⟨send_stored current.stored ?_, ?_, ?_⟩
  · intro tx found
    have alive := current.alive service tx found
    simp only [Timely, found, Option.isNone_some, Bool.false_eq_true, false_or] at timely
    simpa only [WatchSender.send, Nat.ne_of_gt alive, if_false] using timely
  · intro other tx found
    simp only [notify_watcher] at found
    split at found
    · obtain ⟨old, before, rfl⟩ := Option.map_eq_some_iff.mp found
      have alive := current.alive other old before
      simpa only [WatchSender.send, Nat.ne_of_gt alive, if_false] using alive
    · exact current.alive other tx found
  · intro other
    have channels := current.channels other
    simp only [notify_watcher]
    split
    · simpa using channels
    · exact channels

theorem subscribe_current {w : System} {service : String} {initialStatus : Option ServingStatus}
    (current : Current w) (timely : Timely w (.subscribe service initialStatus)) :
    Current { w with
      state := w.state.subscribe service initialStatus
      streams := service :: w.streams
      watches := w.watches.erase (service, initialStatus) } := by
  refine ⟨subscribe_stored current.stored timely, ?_, ?_⟩
  · intro other tx found
    simp only [subscribe_watcher] at found
    split at found
    · cases found
      cases getKey w.state.watchers other with
      | some old => exact Nat.succ_pos _
      | none => exact Nat.one_pos
    · exact current.alive other tx found
  · intro other
    simp only [subscribe_watcher]
    by_cases same : service = other
    · subst same
      simp
    · rw [if_neg same, List.mem_cons, or_iff_right (Ne.symm same)]
      exact current.channels other

theorem step_current (w : System) (action : Action) (next : System) (current : Current w)
    (timely : Timely w action) (step : Step w action next) : Current next := by
  cases step with
  | write service status =>
    exact ⟨write_stored service status current.stored, current.alive, current.channels⟩
  | send _ => exact send_current current timely
  | read service => exact ⟨current.stored, current.alive, current.channels⟩
  | subscribe _ => exact subscribe_current current timely

section Losing
variable {w next : System} {service : String} {action : Action}

/-- A stream's channel stores another value than the status, and no set has still to send that. -/
structure Lost (w : System) (service : String) : Prop where
  opened : service ∈ w.streams
  stale : ∃ tx, getKey w.state.watchers service = some tx ∧ tx.value ≠ w.state.statusOf service
  sent : ¬ Unsent w w.sets service

theorem lost_unsettled (lost : Lost w service) (noSets : w.sets = []) (noWatches : w.watches = []) :
    ¬ Settled w := by
  intro settled
  obtain ⟨tx, found, stale⟩ := lost.stale
  have shown := settled noSets noWatches service lost.opened
  simp only [HealthState.watched, HealthState.check, found, Option.map_some, Option.some.injEq,
    HealthCheckResponse.mk.injEq] at shown
  exact stale (as_i32_injective shown)

theorem untimely_lost (current : Current w) (step : Step w action next)
    (untimely : ¬ Timely w action) : ∃ service, Lost next service := by
  cases step with
  | write service status => exact absurd trivial untimely
  | read service => exact absurd trivial untimely
  | @send service status written =>
    simp only [Timely, not_or, Option.isNone_iff_eq_none] at untimely
    obtain ⟨channel, other, unsent⟩ := untimely
    obtain ⟨tx, found⟩ := Option.ne_none_iff_exists'.mp channel
    have alive := current.alive service tx found
    have opened : service ∈ w.streams := (current.channels service).mpr (by rw [found]; rfl)
    refine ⟨service, opened, ⟨(tx.send status).2, ?_, ?_⟩, ?_⟩
    · simp [notify_watcher, found]
    · simpa [WatchSender.send, Nat.ne_of_gt alive] using other
    · simpa [Unsent] using unsent
  | @subscribe service initial wasRead =>
    simp only [Timely, not_or, Bool.not_eq_true, Option.isSome_eq_false_iff,
      Option.isNone_iff_eq_none] at untimely
    obtain ⟨channel, other, unsent⟩ := untimely
    refine ⟨service, List.mem_cons_self, ⟨watchChannel (initial.getD .serviceUnknown), ?_, ?_⟩, ?_⟩
    · simp [subscribe_watcher, channel]
    · simpa [watchChannel] using other
    · simpa [Unsent] using unsent

def Ends : System → Action → Prop
  | _, .send _ _ => True
  | _, .subscribe _ _ => True
  | _, _ => False

theorem ends_lost (w : System) (action : Action) (next : System) (lost : Lost w service)
    (ends : Ends w action) (step : Step w action next) : Lost next service := by
  obtain ⟨opened, ⟨tx, found, stale⟩, sent⟩ := lost
  cases step with
  | write name status => exact ends.elim
  | read name => exact ends.elim
  | @send name status written =>
    have unsent : ¬ Unsent w (w.sets.erase (name, status)) service := by
      intro later
      exact sent (List.mem_of_mem_erase later)
    by_cases same : name = service
    · subst same
      refine ⟨opened, ⟨(tx.send status).2, ?_, ?_⟩, by simpa [Unsent] using unsent⟩
      · simp [notify_watcher, found]
      · rw [notify_status_of]
        unfold WatchSender.send
        split
        · exact stale
        · intro current
          have now : status = w.state.statusOf name := current
          rw [now] at written
          exact sent written
    · refine ⟨opened, ⟨tx, ?_, ?_⟩, by simpa [Unsent] using unsent⟩
      · simp [notify_watcher, same, found]
      · simpa using stale
  | @subscribe name initial wasRead =>
    refine ⟨List.mem_cons_of_mem _ opened, ?_, by simpa [Unsent] using sent⟩
    simp only [subscribe_watcher, subscribe_status_of, found]
    split
    · exact ⟨_, rfl, stale⟩
    · exact ⟨tx, rfl, stale⟩

structure Ending (w : System) (actions : List Action) (v : System) : Prop where
  run : Run (Guarded Step Ends) w actions v
  noSets : v.sets = []
  noWatches : v.watches = []

theorem calls_end (w : System) : ∃ actions v, Ending w actions v := by
  obtain ⟨state, streams, sets, watches⟩ := w
  induction sets generalizing state with
  | cons set rest ih =>
    obtain ⟨service, status⟩ := set
    obtain ⟨actions, v, ending⟩ := ih (state.notifyWatchers service status)
    have sent : Step ⟨state, streams, (service, status) :: rest, watches⟩ (.send service status)
        ⟨state.notifyWatchers service status, streams, rest, watches⟩ := by
      simpa using Step.send (w := ⟨state, streams, (service, status) :: rest, watches⟩)
        List.mem_cons_self
    exact ⟨.send service status :: actions, v, .next ⟨trivial, sent⟩ ending.run, ending.noSets,
      ending.noWatches⟩
  | nil =>
    induction watches generalizing state streams with
    | nil => exact ⟨[], _, .stop _, rfl, rfl⟩
    | cons watch rest ih =>
      obtain ⟨service, initial⟩ := watch
      obtain ⟨actions, v, ending⟩ := ih (service :: streams) (state.subscribe service initial)
      have subscribed : Step ⟨state, streams, [], (service, initial) :: rest⟩
          (.subscribe service initial)
          ⟨state.subscribe service initial, service :: streams, [], rest⟩ := by
        simpa using Step.subscribe (w := ⟨state, streams, [], (service, initial) :: rest⟩)
          List.mem_cons_self
      exact ⟨.subscribe service initial :: actions, v, .next ⟨trivial, subscribed⟩ ending.run,
        ending.noSets, ending.noWatches⟩

end Losing

/-- In every interleaving whose sends and new channels are timely, no update is lost: in
    every state reached, if no call is in progress, every stream has the status. Any other send
    or new channel loses one: in whatever order the calls in progress then end, some stream has
    another value. -/
theorem timely_runs_settle {actions : List Action} {w : System}
    (run : Run (Guarded Step Timely) start actions w) :
    Settled w ∧ ∀ action next, Step w action next → ¬ Timely w action →
      (∃ ends v, Ending next ends v) ∧ ∀ ends v, Ending next ends v → ¬ Settled v := by
  have current := guarded_run_keeps step_current start_current run
  refine ⟨current_settled current, ?_⟩
  intro action next step untimely
  refine ⟨calls_end next, ?_⟩
  intro ends v ending
  obtain ⟨service, lost⟩ := untimely_lost current step untimely
  exact lost_unsettled (guarded_run_keeps ends_lost lost ending.run) ending.noSets ending.noWatches

/-- A set comes between the two steps of a Watch, and the next set between its own. -/
theorem overlapping_calls_settle :
    ∃ w, Run (Guarded Step Timely) start [.read "a", .write "a" .serving, .subscribe "a" none,
        .write "a" .notServing, .send "a" .serving, .send "a" .notServing] w ∧
      w.state.watched "a" = some ⟨2⟩ ∧ Settled w := by
  have run : Run (Guarded Step Timely) start [.read "a", .write "a" .serving, .subscribe "a" none,
      .write "a" .notServing, .send "a" .serving, .send "a" .notServing] _ :=
    .next ⟨trivial, .read "a"⟩ (.next ⟨trivial, .write "a" .serving⟩
      (.next ⟨by decide, .subscribe (by decide)⟩ (.next ⟨trivial, .write "a" .notServing⟩
        (.next ⟨by decide, .send (by decide)⟩ (.next ⟨by decide, .send (by decide)⟩ (.stop _))))))
  exact ⟨_, run, by decide, (timely_runs_settle run).1⟩

/-- A whole set comes between the two steps of the first Watch of its service: nobody
    sends the status to the channel that is then made with the older one. -/
theorem update_lost :
    ∃ w, Run Step start
        [.read "a", .write "a" .serving, .send "a" .serving, .subscribe "a" none] w ∧
      w.state.check "a" = ⟨1⟩ ∧ w.state.watched "a" = some ⟨3⟩ ∧ ¬ Settled w := by
  have run : Run Step start
      [.read "a", .write "a" .serving, .send "a" .serving, .subscribe "a" none] _ :=
    .next (.read "a") (.next (.write "a" .serving) (.next (.send (by decide))
      (.next (.subscribe (by decide)) (.stop _))))
  refine ⟨_, run, by decide, by decide, ?_⟩
  intro settled
  exact absurd (settled (by decide) (by decide) "a" (by decide)) (by decide)

end HealthInterleaving
