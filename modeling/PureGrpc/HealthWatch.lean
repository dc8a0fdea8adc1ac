import PureGrpc.HealthService
import PureGrpc.TransitionRuns

/-!
Health operations that do not overlap. A status that is set while a service
has a channel but no open Watch stream is not stored in the channel, and the
next Watch starts with the stale value. As long as no such status differs from
the stored value, every channel agrees with the statuses.
-/
namespace HealthWatch
open KeyedMultimap TransitionRuns HealthService

/-- The service's state, and the service of every Watch stream that is open. -/
structure Session where
  state : HealthState
  streams : List String
  deriving DecidableEq, Repr

inductive Operation where
  | setStatus (service : String) (status : ServingStatus)
  | watch (service : String)
  | dropWatch (service : String)
  | check (service : String)
  deriving DecidableEq, Repr

inductive Step : Session → Operation → Session → Prop where
  | setStatus {w} (service status) :
      Step w (.setStatus service status) { w with state := w.state.setStatus service status }
  | watch {w} (service) :
      Step w (.watch service) ⟨w.state.watch service, service :: w.streams⟩
  | dropWatch {w service} (opened : service ∈ w.streams) :
      Step w (.dropWatch service) ⟨w.state.dropWatch service, w.streams.erase service⟩
  | check {w} (service) : Step w (.check service) w

def start : Session := ⟨healthService, []⟩

/-- No status is set that the service's channel drops and does not already store. -/
def Stored (w : Session) : Operation → Prop
  | .setStatus service status =>
    service ∉ w.streams → ∀ tx, getKey w.state.watchers service = some tx → tx.value = status
  | _ => True

/-- The first message of a Watch opened now, and the current value of every open one, are
    what Check answers. -/
def Agrees (w : Session) : Prop :=
  (∀ service, (w.state.watch service).watched service = some (w.state.check service)) ∧
    ∀ service ∈ w.streams, w.state.watched service = some (w.state.check service)

/-- Every channel stores its service's status, and has a receiver for each open stream. -/
structure Consistent (w : Session) : Prop where
  values : ∀ service tx, getKey w.state.watchers service = some tx →
    tx.value = w.state.statusOf service
  receivers : ∀ service, ((getKey w.state.watchers service).elim 0 WatchSender.receivers) =
    w.streams.count service

theorem start_consistent : Consistent start := by
  constructor
  · intro service tx found
    cases found
  · intro service
    rfl

theorem consistent_agrees {w : Session} (consistent : Consistent w) : Agrees w := by
  constructor
  · intro service
    have initial := initial_status_of w.state service
    have values := consistent.values service
    simp only [HealthState.watched, HealthState.watch, HealthState.check, subscribe_watcher,
      if_true, Option.map_some]
    cases found : getKey w.state.watchers service with
    | some tx => simp only [Option.elim, WatchSender.subscribe, values tx found]
    | none => simp only [Option.elim, watchChannel, initial]
  · intro service opened
    have counted := consistent.receivers service
    have values := consistent.values service
    have some_stream := List.count_pos_iff.mpr opened
    simp only [HealthState.watched, HealthState.check]
    cases found : getKey w.state.watchers service with
    | some tx => simp only [Option.map_some, values tx found]
    | none =>
      rw [found, Option.elim] at counted
      omega

theorem set_status_consistent {w : Session} {service : String} {status : ServingStatus}
    (consistent : Consistent w) (stored : Stored w (.setStatus service status)) :
    Consistent { w with state := w.state.setStatus service status } := by
  constructor
  · intro other tx found
    simp only [HealthState.setStatus, notify_watcher, insert_status_watchers] at found
    simp only [HealthState.setStatus, notify_status_of, status_of_insert]
    split at found
    · rename_i same
      subst same
      obtain ⟨old, before, rfl⟩ := Option.map_eq_some_iff.mp found
      rw [if_pos rfl, WatchSender.send]
      have counted := consistent.receivers service
      rw [before, Option.elim] at counted
      split
      · rename_i none
        have closed : service ∉ w.streams := by
          intro opened
          have some_stream := List.count_pos_iff.mpr opened
          omega
        exact stored closed old before
      · rfl
    · rename_i other_name
      rw [if_neg other_name]
      exact consistent.values other tx found
  · intro other
    simp only [HealthState.setStatus, notify_watcher, insert_status_watchers]
    rw [← consistent.receivers other]
    split
    · cases getKey w.state.watchers other with
      | none => rfl
      | some tx =>
        simp only [Option.map_some, Option.elim, WatchSender.send]
        split <;> rfl
    · rfl

theorem watch_consistent {w : Session} (service : String) (consistent : Consistent w) :
    Consistent ⟨w.state.watch service, service :: w.streams⟩ := by
  have initial := initial_status_of w.state service
  constructor
  · intro other tx found
    simp only [HealthState.watch, subscribe_watcher] at found
    simp only [HealthState.watch, subscribe_status_of]
    split at found
    · rename_i same
      subst same
      cases found
      have values := consistent.values service
      cases before : getKey w.state.watchers service with
      | some old => simp only [Option.elim, WatchSender.subscribe, values old before]
      | none => simp only [Option.elim, watchChannel, initial]
    · exact consistent.values other tx found
  · intro other
    have counted := consistent.receivers other
    simp only [HealthState.watch, subscribe_watcher, List.count_cons]
    by_cases same : service = other
    · subst same
      simp only [if_true, Option.elim, beq_self_eq_true]
      rw [← counted]
      cases getKey w.state.watchers service with
      | some old => rfl
      | none => rfl
    · simp only [same, if_false, beq_iff_eq]
      exact counted

theorem drop_consistent {w : Session} (service : String) (consistent : Consistent w) :
    Consistent ⟨w.state.dropWatch service, w.streams.erase service⟩ := by
  constructor
  · intro other tx found
    simp only [drop_watch_watcher] at found
    simp only [drop_watch_status_of]
    split at found
    · obtain ⟨old, before, rfl⟩ := Option.map_eq_some_iff.mp found
      exact consistent.values other old before
    · exact consistent.values other tx found
  · intro other
    have counted := consistent.receivers other
    simp only [drop_watch_watcher]
    by_cases same : service = other
    · subst same
      rw [if_pos rfl, List.count_erase_self, ← counted]
      cases getKey w.state.watchers service <;> rfl
    · rw [if_neg same, List.count_erase_of_ne (Ne.symm same)]
      exact counted

theorem step_consistent (w : Session) (op : Operation) (next : Session)
    (consistent : Consistent w) (stored : Stored w op) (step : Step w op next) :
    Consistent next := by
  cases step with
  | setStatus service status => exact set_status_consistent consistent stored
  | watch service => exact watch_consistent service consistent
  | dropWatch _ => exact drop_consistent _ consistent
  | check service => exact consistent

theorem agreeing_step_stored {w next : Session} {op : Operation} (consistent : Consistent w)
    (step : Step w op next) (agrees : Agrees next) : Stored w op := by
  cases step with
  | setStatus service status =>
    intro closed tx found
    have counted := consistent.receivers service
    rw [found, Option.elim, List.count_eq_zero_of_not_mem closed] at counted
    have first := agrees.1 service
    simp only [HealthState.watched, HealthState.watch, HealthState.check, subscribe_watcher, if_true,
      HealthState.setStatus, notify_watcher, insert_status_watchers, found, Option.map_some,
      Option.elim, WatchSender.send, counted, WatchSender.subscribe, notify_status_of,
      status_of_insert, Option.some.injEq, HealthCheckResponse.mk.injEq] at first
    exact as_i32_injective first
  | _ => trivial

/-- In every run in which no status goes into a channel without receivers that stores
    another one, Watch agrees with Check in every state reached, and the next step
    keeps it so exactly if it is of that kind again. -/
theorem stored_runs_agree {ops : List Operation} {w : Session}
    (run : Run (Guarded Step Stored) start ops w) :
    Agrees w ∧ ∀ op next, Step w op next → (Agrees next ↔ Stored w op) := by
  have consistent := guarded_run_keeps step_consistent start_consistent run
  refine ⟨consistent_agrees consistent, ?_⟩
  intro op next step
  constructor
  · exact agreeing_step_stored consistent step
  · intro stored
    exact consistent_agrees (step_consistent w op next consistent stored step)

/-- A service is set while it is watched, and watched again after the stream is dropped. -/
theorem watched_set_agrees :
    ∃ w, Run (Guarded Step Stored) start [.watch "a", .setStatus "a" .serving, .dropWatch "a"] w ∧
      Agrees w := by
  have run : Run (Guarded Step Stored) start
      [.watch "a", .setStatus "a" .serving, .dropWatch "a"] _ :=
    .next ⟨trivial, .watch "a"⟩ (.next ⟨fun closed => absurd (List.mem_cons_self ..) closed,
      .setStatus "a" .serving⟩ (.next ⟨trivial, .dropWatch (List.mem_cons_self ..)⟩ (.stop _)))
  exact ⟨_, run, (stored_runs_agree run).1⟩

/-- A Watch is opened and dropped, the service is set to serving, and is then watched
    again: the new stream starts with the value from before. -/
theorem watch_starts_stale :
    ∃ w, Run Step start [.watch "a", .dropWatch "a", .setStatus "a" .serving] w ∧
      w.state.check "a" = ⟨1⟩ ∧ (w.state.watch "a").watched "a" = some ⟨3⟩ ∧ ¬ Agrees w := by
  refine ⟨_, .next (.watch "a") (.next (.dropWatch (List.mem_cons_self ..))
    (.next (.setStatus "a" .serving) (.stop _))), by decide, by decide, ?_⟩
  intro agrees
  exact absurd (agrees.1 "a") (by decide)

end HealthWatch
