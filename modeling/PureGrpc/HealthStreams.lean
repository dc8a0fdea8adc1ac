import PureGrpc.HealthInterleaving
import PureGrpc.WatchedValues

/-!
The Watch streams themselves: what each has shown its client, while calls overlap and streams
come and go. The channel of a service is a watched value, and every step of the server is one
of its steps, or leaves it alone.
-/
namespace HealthStreams
open KeyedMultimap TransitionRuns HealthService WatchedValues
open HealthInterleaving (Unsent)

structure System where
  calls : HealthInterleaving.System
  receivers : String → List (Receiver ServingStatus)

def start : System := ⟨HealthInterleaving.start, fun _ => []⟩

inductive Action where
  | call (action : HealthInterleaving.Action)
  | poll (service : String) (k : Nat)
  | drop (service : String) (k : Nat)
  deriving DecidableEq, Repr

/-- What a step of a call is to the channel of a service that has one. -/
def eventOf (service : String) : Action → Option (Event ServingStatus)
  | .call (.send name status) => if name = service then some (.send status) else none
  | .call (.subscribe name _) => if name = service then some .subscribe else none
  | .call _ => none
  | .poll name k => if name = service then some (.poll k) else none
  | .drop name k => if name = service then some (.drop k) else none

def heard (receivers : List (Receiver ServingStatus)) (service : String) :
    HealthInterleaving.Action → List (Receiver ServingStatus)
  | .send name _ => if name = service ∧ live receivers ≠ 0 then receivers.map .notify
    else receivers
  | .subscribe name _ => if name = service then receivers ++ [.new] else receivers
  | _ => receivers

inductive Step : System → Action → System → Prop where
  | call {w action calls} (step : HealthInterleaving.Step w.calls action calls) :
      Step w (.call action) ⟨calls, fun service => heard (w.receivers service) service action⟩
  | poll {w service k r tx} (channel : getKey w.calls.state.watchers service = some tx)
      (found : (w.receivers service)[k]? = some r) (alive : r.alive = true) :
      Step w (.poll service k) ⟨w.calls,
        Function.update w.receivers service ((w.receivers service).set k (r.poll tx.value))⟩
  | drop {w service k r} (found : (w.receivers service)[k]? = some r) (alive : r.alive = true) :
      Step w (.drop service k)
        ⟨{ w.calls with
            state := w.calls.state.dropWatch service, streams := w.calls.streams.erase service },
          Function.update w.receivers service ((w.receivers service).set k r.drop)⟩

/-- Senders count their receivers, and there are none where there is no channel. -/
def Counted (w : System) : Prop := ∀ service,
  (getKey w.calls.state.watchers service).elim 0 WatchSender.receivers = live (w.receivers service)

theorem start_counted : Counted start := fun _ => rfl

section Steps
variable {w next : System} {action : Action} {service : String}

theorem step_other (step : Step w action next) (other : eventOf service action = none) :
    getKey next.calls.state.watchers service = getKey w.calls.state.watchers service ∧
      next.receivers service = w.receivers service := by
  cases step with
  | call step =>
    cases step with
    | write name status => exact ⟨rfl, rfl⟩
    | read name => exact ⟨rfl, rfl⟩
    | @send name status _ =>
      have apart : name ≠ service := by simpa [eventOf] using other
      simp [notify_watcher, heard, apart]
    | @subscribe name initial _ =>
      have apart : name ≠ service := by simpa [eventOf] using other
      simp [subscribe_watcher, heard, apart]
  | @poll name k r tx _ _ _ =>
    have apart : name ≠ service := by simpa [eventOf] using other
    simp [Function.update_of_ne apart.symm]
  | @drop name k r _ _ =>
    have apart : name ≠ service := by simpa [eventOf] using other
    simp [drop_watch_watcher, Function.update_of_ne apart.symm, apart]

theorem sent_channel {tx : WatchSender} {receivers : List (Receiver ServingStatus)}
    (counted : tx.receivers = live receivers) (status : ServingStatus) :
    (⟨(tx.send status).2.value, heard receivers service (.send service status)⟩ :
      Channel ServingStatus) = (⟨tx.value, receivers⟩ : Channel ServingStatus).send status := by
  by_cases unheard : live receivers = 0
  · simp [WatchSender.send, heard, Channel.send, counted, unheard]
  · simp [WatchSender.send, heard, Channel.send, counted, unheard]

/-- To a service that has a channel, a step of the server is one of its channel's. -/
theorem step_channel (counted : Counted w) (step : Step w action next) {tx : WatchSender}
    (found : getKey w.calls.state.watchers service = some tx) {event : Event ServingStatus}
    (acts : eventOf service action = some event) : ∃ tx',
      getKey next.calls.state.watchers service = some tx' ∧
      WatchedValues.Step ⟨tx.value, w.receivers service⟩ event
        ⟨tx'.value, next.receivers service⟩ := by
  cases step with
  | call step =>
    cases step with
    | write name status => cases acts
    | read name => cases acts
    | @send name status _ =>
      obtain ⟨rfl, rfl⟩ : name = service ∧ .send status = event := by simpa [eventOf] using acts
      refine ⟨(tx.send status).2, by simp [notify_watcher, found], ?_⟩
      rw [sent_channel (by simpa [found] using counted name) status]
      exact .send status
    | @subscribe name initial _ =>
      obtain ⟨rfl, rfl⟩ : name = service ∧ .subscribe = event := by simpa [eventOf] using acts
      refine ⟨tx.subscribe, by simp [subscribe_watcher, found], ?_⟩
      simp only [heard, if_true]
      exact .subscribe
  | @poll name k r tx' channel here alive =>
    obtain ⟨rfl, rfl⟩ : name = service ∧ .poll k = event := by simpa [eventOf] using acts
    cases channel.symm.trans found
    refine ⟨tx, found, ?_⟩
    simp only [Function.update_self]
    exact .poll here alive
  | @drop name k r here alive =>
    obtain ⟨rfl, rfl⟩ : name = service ∧ .drop k = event := by simpa [eventOf] using acts
    refine ⟨tx.dropReceiver, by simp [drop_watch_watcher, found], ?_⟩
    simp only [Function.update_self]
    exact .drop here alive

theorem live_poll {receivers : List (Receiver ServingStatus)} {k : Nat}
    {r : Receiver ServingStatus} (found : receivers[k]? = some r) (alive : r.alive = true)
    (value : ServingStatus) : live (receivers.set k (r.poll value)) = live receivers := by
  have kept : (r.poll value).alive = true := by
    unfold Receiver.poll
    split <;> exact alive
  rw [live_set found alive, if_pos kept]

theorem live_sent (receivers : List (Receiver ServingStatus)) (name : String)
    (status : ServingStatus) :
    live (heard receivers service (.send name status)) = live receivers := by
  simp only [heard]
  split
  · exact live_notify receivers
  · rfl

theorem step_counted (counted : Counted w) (step : Step w action next) : Counted next := by
  intro service
  have count := counted service
  cases step with
  | call step =>
    cases step with
    | write name status => exact count
    | read name => exact count
    | @send name status _ =>
      rw [live_sent, ← count, notify_watcher]
      split
      · cases getKey w.calls.state.watchers service with
        | none => rfl
        | some tx =>
          simp only [Option.map_some, Option.elim, WatchSender.send]
          split <;> rfl
      · rfl
    | @subscribe name initial _ =>
      simp only [subscribe_watcher, heard]
      split
      · rw [live_subscribe, ← count]
        cases getKey w.calls.state.watchers service <;> rfl
      · exact count
  | @poll name k r tx channel found alive =>
    dsimp only
    by_cases same : name = service
    · subst same
      rw [Function.update_self, live_poll found alive]
      exact count
    · rw [Function.update_of_ne (Ne.symm same)]
      exact count
  | @drop name k r found alive =>
    simp only [drop_watch_watcher]
    by_cases same : name = service
    · subst same
      rw [if_pos rfl, Function.update_self, live_set found alive, ← count]
      cases getKey w.calls.state.watchers name <;> rfl
    · rw [if_neg same, Function.update_of_ne (Ne.symm same)]
      exact count

end Steps

section Runs
variable {w v : System} {service : String}

theorem run_channel {actions : List Action} (run : Run Step w actions v) (counted : Counted w)
    {tx : WatchSender} (found : getKey w.calls.state.watchers service = some tx) : ∃ tx',
      getKey v.calls.state.watchers service = some tx' ∧
      Run WatchedValues.Step ⟨tx.value, w.receivers service⟩ (actions.filterMap (eventOf service))
        ⟨tx'.value, v.receivers service⟩ := by
  induction run generalizing tx with
  | stop => exact ⟨tx, found, .stop _⟩
  | @next w action u actions v step rest ih =>
    have kept := step_counted counted step
    cases acts : eventOf service action with
    | none =>
      obtain ⟨channel, receivers⟩ := step_other step acts
      obtain ⟨tx', ends, own⟩ := ih kept (channel.trans found)
      rw [List.filterMap_cons_none acts, ← receivers]
      exact ⟨tx', ends, own⟩
    | some event =>
      obtain ⟨next, channel, first⟩ := step_channel counted step found acts
      obtain ⟨tx', ends, own⟩ := ih kept channel
      rw [List.filterMap_cons_some acts]
      exact ⟨tx', ends, .next first own⟩

theorem step_makes {action : Action} (step : Step w action v)
    (none : getKey w.calls.state.watchers service = none) {tx : WatchSender}
    (found : getKey v.calls.state.watchers service = some tx) :
    v.receivers service = w.receivers service ++ [.new] := by
  cases step with
  | call step =>
    cases step with
    | write name status => cases none.symm.trans found
    | read name => cases none.symm.trans found
    | send _ => simp [notify_watcher, none] at found
    | @subscribe name initial _ =>
      by_cases same : name = service
      · simp [heard, same]
      · simp [subscribe_watcher, same, none] at found
  | poll _ _ _ => cases none.symm.trans found
  | drop _ _ => simp [drop_watch_watcher, none] at found

/-- Senders count their receivers, and those with nothing to show have shown the value last. -/
structure Sound (w : System) : Prop where
  counted : Counted w
  level : ∀ service tx, getKey w.calls.state.watchers service = some tx →
    Level ⟨tx.value, w.receivers service⟩

theorem start_sound : Sound start := by
  refine ⟨start_counted, ?_⟩
  intro service tx found
  cases found

theorem step_sound (w : System) (action : Action) (next : System) (sound : Sound w)
    (step : Step w action next) : Sound next := by
  refine ⟨step_counted sound.counted step, ?_⟩
  intro service tx found
  cases before : getKey w.calls.state.watchers service with
  | some old =>
    cases acts : eventOf service action with
    | none =>
      obtain ⟨channel, receivers⟩ := step_other step acts
      rw [channel, before] at found
      cases found
      rw [receivers]
      exact sound.level service tx before
    | some event =>
      obtain ⟨tx', channel, own⟩ := step_channel sound.counted step before acts
      cases channel.symm.trans found
      exact step_level (sound.level service old before) own
  | none =>
    have gone : live (w.receivers service) = 0 := by
      have counted := sound.counted service
      rw [before] at counted
      exact counted.symm
    rw [step_makes step before found]
    -- the receivers from before are gone
    apply new_level (c := ⟨tx.value, w.receivers service⟩)
    intro r mem alive
    have some_live : 0 < live (w.receivers service) := live_alive mem alive
    omega

def sentTo (service : String) (actions : List Action) : List ServingStatus :=
  (actions.filterMap (eventOf service)).filterMap sent

/-- In every interleaving a Watch stream shows its client, in order, some of the statuses: the
    one it found in its channel and those sent since. If it is polled now, what it shows last is
    the channel's. -/
theorem watch_stream_shows {before more : List Action} {w opened v : System} {service : String}
    {initialStatus : Option ServingStatus} (run : Run Step start before w)
    (opens : Step w (.call (.subscribe service initialStatus)) opened)
    (rest : Run Step opened more v) :
    ∃ first tx r, getKey opened.calls.state.watchers service = some first ∧
      getKey v.calls.state.watchers service = some tx ∧
      (v.receivers service)[(w.receivers service).length]? = some r ∧
      r.shown.Sublist (first.value :: sentTo service more) ∧
      (r.alive = true → (r.poll tx.value).shown.getLast? = some tx.value) := by
  have sound := step_sound _ _ _ (run_keeps step_sound start_sound run) opens
  have ended := run_keeps step_sound sound rest
  have made : (getKey opened.calls.state.watchers service).isSome ∧
      opened.receivers service = w.receivers service ++ [.new] := by
    cases opens with
    | call step =>
      cases step with
      | subscribe => simp [subscribe_watcher, heard]
  obtain ⟨channel, receivers⟩ := made
  obtain ⟨first, found⟩ := Option.isSome_iff_exists.mp channel
  obtain ⟨tx, last, own⟩ := run_channel rest sound.counted found
  rw [receivers] at own
  obtain ⟨r, here, follows⟩ := subscriber_follows own
  refine ⟨first, tx, r, found, last, here, follows.order, ?_⟩
  intro alive
  exact poll_level (ended.level service tx last r (List.mem_of_getElem? here) alive)

/-- What a channel stores after a send, or what one is made with, is the service's status, or
    the status is still to be sent by another set. -/
def Kept (w : System) : Action → Prop
  | .call (.send service status) => ∀ tx, getKey w.calls.state.watchers service = some tx →
    (tx.send status).2.value = w.calls.state.statusOf service ∨
      Unsent w.calls (w.calls.sets.erase (service, status)) service
  | .call (.subscribe service initialStatus) =>
    HealthInterleaving.Timely w.calls (.subscribe service initialStatus)
  | _ => True

theorem step_stored (w : System) (action : Action) (next : System)
    (stored : HealthInterleaving.Stored w.calls) (kept : Kept w action)
    (step : Step w action next) : HealthInterleaving.Stored next.calls := by
  cases step with
  | call step =>
    cases step with
    | write service status => exact HealthInterleaving.write_stored service status stored
    | send _ => exact HealthInterleaving.send_stored stored kept
    | read service => exact stored
    | subscribe _ => exact HealthInterleaving.subscribe_stored stored kept
  | poll _ _ _ => exact stored
  | @drop name k r _ _ =>
    intro service tx found
    simp only [drop_watch_watcher] at found
    simp only [Unsent, drop_watch_status_of]
    split at found
    · obtain ⟨old, before, rfl⟩ := Option.map_eq_some_iff.mp found
      exact stored service old before
    · exact stored service tx found

/-- However calls overlap and streams come and go, as long as each channel keeps up with its
    service: when no set is in progress, every open stream that is polled shows the answer of
    Check last. -/
theorem open_stream_told {actions : List Action} {w : System}
    (run : Run (Guarded Step Kept) start actions w) (noSets : w.calls.sets = [])
    {service : String} {r : Receiver ServingStatus} (mem : r ∈ w.receivers service)
    (alive : r.alive = true) : ∃ tx, getKey w.calls.state.watchers service = some tx ∧
      (r.poll tx.value).shown.getLast? = some (w.calls.state.statusOf service) := by
  have sound : Sound w :=
    guarded_run_keeps (fun w action next sound _ => step_sound w action next sound) start_sound run
  have stored : HealthInterleaving.Stored w.calls :=
    guarded_run_keeps step_stored HealthInterleaving.start_current.stored run
  have counted := sound.counted service
  have some_live := live_alive mem alive
  cases found : getKey w.calls.state.watchers service with
  | none =>
    rw [found, Option.elim] at counted
    omega
  | some tx =>
    have value := stored service tx found
    simp only [Unsent, noSets, List.not_mem_nil, or_false] at value
    refine ⟨tx, rfl, ?_⟩
    rw [← value]
    exact poll_level (sound.level service tx found r mem alive)

end Runs

section Streams

def readFirst : System := ⟨⟨healthService, [], [], [("a", none)]⟩, fun _ => []⟩

/-- A stream that is polled late misses a status. -/
theorem late_stream_shows : ∃ (v : System) (r : Receiver ServingStatus),
    (v.receivers "a")[0]? = some r ∧ r.shown = [.serviceUnknown, .notServing] ∧
      r.shown.Sublist [.serviceUnknown, .serving, .notServing] := by
  have run : Run Step start [.call (.read "a")] readFirst := .next (.call (.read "a")) (.stop _)
  obtain ⟨first, tx, r, found, last, here, order, polled⟩ := @watch_stream_shows _
    [.poll "a" 0, .call (.write "a" .serving), .call (.write "a" .notServing),
      .call (.send "a" .serving), .call (.send "a" .notServing), .poll "a" 0] _ _ _ "a" none run
    (.call (.subscribe List.mem_cons_self)) (.next (.poll rfl rfl rfl)
      (.next (.call (.write "a" .serving)) (.next (.call (.write "a" .notServing))
      (.next (.call (.send (by decide))) (.next (.call (.send (by decide)))
      (.next (.poll rfl rfl rfl) (.stop _)))))))
  exact ⟨_, r, here, by cases here; rfl, by cases found; exact order⟩

/-- Of two streams one goes away, and the other is told of the set that comes then. -/
theorem second_stream_told : ∃ (w : System) (tx : WatchSender) (r : Receiver ServingStatus),
    r ∈ w.receivers "a" ∧ r.alive = true ∧ r.shown = [] ∧
      getKey w.calls.state.watchers "a" = some tx ∧
      (r.poll tx.value).shown.getLast? = some .serving := by
  have sent (tx : WatchSender) (found : getKey [("a", ⟨.serviceUnknown, 1⟩)] "a" = some tx) :
      (tx.send .serving).2.value = .serving := by
    cases found
    rfl
  have run : Run (Guarded Step Kept) start [.call (.read "a"), .call (.subscribe "a" none),
      .call (.read "a"), .call (.subscribe "a" none), .drop "a" 0, .call (.write "a" .serving),
      .call (.send "a" .serving)] _ :=
    .next ⟨trivial, .call (.read "a")⟩
      (.next ⟨.inr (.inl rfl), .call (.subscribe List.mem_cons_self)⟩
      (.next ⟨trivial, .call (.read "a")⟩
      (.next ⟨.inl rfl, .call (.subscribe List.mem_cons_self)⟩
      (.next ⟨trivial, .drop rfl rfl⟩ (.next ⟨trivial, .call (.write "a" .serving)⟩
      (.next ⟨fun tx found => .inl (sent tx found), .call (.send (by decide))⟩ (.stop _)))))))
  have mem : (⟨[], true, true⟩ : Receiver ServingStatus) ∈ [⟨[], true, false⟩, ⟨[], true, true⟩] :=
    List.mem_cons_of_mem _ List.mem_cons_self
  obtain ⟨tx, found, told⟩ := @open_stream_told _ _ run rfl "a" _ mem rfl
  exact ⟨_, tx, _, mem, rfl, rfl, found, told⟩

end Streams

end HealthStreams
