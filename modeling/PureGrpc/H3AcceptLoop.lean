import PureGrpc.AcceptLoop

/-!
The HTTP/3 server's accept loop. A connection's task holds a permit through the handshake and
while the connection brings requests, and each request has a task of its own, which holds
none. No error is passed on from the loop; when it is left, serving returns.
-/
namespace H3AcceptLoop
open TransitionRuns
open AcceptLoop (Semaphore try_acquire_ok try_acquire_closed)

structure H3Server where
  concurrencyLimit : Nat
  limited : 0 < concurrencyLimit

theorem default_limited : 0 < AcceptLoop.defaultConcurrencyLimit := by decide

def H3Server.builder : H3Server := ⟨AcceptLoop.defaultConcurrencyLimit, default_limited⟩

/-- What the task of a connection does; once it is over it has dropped its permit. -/
inductive Stage where
  | handshaking
  | serving
  | done
  deriving DecidableEq, Repr

structure Connection where
  stage : Stage
  requests : Nat
  deriving DecidableEq, Repr

def Connection.live (self : Connection) : Bool := self.stage ≠ .done

inductive Phase where
  | selecting
  | waiting
  | returned
  deriving DecidableEq, Repr

structure System where
  phase : Phase
  sem : Semaphore
  signalled : Bool
  connections : List Connection

def H3Server.start (server : H3Server) : System :=
  ⟨.selecting, ⟨server.concurrencyLimit, false⟩, false, []⟩

/-- However the loop is left, Ok is returned. -/
def System.leave (w : System) : System := { w with phase := .returned }

def System.spawn (w : System) (sem : Semaphore) : System :=
  { w with phase := .selecting, sem, connections := w.connections ++ [⟨.handshaking, 0⟩] }

def System.takeSlot (w : System) : System :=
  match w.sem.tryAcquire with
  | .ok sem => w.spawn sem
  | .error _ => { w with phase := .waiting }

def System.setConnection (w : System) (i : Nat) (connection : Connection) : System :=
  { w with connections := w.connections.set i connection }

/-- A connection's task that is over drops its permit; its requests have tasks of their own. -/
def System.endTask (w : System) (i : Nat) (connection : Connection) : System :=
  { w.setConnection i { connection with stage := .done } with
    sem := { w.sem with permits := w.sem.permits + 1 } }

inductive Event where
  | incoming
  | endpointClosed
  | acquire
  | closed
  | signal
  | shutdown
  | handshake (i : Nat)
  | handshakeFails (i : Nat)
  | request (i : Nat)
  | answer (i : Nat)
  | requestFails (i : Nat)
  | finish (i : Nat)
  deriving DecidableEq, Repr

inductive Step : System → Event → System → Prop where
  | incoming {w} (idle : w.phase = .selecting) : Step w .incoming w.takeSlot
  | endpointClosed {w} (idle : w.phase = .selecting) : Step w .endpointClosed w.leave
  | acquire {w sem} (waits : w.phase = .waiting) (free : w.sem.tryAcquire = .ok sem) :
      Step w .acquire (w.spawn sem)
  | closed {w} (waits : w.phase = .waiting) (shut : w.sem.tryAcquire = .error .closed) :
      Step w .closed w.leave
  | signal {w} : Step w .signal { w with signalled := true }
  | shutdown {w} (idle : w.phase = .selecting) (fired : w.signalled = true) :
      Step w .shutdown w.leave
  | handshake {w i c} (here : w.connections[i]? = some c) (stage : c.stage = .handshaking) :
      Step w (.handshake i) (w.setConnection i { c with stage := .serving })
  | handshakeFails {w i c} (here : w.connections[i]? = some c) (stage : c.stage = .handshaking) :
      Step w (.handshakeFails i) (w.endTask i c)
  | request {w i c} (here : w.connections[i]? = some c) (stage : c.stage = .serving) :
      Step w (.request i) (w.setConnection i { c with requests := c.requests + 1 })
  | answer {w i c} (here : w.connections[i]? = some c) (works : 0 < c.requests) :
      Step w (.answer i) (w.setConnection i { c with requests := c.requests - 1 })
  | requestFails {w i c} (here : w.connections[i]? = some c) (works : 0 < c.requests) :
      Step w (.requestFails i) (w.setConnection i { c with requests := c.requests - 1 })
  | finish {w i c} (here : w.connections[i]? = some c) (stage : c.stage = .serving) :
      Step w (.finish i) (w.endTask i c)

structure Balanced (server : H3Server) (w : System) : Prop where
  slots : w.sem.permits + w.connections.countP Connection.live = server.concurrencyLimit
  unclosed : w.sem.closed = false

theorem start_balanced (server : H3Server) : Balanced server server.start := ⟨rfl, rfl⟩

theorem spawn_balanced {server : H3Server} {w : System} {sem : Semaphore}
    (balanced : Balanced server w) (free : w.sem.tryAcquire = .ok sem) :
    Balanced server (w.spawn sem) := by
  obtain ⟨count, same⟩ := try_acquire_ok free
  constructor
  · have slots := balanced.slots
    have new : Connection.live ⟨.handshaking, 0⟩ = true := rfl
    simp only [System.spawn, List.countP_append, List.countP_singleton, new, if_true]
    omega
  · exact same.trans balanced.unclosed

theorem count_set {connections : List Connection} {i : Nat} {c d : Connection}
    (here : connections[i]? = some c) :
    (connections.set i d).countP Connection.live + (if c.live then 1 else 0) =
      connections.countP Connection.live + if d.live then 1 else 0 := by
  obtain ⟨within, same⟩ := List.getElem?_eq_some_iff.mp here
  have least := List.boole_getElem_le_countP (p := Connection.live) within
  rw [List.countP_set within]
  rw [same] at least ⊢
  omega

theorem set_balanced {server : H3Server} {w : System} {i : Nat} {c d : Connection}
    (balanced : Balanced server w) (here : w.connections[i]? = some c) (same : d.live = c.live) :
    Balanced server (w.setConnection i d) := by
  constructor
  · have slots := balanced.slots
    have counted := count_set (d := d) here
    rw [same] at counted
    simp only [System.setConnection]
    omega
  · exact balanced.unclosed

theorem end_balanced {server : H3Server} {w : System} {i : Nat} {c : Connection}
    (balanced : Balanced server w) (here : w.connections[i]? = some c) (live : c.live = true) :
    Balanced server (w.endTask i c) := by
  constructor
  · have slots := balanced.slots
    have counted := count_set (d := { c with stage := .done }) here
    rw [live] at counted
    have ended : ({ c with stage := .done } : Connection).live = false := rfl
    rw [ended] at counted
    simp only [System.endTask, System.setConnection]
    simp only [if_true, Bool.false_eq_true, if_false] at counted
    omega
  · exact balanced.unclosed

theorem live_of {c : Connection} {stage : Stage} (same : c.stage = stage) (other : stage ≠ .done) :
    c.live = true := by
  simp [Connection.live, same, other]

theorem step_balanced {server : H3Server} (w : System) (event : Event) (v : System)
    (balanced : Balanced server w) (step : Step w event v) : Balanced server v := by
  cases step with
  | incoming =>
    unfold System.takeSlot
    cases free : w.sem.tryAcquire with
    | ok sem => exact spawn_balanced balanced free
    | error => exact ⟨balanced.slots, balanced.unclosed⟩
  | endpointClosed => exact ⟨balanced.slots, balanced.unclosed⟩
  | acquire _ free => exact spawn_balanced balanced free
  | closed => exact ⟨balanced.slots, balanced.unclosed⟩
  | signal => exact ⟨balanced.slots, balanced.unclosed⟩
  | shutdown => exact ⟨balanced.slots, balanced.unclosed⟩
  | handshake here stage =>
    exact set_balanced balanced here ((live_of stage (by decide)).symm ▸ rfl)
  | handshakeFails here stage => exact end_balanced balanced here (live_of stage (by decide))
  | request here => exact set_balanced balanced here rfl
  | answer here => exact set_balanced balanced here rfl
  | requestFails here => exact set_balanced balanced here rfl
  | finish here stage => exact end_balanced balanced here (live_of stage (by decide))

def Frees : Event → Bool
  | .acquire => true
  | .handshakeFails _ => true
  | .finish _ => true
  | _ => false

/-- The loop takes its next connection, at the latest after connections have ended. -/
def Accepting (w : System) : Prop :=
  ∃ events v, Run Step w events v ∧ (∀ event ∈ events, Frees event) ∧ v.phase = .selecting

theorem free_accepting {w : System} (waits : w.phase = .waiting) (unclosed : w.sem.closed = false)
    (free : 0 < w.sem.permits) : ∃ v, Run Step w [.acquire] v ∧ v.phase = .selecting := by
  have acquired : w.sem.tryAcquire = .ok { w.sem with permits := w.sem.permits - 1 } := by
    simp only [Semaphore.tryAcquire, unclosed, Nat.ne_of_gt free]
    rfl
  exact ⟨_, .next (.acquire waits acquired) (.stop _), rfl⟩

theorem full_accepting {server : H3Server} {w : System} (balanced : Balanced server w)
    (waits : w.phase = .waiting) (full : w.sem.permits = 0) : Accepting w := by
  have slots := balanced.slots
  have limited := server.limited
  obtain ⟨c, mem, live⟩ : ∃ c ∈ w.connections, c.live = true :=
    List.countP_pos_iff.mp (by omega)
  obtain ⟨i, within, same⟩ := List.getElem_of_mem mem
  have here : w.connections[i]? = some c := List.getElem?_eq_some_iff.mpr ⟨within, same⟩
  have ended := end_balanced balanced here live
  have waiting : (w.endTask i c).phase = .waiting := waits
  obtain ⟨v, run, idle⟩ := free_accepting waiting ended.unclosed (Nat.succ_pos _)
  cases stage : c.stage with
  | handshaking =>
    exact ⟨[.handshakeFails i, .acquire], v, .next (.handshakeFails here stage) run,
      by simp [Frees], idle⟩
  | serving =>
    exact ⟨[.finish i, .acquire], v, .next (.finish here stage) run, by simp [Frees], idle⟩
  | done => simp [Connection.live, stage] at live

theorem running_accepting {server : H3Server} {w : System} (balanced : Balanced server w)
    (running : w.phase ≠ .returned) : Accepting w := by
  cases phase : w.phase with
  | selecting => exact ⟨[], w, .stop w, by simp, phase⟩
  | waiting =>
    rcases Nat.eq_zero_or_pos w.sem.permits with full | free
    · exact full_accepting balanced phase full
    · obtain ⟨v, run, idle⟩ := free_accepting phase balanced.unclosed free
      exact ⟨[.acquire], v, run, by simp [Frees], idle⟩
  | returned => exact absurd phase running

/-- The loop is running, or the signal or the end of the endpoint has been behind it. -/
structure Surviving (server : H3Server) (events : List Event) (w : System) : Prop where
  balanced : Balanced server w
  fired : w.signalled = true → .signal ∈ events
  running : w.phase = .returned → .signal ∈ events ∨ .endpointClosed ∈ events

theorem step_surviving {server : H3Server} {before : List Event} {w v : System} {event : Event}
    (surviving : Surviving server before w) (step : Step w event v) :
    Surviving server (before ++ [event]) v := by
  have kept {event : Event} (mem : event ∈ before) (last : Event) : event ∈ before ++ [last] :=
    List.mem_append_left _ mem
  have fired (same : v.signalled = w.signalled) (again : v.signalled = true) :
      Event.signal ∈ before ++ [event] := kept (surviving.fired (same ▸ again)) event
  have running (same : v.phase = .returned → w.phase = .returned) (ended : v.phase = .returned) :
      Event.signal ∈ before ++ [event] ∨ Event.endpointClosed ∈ before ++ [event] :=
    (surviving.running (same ended)).imp (kept · event) (kept · event)
  have balanced := step_balanced w event v surviving.balanced step
  cases step with
  | incoming =>
    unfold System.takeSlot at *
    cases free : w.sem.tryAcquire with
    | ok sem =>
      rw [free] at balanced fired
      exact ⟨balanced, fired rfl, fun wrong => by cases wrong⟩
    | error =>
      rw [free] at balanced fired
      exact ⟨balanced, fired rfl, fun wrong => by cases wrong⟩
  | endpointClosed => exact ⟨balanced, fired rfl, fun _ => .inr (by simp)⟩
  | acquire => exact ⟨balanced, fired rfl, fun wrong => by cases wrong⟩
  | closed waits shut =>
    cases (try_acquire_closed shut).symm.trans surviving.balanced.unclosed
  | signal => exact ⟨balanced, fun _ => by simp, running id⟩
  | shutdown _ signalled =>
    exact ⟨balanced, fired rfl, fun _ => .inl (kept (surviving.fired signalled) _)⟩
  | handshake => exact ⟨balanced, fired rfl, running id⟩
  | handshakeFails => exact ⟨balanced, fired rfl, running id⟩
  | request => exact ⟨balanced, fired rfl, running id⟩
  | answer => exact ⟨balanced, fired rfl, running id⟩
  | requestFails => exact ⟨balanced, fired rfl, running id⟩
  | finish => exact ⟨balanced, fired rfl, running id⟩

theorem run_surviving {server : H3Server} {before events : List Event} {w v : System}
    (surviving : Surviving server before w) (run : Run Step w events v) :
    Surviving server (before ++ events) v := by
  induction run generalizing before with
  | stop => rwa [List.append_nil]
  | next step _ ih =>
    have rest := ih (step_surviving surviving step)
    rwa [List.append_assoc] at rest

/-- In every run no more connections are served than there are permits; and whatever
    connections, handshakes and requests fail, only the signal or the end of the endpoint keeps
    the server from taking its next connection. -/
theorem h3_server_survives (server : H3Server) {events : List Event} {w : System}
    (run : Run Step server.start events w) :
    w.connections.countP Connection.live ≤ server.concurrencyLimit ∧
      (.signal ∉ events → .endpointClosed ∉ events → Accepting w) := by
  have start : Surviving server [] server.start :=
    ⟨start_balanced server, fun wrong => (by cases wrong), fun wrong => (by cases wrong)⟩
  have surviving := run_surviving start run
  rw [List.nil_append] at surviving
  have slots := surviving.balanced.slots
  refine ⟨by omega, ?_⟩
  intro unsignalled unclosed
  apply running_accepting surviving.balanced
  intro ended
  rcases surviving.running ended with fired | closed
  · exact unsignalled fired
  · exact unclosed closed

structure Full (w : System) : Prop where
  phase : w.phase = .waiting
  sem : w.sem = ⟨0, false⟩

def EndsConnection : Event → Bool
  | .handshakeFails _ => true
  | .finish _ => true
  | _ => false

theorem step_full {w v : System} {event : Event} (full : Full w)
    (stays : EndsConnection event = false) (step : Step w event v) : Full v := by
  have phase := full.phase
  have none_free : w.sem.tryAcquire = .error .noPermits := by
    rw [full.sem]
    rfl
  cases step with
  | incoming idle => cases phase.symm.trans idle
  | endpointClosed idle => cases phase.symm.trans idle
  | acquire waits free => cases none_free.symm.trans free
  | closed waits shut => cases none_free.symm.trans shut
  | signal => exact ⟨phase, full.sem⟩
  | shutdown idle => cases phase.symm.trans idle
  | handshake => exact ⟨phase, full.sem⟩
  | handshakeFails => cases stays
  | request => exact ⟨phase, full.sem⟩
  | answer => exact ⟨phase, full.sem⟩
  | requestFails => exact ⟨phase, full.sem⟩
  | finish => cases stays

/-- A loop that waits for a permit does not look at the signal: a server that is full, with one
    more connection accepted, goes on serving until one of its connections ends, however long ago
    it was told to stop. -/
theorem full_server_deaf {server : H3Server} {events later : List Event} {w v : System}
    (run : Run Step server.start events w) (waits : w.phase = .waiting)
    (full : w.connections.countP Connection.live = server.concurrencyLimit)
    (rest : Run Step w later v) (unended : ∀ event ∈ later, EndsConnection event = false) :
    v.phase = .waiting := by
  have balanced : Balanced server w := run_keeps step_balanced (start_balanced server) run
  have sem : w.sem = ⟨0, false⟩ := by
    obtain ⟨slots, unclosed⟩ := balanced
    rcases same : w.sem with ⟨permits, closed⟩
    rw [same] at slots unclosed
    have none_left : permits = 0 := by
      simp only at slots
      omega
    rw [none_left, show closed = false from unclosed]
  have start : Full w := ⟨waits, sem⟩
  clear run full balanced waits sem
  induction rest with
  | stop => exact start.phase
  | next step _ ih =>
    exact ih (fun event mem => unended event (List.mem_cons_of_mem _ mem))
      (step_full start (unended _ List.mem_cons_self) step)

section Example

def small : H3Server := ⟨1, by decide⟩

/-- A handshake fails, and the connection that waited for its permit is taken. -/
theorem failed_handshake_survived :
    ∃ w, Run Step small.start [.incoming, .incoming, .handshakeFails 0] w ∧ Accepting w := by
  have run : Run Step small.start [.incoming, .incoming, .handshakeFails 0] _ :=
    .next (.incoming rfl) (.next (.incoming rfl) (.next (.handshakeFails rfl rfl) (.stop _)))
  exact ⟨_, run, (h3_server_survives small run).2 (by decide) (by decide)⟩

/-- A second connection waits for the permit of the first. -/
def crowded : System := ⟨.waiting, ⟨0, false⟩, false, [⟨.serving, 1⟩]⟩

/-- The signal fires while a second connection waits; the first one still gets its answer. -/
theorem second_connection_deaf :
    ∃ v, Run Step small.start [.incoming, .handshake 0, .request 0, .incoming] crowded ∧
      Run Step crowded [.signal, .answer 0] v ∧ v.signalled = true ∧ v.phase = .waiting := by
  have run : Run Step small.start [.incoming, .handshake 0, .request 0, .incoming] crowded :=
    .next (.incoming rfl) (.next (.handshake rfl rfl) (.next (.request rfl rfl)
      (.next (.incoming rfl) (.stop _))))
  have rest : Run Step crowded [.signal, .answer 0] _ :=
    .next .signal (.next (.answer rfl Nat.one_pos) (.stop _))
  exact ⟨_, run, rest, rfl, full_server_deaf run rfl rfl rest (by decide)⟩

end Example

end H3AcceptLoop
