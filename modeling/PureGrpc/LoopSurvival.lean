import PureGrpc.AcceptLoop

/-!
What keeps the accept loop going. A failed handshake ends its own task and a full server
waits for a permit, but an error of accept or of set_nodelay is returned from the loop.
-/
namespace LoopSurvival
open TransitionRuns AcceptLoop

variable {ε : Type}

def Frees : Event ε → Bool
  | .acquire | .handshakeFails _ | .finish _ => true
  | _ => false

/-- The loop accepts its next connection, at the latest after connections have ended. -/
def Accepting (server : Server) (w : System ε) : Prop :=
  ∃ events v, Run (Step server) w events v ∧ (∀ event ∈ events, Frees event) ∧
    v.phase = .selecting

/-- No error of the listener or of an accepted socket is returned before the signal. -/
def Contained (server : Server) (w : System ε) : Event ε → Prop
  | .accept (.error _) => w.signalled = true
  | .accept (.ok (.error _)) => w.signalled = true ∨ server.tcpNodelay = false
  | _ => True

def StillAccepting (server : Server) (w : System ε) : Prop :=
  w.signalled = true ∨ Accepting server w

theorem accepted_open (server : Server) (nodelay : Except ε Unit) :
    server.accepted (.ok nodelay) = if server.tcpNodelay then nodelay else .ok () := rfl

theorem contained_accept_iff (server : Server) (w : System ε) (result : Except ε (Except ε Unit)) :
    Contained server w (.accept result) ↔
      w.signalled = true ∨ server.accepted result = .ok () := by
  cases result with
  | error e =>
    constructor
    · exact .inl
    · intro either
      exact either.resolve_right fun wrong => nomatch wrong
  | ok nodelay =>
    rw [accepted_open]
    cases nodelay with
    | ok => exact iff_of_true trivial (.inr (ite_self _))
    | error e => simp [Contained]

theorem step_returned {server : Server} {r : Except ε Unit} (w : System ε) (event : Event ε)
    (v : System ε) (ended : w.phase = .returned r) (step : Step server w event v) :
    v.phase = .returned r := by
  cases step with
  | accept idle => cases ended.symm.trans idle
  | acquire waits => cases ended.symm.trans waits
  | closed waits => cases ended.symm.trans waits
  | shutdown idle => cases ended.symm.trans idle
  | signal => exact ended
  | handshake => exact ended
  | handshakeFails => exact ended
  | start => exact ended
  | complete => exact ended
  | finish => exact ended

theorem returned_stops {server : Server} {w : System ε} {r : Except ε Unit}
    (ended : w.phase = .returned r) : ¬ Accepting server w := by
  intro ⟨events, v, run, _, idle⟩
  cases (run_keeps step_returned ended run).symm.trans idle

theorem free_accepting {server : Server} {w : System ε} (waits : w.phase = .waiting)
    (unclosed : w.sem.closed = false) (free : 0 < w.sem.permits) :
    ∃ v, Run (Step server) w [.acquire] v ∧ v.phase = .selecting := by
  have acquired : w.sem.tryAcquire = .ok { w.sem with permits := w.sem.permits - 1 } := by
    simp only [Semaphore.tryAcquire, unclosed, Nat.ne_of_gt free]
    rfl
  exact ⟨_, .next (.acquire waits acquired) (.stop _), rfl⟩

/-- A full server gets a permit when a connection ends, and it has one to end. -/
theorem full_accepting {server : Server} {w : System ε} (balanced : Balanced server w)
    (waits : w.phase = .waiting) (full : w.sem.permits = 0) : Accepting server w := by
  have slots := balanced.slots
  have limited := server.limited
  obtain ⟨task, rest, tasks⟩ := List.exists_cons_of_length_pos (l := w.tasks) (by omega)
  have here : w.tasks[0]? = some task := by rw [tasks]; rfl
  have dropped : Balanced server (w.dropTask 0) := drop_task_balanced balanced here
  obtain ⟨v, run, idle⟩ : ∃ v, Run (Step server) (w.dropTask 0) [.acquire] v ∧
      v.phase = .selecting := free_accepting waits dropped.unclosed (Nat.succ_pos _)
  cases task with
  | handshaking =>
    exact ⟨[.handshakeFails 0, .acquire], v, .next (.handshakeFails here) run, by simp [Frees], idle⟩
  | serving => exact ⟨[.finish 0, .acquire], v, .next (.finish here) run, by simp [Frees], idle⟩

theorem accepting_iff {server : Server} {w : System ε} (balanced : Balanced server w) :
    Accepting server w ↔ ∀ r, w.phase ≠ .returned r := by
  constructor
  · intro accepting r ended
    exact returned_stops ended accepting
  · intro running
    cases phase : w.phase with
    | selecting => exact ⟨[], w, .stop w, by simp, phase⟩
    | waiting =>
      rcases Nat.eq_zero_or_pos w.sem.permits with full | free
      · exact full_accepting balanced phase full
      · obtain ⟨v, run, idle⟩ := free_accepting phase balanced.unclosed free
        exact ⟨[.acquire], v, run, by simp [Frees], idle⟩
    | returned r => exact absurd phase (running r)

theorem accepted_running {server : Server} {w : System ε} {result : Except ε (Except ε Unit)}
    (accepted : server.accepted result = .ok ()) (r : Except ε Unit) :
    (w.onAccept server result).phase ≠ .returned r := by
  obtain ⟨sem, _, _, spawned⟩ | ⟨_, waits⟩ | ⟨e, failed, _⟩ := on_accept_cases server w result
  · rw [spawned]
    exact fun ended => nomatch ended
  · rw [waits]
    exact fun ended => nomatch ended
  · cases accepted.symm.trans failed

theorem on_accept_signalled (server : Server) (w : System ε)
    (result : Except ε (Except ε Unit)) :
    (w.onAccept server result).signalled = w.signalled := by
  obtain ⟨sem, _, _, spawned⟩ | ⟨_, waits⟩ | ⟨e, _, ended⟩ := on_accept_cases server w result
  · rw [spawned]
    rfl
  · rw [waits]
  · rw [ended]
    rfl

theorem step_signalled {server : Server} {w : System ε} {event : Event ε} {v : System ε}
    (fired : w.signalled = true) (step : Step server w event v) : v.signalled = true := by
  cases step with
  | accept _ result => exact (on_accept_signalled server w result).trans fired
  | signal => rfl
  | acquire => exact fired
  | closed => exact fired
  | shutdown => exact fired
  | handshake => exact fired
  | handshakeFails => exact fired
  | start => exact fired
  | complete => exact fired
  | finish => exact fired

theorem step_running {server : Server} {w : System ε} {event : Event ε} {v : System ε}
    (balanced : Balanced server w) (running : ∀ r, w.phase ≠ .returned r)
    (contained : Contained server w event) (step : Step server w event v) :
    v.signalled = true ∨ ∀ r, v.phase ≠ .returned r := by
  cases step with
  | accept _ result =>
    rcases (contained_accept_iff server w result).mp contained with fired | accepted
    · exact .inl ((on_accept_signalled server w result).trans fired)
    · exact .inr (accepted_running accepted)
  | acquire => exact .inr fun r ended => nomatch ended
  | closed waits shut => exact absurd (.closed waits shut) (closed_never balanced)
  | signal => exact .inl rfl
  | shutdown _ fired => exact .inl fired
  | handshake => exact .inr running
  | handshakeFails => exact .inr running
  | start => exact .inr running
  | complete => exact .inr running
  | finish => exact .inr running

structure Surviving (server : Server) (w : System ε) : Prop where
  balanced : Balanced server w
  running : w.signalled = true ∨ ∀ r, w.phase ≠ .returned r

theorem start_surviving (server : Server) : Surviving server (server.start : System ε) :=
  ⟨start_balanced server, .inr fun _ ended => nomatch ended⟩

theorem step_surviving {server : Server} (w : System ε) (event : Event ε) (v : System ε)
    (surviving : Surviving server w) (contained : Contained server w event)
    (step : Step server w event v) : Surviving server v := by
  refine ⟨step_balanced w event v surviving.balanced step, ?_⟩
  rcases surviving.running with fired | running
  · exact .inl (step_signalled fired step)
  · exact step_running surviving.balanced running contained step

theorem surviving_accepting {server : Server} {w : System ε} (surviving : Surviving server w) :
    StillAccepting server w :=
  surviving.running.imp_right (accepting_iff surviving.balanced).mpr

/-- A step that is not contained takes the server down for good, whatever its connections. -/
theorem uncontained_stops {server : Server} {w : System ε} {event : Event ε} {v : System ε}
    (escapes : ¬ Contained server w event) (step : Step server w event v) :
    ¬ StillAccepting server v ∧ ∃ e, v.phase = .returned (.error e) := by
  cases step with
  | accept _ result =>
    rw [contained_accept_iff, not_or] at escapes
    obtain ⟨unfired, refused⟩ := escapes
    obtain ⟨_, accepted, _⟩ | ⟨accepted, _⟩ | ⟨e, _, ended⟩ := on_accept_cases server w result
    · exact absurd accepted refused
    · exact absurd accepted refused
    · rw [ended]
      exact ⟨not_or.mpr ⟨unfired, returned_stops rfl⟩, e, rfl⟩
  | acquire => exact absurd trivial escapes
  | closed => exact absurd trivial escapes
  | signal => exact absurd trivial escapes
  | shutdown => exact absurd trivial escapes
  | handshake => exact absurd trivial escapes
  | handshakeFails => exact absurd trivial escapes
  | start => exact absurd trivial escapes
  | complete => exact absurd trivial escapes
  | finish => exact absurd trivial escapes

/-- The runs in which no error of accept or set_nodelay comes before the signal are those in
which, in every state reached, the server is still accepting or the signal has fired. -/
theorem contained_iff_accepting (server : Server) (events : List (Event ε)) (w : System ε) :
    Run (Guarded (Step server) (Contained server)) server.start events w ↔
      Run (Reaching (Step server) (StillAccepting server)) server.start events w := by
  apply guarded_iff_reaching step_surviving _ _ (start_surviving server)
  · exact fun _ => surviving_accepting
  · intro s event t _ step accepting
    by_contra escapes
    exact (uncontained_stops escapes step).1 accepting

/-- One aborted connection, or one reset socket, stops a server that serves nothing else. -/
theorem one_failure_stops :
    (∃ w, Run (Step .builder) (Server.start .builder)
        [.accept (.error "connection aborted")] w ∧ ¬ StillAccepting .builder w) ∧
      ∃ w, Run (Step .builder) (Server.start .builder)
        [.accept (.ok (.error "connection reset"))] w ∧ ¬ StillAccepting .builder w := by
  constructor
  · have aborted : Step .builder (Server.start .builder) (.accept (.error "connection aborted")) _ :=
      .accept rfl _
    have escapes : ¬ Contained .builder (Server.start .builder)
        (.accept (.error "connection aborted")) := Bool.false_ne_true
    exact ⟨_, .next aborted (.stop _), (uncontained_stops escapes aborted).1⟩
  · have reset : Step .builder (Server.start .builder) (.accept (.ok (.error "connection reset"))) _ :=
      .accept rfl _
    have escapes : ¬ Contained .builder (Server.start .builder)
        (.accept (.ok (.error "connection reset"))) :=
      not_or.mpr ⟨Bool.false_ne_true, Bool.true_eq_false.mp⟩
    exact ⟨_, .next reset (.stop _), (uncontained_stops escapes reset).1⟩

end LoopSurvival
