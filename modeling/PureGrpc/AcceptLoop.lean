import PureGrpc.TransitionRuns

/-!
The server's accept loop and the connection tasks it spawns. The loop selects between the
listener and the shutdown signal; an accepted connection waits for a permit, and its task
holds the permit to its end. The tasks are detached, so the loop and they take their steps
in any order.
-/
namespace AcceptLoop
open TransitionRuns

structure Server where
  tcpNodelay : Bool
  concurrencyLimit : Nat
  tls : Bool
  limited : 0 < concurrencyLimit

def defaultConcurrencyLimit : Nat := 1024

def Server.builder : Server := ⟨true, defaultConcurrencyLimit, false, by decide⟩

inductive TryAcquireError where
  | closed
  | noPermits
  deriving DecidableEq, Repr

structure Semaphore where
  permits : Nat
  closed : Bool
  deriving DecidableEq, Repr

def Semaphore.tryAcquire (sem : Semaphore) : Except TryAcquireError Semaphore :=
  if sem.closed then .error .closed
  else if sem.permits = 0 then .error .noPermits
  else .ok { sem with permits := sem.permits - 1 }

/-- A request the service works on, and whether it was accepted before the signal. -/
structure Request where
  early : Bool
  deriving DecidableEq, Repr

inductive Task where
  | handshaking
  | serving (requests : List Request)
  deriving DecidableEq, Repr

def Task.requests : Task → List Request
  | .handshaking => []
  | .serving requests => requests

section Loop

variable {ε : Type}

/-- Where the loop stands: at its select, at the permit for an accepted connection, or at
the result it has returned. -/
inductive Phase (ε : Type) where
  | selecting
  | waiting
  | returned (result : Except ε Unit)

structure System (ε : Type) where
  phase : Phase ε
  sem : Semaphore
  tasks : List Task
  signalled : Bool

def Server.start (server : Server) : System ε :=
  ⟨.selecting, ⟨server.concurrencyLimit, false⟩, [], false⟩

def System.returns (w : System ε) (result : Except ε Unit) : System ε :=
  { w with phase := .returned result }

def System.spawn (w : System ε) (server : Server) (sem : Semaphore) : System ε :=
  { w with
    phase := .selecting
    sem := sem
    tasks := w.tasks ++ [if server.tls then .handshaking else .serving []] }

def System.takeSlot (w : System ε) (server : Server) : System ε :=
  match w.sem.tryAcquire with
  | .ok sem => w.spawn server sem
  | .error _ => { w with phase := .waiting }

/-- The two errors the loop passes on before it asks for a permit: accept's own, and that of
set_nodelay where the server sets it. -/
def Server.accepted (server : Server) (result : Except ε (Except ε Unit)) : Except ε Unit := do
  let nodelay ← result
  if server.tcpNodelay then nodelay

def System.onAccept (w : System ε) (server : Server) (result : Except ε (Except ε Unit)) :
    System ε :=
  match server.accepted result with
  | .ok () => w.takeSlot server
  | .error e => w.returns (.error e)

def System.setTask (w : System ε) (i : Nat) (task : Task) : System ε :=
  { w with tasks := w.tasks.set i task }

def System.dropTask (w : System ε) (i : Nat) : System ε :=
  { w with tasks := w.tasks.eraseIdx i, sem := { w.sem with permits := w.sem.permits + 1 } }

/-- What the listener, the semaphore, the signal and the tasks answer. An accepted socket
comes with the answer set_nodelay has for it. -/
inductive Event (ε : Type) where
  | accept (result : Except ε (Except ε Unit))
  | acquire
  | closed
  | signal
  | shutdown
  | handshake (i : Nat)
  | handshakeFails (i : Nat)
  | start (i : Nat)
  | complete (i : Nat) (request : Request)
  | finish (i : Nat)

inductive Step (server : Server) : System ε → Event ε → System ε → Prop where
  | accept {w} (idle : w.phase = .selecting) (result) :
      Step server w (.accept result) (w.onAccept server result)
  | acquire {w sem} (waits : w.phase = .waiting) (free : w.sem.tryAcquire = .ok sem) :
      Step server w .acquire (w.spawn server sem)
  | closed {w} (waits : w.phase = .waiting) (shut : w.sem.tryAcquire = .error .closed) :
      Step server w .closed (w.returns (.ok ()))
  | signal {w} : Step server w .signal { w with signalled := true }
  | shutdown {w} (idle : w.phase = .selecting) (fired : w.signalled = true) :
      Step server w .shutdown (w.returns (.ok ()))
  | handshake {w i} (here : w.tasks[i]? = some .handshaking) :
      Step server w (.handshake i) (w.setTask i (.serving []))
  | handshakeFails {w i} (here : w.tasks[i]? = some .handshaking) :
      Step server w (.handshakeFails i) (w.dropTask i)
  | start {w i requests} (here : w.tasks[i]? = some (.serving requests)) :
      Step server w (.start i) (w.setTask i (.serving (⟨!w.signalled⟩ :: requests)))
  | complete {w i requests request} (here : w.tasks[i]? = some (.serving requests))
      (works : request ∈ requests) :
      Step server w (.complete i request) (w.setTask i (.serving (requests.erase request)))
  | finish {w i requests} (here : w.tasks[i]? = some (.serving requests)) :
      Step server w (.finish i) (w.dropTask i)

/-- Every permit is free or with a task, and nobody closes the semaphore. -/
structure Balanced (server : Server) (w : System ε) : Prop where
  slots : w.sem.permits + w.tasks.length = server.concurrencyLimit
  unclosed : w.sem.closed = false

theorem start_balanced (server : Server) : Balanced server (server.start : System ε) := ⟨rfl, rfl⟩

theorem try_acquire_ok {sem left : Semaphore} (free : sem.tryAcquire = .ok left) :
    sem.permits = left.permits + 1 ∧ left.closed = sem.closed := by
  unfold Semaphore.tryAcquire at free
  split at free
  · cases free
  · split at free
    · cases free
    · cases free
      exact ⟨by simp only; omega, rfl⟩

theorem try_acquire_closed {sem : Semaphore} (shut : sem.tryAcquire = .error .closed) :
    sem.closed = true := by
  unfold Semaphore.tryAcquire at shut
  split at shut
  · assumption
  · split at shut <;> cases shut

theorem spawn_balanced {server : Server} {w : System ε} {sem : Semaphore}
    (balanced : Balanced server w) (free : w.sem.tryAcquire = .ok sem) :
    Balanced server (w.spawn server sem) := by
  obtain ⟨count, same⟩ := try_acquire_ok free
  constructor
  · have slots := balanced.slots
    simp only [System.spawn, List.length_append, List.length_singleton]
    omega
  · exact same.trans balanced.unclosed

theorem on_accept_cases (server : Server) (w : System ε) (result : Except ε (Except ε Unit)) :
    (∃ sem, server.accepted result = .ok () ∧ w.sem.tryAcquire = .ok sem ∧
        w.onAccept server result = w.spawn server sem) ∨
      (server.accepted result = .ok () ∧ w.onAccept server result = { w with phase := .waiting }) ∨
      ∃ e, server.accepted result = .error e ∧ w.onAccept server result = w.returns (.error e) := by
  unfold System.onAccept
  cases server.accepted result with
  | error e => exact .inr (.inr ⟨e, rfl, rfl⟩)
  | ok =>
    unfold System.takeSlot
    cases w.sem.tryAcquire with
    | ok sem => exact .inl ⟨sem, rfl, rfl, rfl⟩
    | error => exact .inr (.inl ⟨rfl, rfl⟩)

theorem on_accept_balanced {server : Server} {w : System ε} (balanced : Balanced server w)
    (result : Except ε (Except ε Unit)) : Balanced server (w.onAccept server result) := by
  obtain ⟨sem, _, free, spawned⟩ | ⟨_, waits⟩ | ⟨e, _, ended⟩ := on_accept_cases server w result
  · rw [spawned]
    exact spawn_balanced balanced free
  · rw [waits]
    exact ⟨balanced.slots, balanced.unclosed⟩
  · rw [ended]
    exact ⟨balanced.slots, balanced.unclosed⟩

theorem set_task_balanced {server : Server} {w : System ε} (balanced : Balanced server w)
    (i : Nat) (task : Task) : Balanced server (w.setTask i task) :=
  ⟨by simp only [System.setTask, List.length_set, balanced.slots], balanced.unclosed⟩

theorem drop_task_balanced {server : Server} {w : System ε} {i : Nat} {task : Task}
    (balanced : Balanced server w) (here : w.tasks[i]? = some task) :
    Balanced server (w.dropTask i) := by
  constructor
  · obtain ⟨within, _⟩ := List.getElem?_eq_some_iff.mp here
    have slots := balanced.slots
    simp only [System.dropTask, List.length_eraseIdx, if_pos within]
    omega
  · exact balanced.unclosed

theorem step_balanced {server : Server} (w : System ε) (event : Event ε) (v : System ε)
    (balanced : Balanced server w) (step : Step server w event v) : Balanced server v := by
  cases step with
  | accept _ result => exact on_accept_balanced balanced result
  | acquire _ free => exact spawn_balanced balanced free
  | closed => exact ⟨balanced.slots, balanced.unclosed⟩
  | signal => exact ⟨balanced.slots, balanced.unclosed⟩
  | shutdown => exact ⟨balanced.slots, balanced.unclosed⟩
  | handshake => exact set_task_balanced balanced _ _
  | handshakeFails here => exact drop_task_balanced balanced here
  | start => exact set_task_balanced balanced _ _
  | complete => exact set_task_balanced balanced _ _
  | finish here => exact drop_task_balanced balanced here

theorem closed_never {server : Server} {w v : System ε} (balanced : Balanced server w) :
    ¬ Step server w .closed v := by
  intro step
  cases step with
  | closed _ shut => cases (try_acquire_closed shut).symm.trans balanced.unclosed

end Loop

end AcceptLoop
