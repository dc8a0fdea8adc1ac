import PureGrpc.KeyedMultimap

/-!
The health service: the statuses that Check reads, and for each watched
service a channel that Watch streams receive from. A channel is made by the
first Watch of its service and stays for ever; its sender stores a value only
while some receiver is alive. Setting a status and opening a Watch each take
two locks one after the other, and are made of the two steps between.
-/
namespace HealthService
open KeyedMultimap

inductive ServingStatus where
  | unknown | serving | notServing | serviceUnknown
  deriving DecidableEq, Repr

def ServingStatus.asI32 : ServingStatus → Nat
  | .unknown => 0
  | .serving => 1
  | .notServing => 2
  | .serviceUnknown => 3

theorem as_i32_injective {a b : ServingStatus} (same : a.asI32 = b.asI32) : a = b := by
  cases a <;> cases b <;> first | rfl | cases same

structure HealthCheckResponse where
  status : Nat
  deriving DecidableEq, Repr

/-- A watch channel: the stored value and how many receivers are alive. -/
structure WatchSender where
  value : ServingStatus
  receivers : Nat
  deriving DecidableEq, Repr

def watchChannel (initial : ServingStatus) : WatchSender := ⟨initial, 1⟩

/-- With no receiver nothing is stored and the send fails. -/
def WatchSender.send (self : WatchSender) (value : ServingStatus) : Except Unit Unit × WatchSender :=
  if self.receivers = 0 then (.error (), self) else (.ok (), { self with value })

def WatchSender.subscribe (self : WatchSender) : WatchSender :=
  { self with receivers := self.receivers + 1 }

def WatchSender.dropReceiver (self : WatchSender) : WatchSender :=
  { self with receivers := self.receivers - 1 }

structure HealthState where
  statuses : Multimap String ServingStatus
  watchers : Multimap String WatchSender
  deriving DecidableEq, Repr

def healthService : HealthState := ⟨[("", .serving)], []⟩

/-- First step of setting a status. -/
def HealthState.insertStatus (self : HealthState) (service : String) (status : ServingStatus) :
    HealthState := { self with statuses := insertKey self.statuses service status }

/-- Second step: the result of the send is not looked at. -/
def HealthState.notifyWatchers (self : HealthState) (service : String) (status : ServingStatus) :
    HealthState :=
  match getKey self.watchers service with
  | some tx => { self with watchers := insertKey self.watchers service (tx.send status).2 }
  | none => self

def HealthState.setStatus (self : HealthState) (service : String) (status : ServingStatus) :
    HealthState := (self.insertStatus service status).notifyWatchers service status

def HealthState.statusOf (self : HealthState) (service : String) : ServingStatus :=
  match getKey self.statuses service with
  | some s => s
  | none => .serviceUnknown

def HealthState.check (self : HealthState) (service : String) : HealthCheckResponse :=
  ⟨(self.statusOf service).asI32⟩

/-- First step of a Watch. -/
def HealthState.initialStatus (self : HealthState) (service : String) : Option ServingStatus :=
  getKey self.statuses service

/-- Second step: subscribe, or make the channel. -/
def HealthState.subscribe (self : HealthState) (service : String)
    (initialStatus : Option ServingStatus) : HealthState :=
  match getKey self.watchers service with
  | some tx => { self with watchers := insertKey self.watchers service tx.subscribe }
  | none => { self with
      watchers := insertKey self.watchers service (watchChannel (initialStatus.getD .serviceUnknown)) }

def HealthState.watch (self : HealthState) (service : String) : HealthState :=
  self.subscribe service (self.initialStatus service)

def HealthState.dropWatch (self : HealthState) (service : String) : HealthState :=
  match getKey self.watchers service with
  | some tx => { self with watchers := insertKey self.watchers service tx.dropReceiver }
  | none => self

/-- What an open Watch stream of a service would yield next if it yields again: the stored
    value, which is also what a new stream starts with. -/
def HealthState.watched (self : HealthState) (service : String) : Option HealthCheckResponse :=
  (getKey self.watchers service).map fun tx => ⟨tx.value.asI32⟩

variable (state : HealthState) (service other : String) (status : ServingStatus)

@[simp] theorem insert_status_watchers :
    (state.insertStatus service status).watchers = state.watchers := rfl

@[simp] theorem status_of_insert :
    (state.insertStatus service status).statusOf other =
      if service = other then status else state.statusOf other := by
  simp only [HealthState.statusOf, HealthState.insertStatus, get_insert]
  by_cases same : service = other
  · simp [same]
  · simp [same]

theorem initial_status_of :
    (state.initialStatus service).getD .serviceUnknown = state.statusOf service := by
  unfold HealthState.initialStatus HealthState.statusOf
  cases getKey state.statuses service <;> rfl

@[simp] theorem notify_status_of :
    (state.notifyWatchers service status).statusOf other = state.statusOf other := by
  unfold HealthState.notifyWatchers
  split <;> rfl

@[simp] theorem subscribe_status_of (initialStatus : Option ServingStatus) :
    (state.subscribe service initialStatus).statusOf other = state.statusOf other := by
  unfold HealthState.subscribe
  split <;> rfl

@[simp] theorem drop_watch_status_of :
    (state.dropWatch service).statusOf other = state.statusOf other := by
  unfold HealthState.dropWatch
  split <;> rfl

theorem notify_watcher :
    getKey (state.notifyWatchers service status).watchers other =
      if service = other then (getKey state.watchers other).map fun tx => (tx.send status).2
      else getKey state.watchers other := by
  have watchers : (state.notifyWatchers service status).watchers =
      (getKey state.watchers service).elim state.watchers fun tx =>
        insertKey state.watchers service (tx.send status).2 := by
    unfold HealthState.notifyWatchers
    cases getKey state.watchers service <;> rfl
  rw [watchers]
  exact get_altered state.watchers service other fun tx => (tx.send status).2

theorem subscribe_watcher (initialStatus : Option ServingStatus) :
    getKey (state.subscribe service initialStatus).watchers other =
      if service = other then some ((getKey state.watchers other).elim
        (watchChannel (initialStatus.getD .serviceUnknown)) WatchSender.subscribe)
      else getKey state.watchers other := by
  unfold HealthState.subscribe
  cases found : getKey state.watchers service with
  | some tx =>
    by_cases same : service = other
    · subst same
      simp [get_insert, found]
    · simp [get_insert, same]
  | none =>
    by_cases same : service = other
    · subst same
      simp [get_insert, found]
    · simp [get_insert, same]

theorem drop_watch_watcher :
    getKey (state.dropWatch service).watchers other =
      if service = other then (getKey state.watchers other).map WatchSender.dropReceiver
      else getKey state.watchers other := by
  have watchers : (state.dropWatch service).watchers =
      (getKey state.watchers service).elim state.watchers fun tx =>
        insertKey state.watchers service tx.dropReceiver := by
    unfold HealthState.dropWatch
    cases getKey state.watchers service <;> rfl
  rw [watchers]
  exact get_altered state.watchers service other WatchSender.dropReceiver

end HealthService
