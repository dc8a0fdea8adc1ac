import PureGrpc.TransitionRuns

/-!
A task makes items and sends them through a bounded channel to a consumer, in any
interleaving of the two. The consumer may hang up: a send then fails and the task stops, as
it does when there is nothing more to make.
-/
namespace BoundedChannels
open TransitionRuns

variable {ρ β : Type}

inductive Task (ρ β : Type) where
  | making (source : ρ)
  | sending (item : β) (source : ρ)
  | stopped

/-- Both ends of the channel, and what the consumer has got. -/
structure Pipe (ρ β : Type) where
  task : Task ρ β
  queue : List β
  connected : Bool
  shown : List β
  ended : Bool

def Pipe.start (source : ρ) : Pipe ρ β := ⟨.making source, [], true, [], false⟩

inductive Event where
  | make
  | stop
  | send
  | refuse
  | receive
  | finish
  | hangUp
  deriving DecidableEq, Repr

variable (next : ρ → Option (β × ρ)) (capacity : Nat)

/-- A send waits for room, and fails once the consumer is gone. The consumer waits for an item,
    and is told the end when the queue is empty and the task has dropped its sender. -/
inductive Step : Pipe ρ β → Event → Pipe ρ β → Prop where
  | make {w s item t} (task : w.task = .making s) (made : next s = some (item, t)) :
      Step w .make { w with task := .sending item t }
  | stop {w s} (task : w.task = .making s) (nothing : next s = none) :
      Step w .stop { w with task := .stopped }
  | send {w item t} (task : w.task = .sending item t) (up : w.connected = true)
      (room : w.queue.length < capacity) :
      Step w .send { w with task := .making t, queue := w.queue ++ [item] }
  | refuse {w item t} (task : w.task = .sending item t) (down : w.connected = false) :
      Step w .refuse { w with task := .stopped }
  | receive {w item rest} (up : w.connected = true) (front : w.queue = item :: rest) :
      Step w .receive { w with queue := rest, shown := w.shown ++ [item] }
  | finish {w} (up : w.connected = true) (task : w.task = .stopped) (empty : w.queue = [])
      (before : w.ended = false) : Step w .finish { w with ended := true }
  | hangUp {w} (up : w.connected = true) :
      Step w .hangUp { w with queue := [], connected := false }

inductive Makes : ρ → List β → Prop where
  | nothing {s} (h : next s = none) : Makes s []
  | item {s item t items} (h : next s = some (item, t)) (rest : Makes t items) :
      Makes s (item :: items)

inductive Unsent : Task ρ β → List β → Prop where
  | making {s items} (makes : Makes next s items) : Unsent (.making s) items
  | sending {s item items} (makes : Makes next s items) :
      Unsent (.sending item s) (item :: items)
  | stopped : Unsent .stopped []

/-- While the consumer is there, no item is lost, made twice or out of order. -/
structure Flow (items left : List β) (w : Pipe ρ β) : Prop where
  unsent : Unsent next w.task left
  whole : w.connected = true → w.shown ++ (w.queue ++ left) = items
  shown : w.shown <+: items
  all : w.ended = true → w.shown = items

/-- An item that is left is made, sent and received; the task stops, the consumer finishes,
    and it hangs up. -/
def work (w : Pipe ρ β) (left : List β) : Nat :=
  (match w.task with
    | .making _ => 3 * left.length + 1
    | .sending _ _ => 3 * left.length
    | .stopped => 0) + w.queue.length + w.connected.toNat + (!w.ended).toNat

variable {next capacity} {items left : List β} {w v : Pipe ρ β}

theorem start_flow {s : ρ} (makes : Makes next s items) :
    Flow next items items (Pipe.start s) :=
  ⟨.making makes, fun _ => rfl, List.nil_prefix, fun ended => nomatch ended⟩

/-- Every step keeps the account of the items and uses up work. -/
theorem step_flow {event : Event} (flow : Flow next items left w)
    (step : Step next capacity w event v) :
    ∃ less, Flow next items less v ∧ work v less < work w left := by
  obtain ⟨unsent, whole, shown, all⟩ := flow
  cases step with
  | make task made =>
    rw [task] at unsent
    cases unsent with
    | making makes =>
      cases makes with
      | nothing h => cases h.symm.trans made
      | item h rest =>
        cases h.symm.trans made
        exact ⟨_, ⟨.sending rest, whole, shown, all⟩, by simp [work, task]⟩
  | stop task nothing =>
    rw [task] at unsent
    cases unsent with
    | making makes =>
      cases makes with
      | nothing h => exact ⟨_, ⟨.stopped, whole, shown, all⟩, by simp [work, task]⟩
      | item h rest => cases h.symm.trans nothing
  | send task up room =>
    rw [task] at unsent
    cases unsent with
    | sending makes =>
      refine ⟨_, ⟨.making makes, ?_, shown, all⟩, ?_⟩
      · intro _
        rw [List.append_assoc]
        exact whole up
      · simp only [work, task, List.length_append, List.length_cons, List.length_nil]
        omega
  | refuse task down =>
    rw [task] at unsent
    cases unsent with
    | sending makes =>
      refine ⟨[], ⟨.stopped, ?_, shown, all⟩, ?_⟩
      · intro up
        cases down.symm.trans up
      · simp only [work, task, List.length_cons]
        omega
  | @receive item rest up front =>
    have account := whole up
    rw [front] at account
    have moved : (w.shown ++ [item]) ++ (rest ++ left) = items := by
      rw [List.append_assoc]
      exact account
    refine ⟨left, ⟨unsent, fun _ => moved, ⟨_, moved⟩, ?_⟩, ?_⟩
    · intro ended
      rw [← all ended] at account
      simp at account
    · simp only [work, front, List.length_cons]
      omega
  | finish up task empty before =>
    rw [task] at unsent
    cases unsent with
    | stopped =>
      refine ⟨[], ⟨task ▸ .stopped, whole, shown, ?_⟩, ?_⟩
      · intro _
        simpa [empty] using whole up
      · simp [work, before]
  | hangUp up =>
    refine ⟨left, ⟨unsent, (fun wrong => nomatch wrong), shown, all⟩, ?_⟩
    simp only [work, up, List.length_nil, Bool.toNat_true, Bool.toNat_false]
    omega

theorem run_flow {events : List Event} (flow : Flow next items left w)
    (run : Run (Step next capacity) w events v) :
    ∃ less, Flow next items less v ∧ events.length + work v less ≤ work w left := by
  induction run generalizing left with
  | stop => exact ⟨left, flow, by simp⟩
  | next step _ ih =>
    obtain ⟨less, kept, fewer⟩ := step_flow flow step
    obtain ⟨least, done, bound⟩ := ih kept
    refine ⟨least, done, ?_⟩
    rw [List.length_cons]
    omega

variable (next) in
theorem connected_moves (room : 0 < capacity) (up : w.connected = true)
    (before : w.ended = false) :
    ∃ event v, event ≠ .hangUp ∧ Step next capacity w event v ∧ v.connected = true := by
  cases queue : w.queue with
  | cons item rest => exact ⟨.receive, _, by decide, .receive up queue, up⟩
  | nil =>
    cases task : w.task with
    | making s =>
      cases made : next s with
      | some pair => exact ⟨.make, _, by decide, .make task made, up⟩
      | none => exact ⟨.stop, _, by decide, .stop task made, up⟩
    | sending item s =>
      have free : w.queue.length < capacity := by rwa [queue]
      exact ⟨.send, _, by decide, .send task up free, up⟩
    | stopped => exact ⟨.finish, _, by decide, .finish up task queue before, up⟩

theorem flow_ends (room : 0 < capacity) (flow : Flow next items left w)
    (up : w.connected = true) :
    ∃ events v, Run (Step next capacity) w events v ∧ .hangUp ∉ events ∧ v.ended = true := by
  induction h : work w left using Nat.strongRecOn generalizing w left with
  | ind n ih =>
    cases before : w.ended with
    | true => exact ⟨[], w, .stop w, List.not_mem_nil, before⟩
    | false =>
      obtain ⟨event, u, stays, step, still⟩ := connected_moves next room up before
      obtain ⟨less, kept, fewer⟩ := step_flow flow step
      obtain ⟨events, v, run, rest, ended⟩ := ih _ (h ▸ fewer) kept still rfl
      exact ⟨event :: events, v, .next step run,
        List.not_mem_cons_of_ne_of_not_mem stays.symm rest, ended⟩

variable (next capacity)

/-- In every interleaving the consumer gets these items in order, and the end after all of
    them; no run goes on for ever, and a consumer that stays can always still get to the end. -/
structure Delivers (source : ρ) (items : List β) : Prop where
  shown : ∀ events w, Run (Step next capacity) (Pipe.start source) events w → w.shown <+: items
  all : ∀ events w, Run (Step next capacity) (Pipe.start source) events w → w.ended = true →
    w.shown = items
  bounded : ∃ n, ∀ events w, Run (Step next capacity) (Pipe.start source) events w →
    events.length ≤ n
  ends : ∀ events w, Run (Step next capacity) (Pipe.start source) events w →
    w.connected = true → ∃ more v, Run (Step next capacity) w more v ∧ .hangUp ∉ more ∧
      v.ended = true

variable {next capacity} {s : ρ}

theorem makes_delivers (room : 0 < capacity) (makes : Makes next s items) :
    Delivers next capacity s items := by
  have flows : ∀ events w, Run (Step next capacity) (Pipe.start s) events w →
      ∃ left, Flow next items left w ∧ events.length + work w left ≤ work (Pipe.start s) items :=
    fun _ _ run => run_flow (start_flow makes) run
  refine ⟨?_, ?_, ⟨work (Pipe.start s) items, ?_⟩, ?_⟩
  · intro events w run
    obtain ⟨left, flow, _⟩ := flows events w run
    exact flow.shown
  · intro events w run ended
    obtain ⟨left, flow, _⟩ := flows events w run
    exact flow.all ended
  · intro events w run
    obtain ⟨left, _, bound⟩ := flows events w run
    exact Nat.le_of_add_right_le bound
  · intro events w run up
    obtain ⟨left, flow, _⟩ := flows events w run
    exact flow_ends room flow up

theorem delivers_unique {others : List β} (one : Delivers next capacity s items)
    (other : Delivers next capacity s others) : items = others := by
  obtain ⟨events, w, run, _, ended⟩ := one.ends [] _ (.stop _) rfl
  exact (one.all events w run ended).symm.trans (other.all events w run ended)

end BoundedChannels
