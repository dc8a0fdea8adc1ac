import PureGrpc.AcceptLoop

/-!
Shutdown with requests in flight. The signal only ends the accept loop: nobody tells the
tasks of it and nobody waits for them, so serving returns while their requests are still
being worked on.
-/
namespace GracefulShutdown
open TransitionRuns AcceptLoop

variable {ε : Type}

def Drained (tasks : List Task) : Prop :=
  ∀ task ∈ tasks, ∀ request ∈ task.requests, request.early = false

def Graceful (w : System ε) : Prop := w.phase = .returned (.ok ()) → Drained w.tasks

/-- The loop takes its shutdown branch after the earlier requests are done. -/
def Quiet (w : System ε) : Event ε → Prop
  | .shutdown => Drained w.tasks
  | _ => True

theorem drained_set {tasks : List Task} {i : Nat} {task : Task} (drained : Drained tasks)
    (late : ∀ request ∈ task.requests, request.early = false) : Drained (tasks.set i task) := by
  intro other mem
  rcases List.mem_or_eq_of_mem_set mem with before | rfl
  · exact drained other before
  · exact late

theorem drained_erase {tasks : List Task} (i : Nat) (drained : Drained tasks) :
    Drained (tasks.eraseIdx i) :=
  fun task mem => drained task (List.mem_of_mem_eraseIdx mem)

theorem drained_requests {tasks : List Task} {i : Nat} {requests : List Request}
    (drained : Drained tasks) (here : tasks[i]? = some (.serving requests)) :
    ∀ request ∈ requests, request.early = false :=
  drained (.serving requests) (List.mem_of_getElem? here)

structure Settled (server : Server) (w : System ε) : Prop where
  balanced : Balanced server w
  drained : w.phase = .returned (.ok ()) → w.signalled = true ∧ Drained w.tasks

theorem start_settled (server : Server) : Settled server (server.start : System ε) :=
  ⟨start_balanced server, fun ended => nomatch ended⟩

theorem on_accept_unsettled (server : Server) (w : System ε) (result : Except ε (Except ε Unit)) :
    (w.onAccept server result).phase ≠ .returned (.ok ()) := by
  obtain ⟨sem, _, _, spawned⟩ | ⟨_, waits⟩ | ⟨e, _, failed⟩ := on_accept_cases server w result
  · rw [spawned]
    exact fun ended => nomatch ended
  · rw [waits]
    exact fun ended => nomatch ended
  · rw [failed]
    exact fun ended => nomatch ended

theorem step_settled {server : Server} (w : System ε) (event : Event ε) (v : System ε)
    (settled : Settled server w) (quiet : Quiet w event) (step : Step server w event v) :
    Settled server v := by
  refine ⟨step_balanced w event v settled.balanced step, ?_⟩
  cases step with
  | accept _ result => exact fun ended => absurd ended (on_accept_unsettled server w result)
  | acquire => exact fun ended => nomatch ended
  | closed waits shut => exact absurd (.closed waits shut) (closed_never settled.balanced)
  | signal => exact fun ended => ⟨rfl, (settled.drained ended).2⟩
  | shutdown _ fired => exact fun _ => ⟨fired, quiet⟩
  | handshake =>
    intro ended
    obtain ⟨fired, drained⟩ := settled.drained ended
    exact ⟨fired, drained_set drained (fun _ mem => nomatch mem)⟩
  | handshakeFails =>
    intro ended
    obtain ⟨fired, drained⟩ := settled.drained ended
    exact ⟨fired, drained_erase _ drained⟩
  | start here =>
    intro ended
    obtain ⟨fired, drained⟩ := settled.drained ended
    refine ⟨fired, drained_set drained ?_⟩
    intro request mem
    rcases List.mem_cons.mp mem with rfl | before
    · simp only [fired, Bool.not_true]
    · exact drained_requests drained here request before
  | complete here =>
    intro ended
    obtain ⟨fired, drained⟩ := settled.drained ended
    refine ⟨fired, drained_set drained ?_⟩
    exact fun request mem => drained_requests drained here request (List.mem_of_mem_erase mem)
  | finish =>
    intro ended
    obtain ⟨fired, drained⟩ := settled.drained ended
    exact ⟨fired, drained_erase _ drained⟩

theorem shutdown_needs {server : Server} {w : System ε} {event : Event ε} {v : System ε}
    (step : Step server w event v) (graceful : Graceful v) : Quiet w event := by
  cases step with
  | shutdown => exact graceful rfl
  | accept => trivial
  | acquire => trivial
  | closed => trivial
  | signal => trivial
  | handshake => trivial
  | handshakeFails => trivial
  | start => trivial
  | complete => trivial
  | finish => trivial

/-- The runs that take the shutdown branch only after the requests accepted before the signal
are those in which, in every state reached, no such request is in flight once serving has
returned Ok. -/
theorem quiet_iff_graceful (server : Server) (events : List (Event ε)) (w : System ε) :
    Run (Guarded (Step server) Quiet) server.start events w ↔
      Run (Reaching (Step server) Graceful) server.start events w := by
  apply guarded_iff_reaching step_settled _ _ (start_settled server)
  · exact fun _ settled ended => (settled.drained ended).2
  · exact fun _ _ _ _ step graceful => shutdown_needs step graceful

/-- A request is accepted, the signal fires, and serving returns Ok with it in flight. -/
theorem shutdown_leaves_request :
    ∃ w : System String, Run (Step .builder) (Server.start .builder)
        [.accept (.ok (.ok ())), .start 0, .signal, .shutdown] w ∧
      w.phase = .returned (.ok ()) ∧ w.tasks = [.serving [⟨true⟩]] ∧ ¬ Graceful w := by
  have run : Run (Step .builder) (Server.start .builder : System String)
      [.accept (.ok (.ok ())), .start 0, .signal, .shutdown] _ :=
    .next (.accept rfl _) (.next (.start rfl) (.next .signal (.next (.shutdown rfl rfl) (.stop _))))
  refine ⟨_, run, rfl, rfl, ?_⟩
  intro graceful
  exact absurd (graceful rfl _ (List.mem_singleton_self _) _ (List.mem_singleton_self _)) (by decide)

end GracefulShutdown
