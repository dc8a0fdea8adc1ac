import PureGrpc.GrpcStatus

/-!
Statuses out of boxed errors. A status that is the error itself is handed over; one
further down the chain of sources is built anew from its code and message.
-/
namespace ErrorChains
open GrpcMetadata GrpcStatus

inductive ErrorKind where
  | brokenPipe | wouldBlock | writeZero | interrupted | connectionRefused | connectionReset
  | notConnected | addrInUse | addrNotAvailable | alreadyExists | connectionAborted | invalidData
  | invalidInput | notFound | permissionDenied | timedOut | unexpectedEof | other
  deriving DecidableEq, Repr

/-- What a downcast finds an error to be. -/
inductive Recognized where
  | status (status : Status)
  | io (kind : ErrorKind)
  | other
  deriving DecidableEq, Repr

structure Link where
  type : Recognized
  text : String
  deriving DecidableEq, Repr

/-- An error with its chain of sources. -/
inductive DynError where
  | last (link : Link)
  | caused (link : Link) (source : DynError)

def DynError.link : DynError → Link
  | .last link => link
  | .caused link _ => link

def codeOfKind : ErrorKind → Code
  | .brokenPipe | .wouldBlock | .writeZero | .interrupted => .internal
  | .connectionRefused | .connectionReset | .notConnected | .addrInUse | .addrNotAvailable =>
    .unavailable
  | .alreadyExists => .alreadyExists
  | .connectionAborted => .aborted
  | .invalidData => .dataLoss
  | .invalidInput => .invalidArgument
  | .notFound => .notFound
  | .permissionDenied => .permissionDenied
  | .timedOut => .deadlineExceeded
  | .unexpectedEof => .outOfRange
  | .other => .unknown

def fromIo (kind : ErrorKind) (text : String) : Status := .new (codeOfKind kind) text

def Link.status? (link : Link) : Option Status :=
  match link.type with
  | .status status => some (.new status.code status.message)
  | .io kind => some (fromIo kind link.text)
  | .other => none

def findStatusInSourceChain : DynError → Option Status
  | .last link => link.status?
  | .caused link source =>
    match link.status? with
    | some status => some status
    | none => findStatusInSourceChain source

def fromError (err : DynError) : Status :=
  match err.link.type with
  | .status status => status
  | _ => (findStatusInSourceChain err).getD (.new .unknown err.link.text)

def mapError (err : DynError) : Status := fromError err

section Walking

def DynError.links : DynError → List Link
  | .last link => [link]
  | .caused link source => link :: source.links

/-- The link at a depth is the first one that is no other error. -/
structure First (err : DynError) (depth : Nat) (link : Link) : Prop where
  found : err.links[depth]? = some link
  known : link.type ≠ .other
  earlier : ∀ e < depth, ∃ before, err.links[e]? = some before ∧ before.type = .other

def FirstStatus (err : DynError) (depth : Nat) (status : Status) : Prop :=
  ∃ text, First err depth ⟨.status status, text⟩

end Walking

variable {err source : DynError} {link : Link} {depth : Nat} {status : Status}

theorem status_none : link.status? = none ↔ link.type = .other := by
  unfold Link.status?
  split <;> simp_all

theorem link_head (err : DynError) : err.links[0]? = some err.link := by
  cases err <;> rfl

theorem first_head (first : First err 0 link) : err.link = link :=
  Option.some.inj ((link_head err).symm.trans first.found)

theorem first_deeper (first : First err (depth + 1) link) :
    ∃ top source, err = .caused top source ∧ top.type = .other ∧ First source depth link := by
  obtain ⟨found, known, earlier⟩ := first
  cases err with
  | last only => cases found
  | caused top source =>
    obtain ⟨before, head, other⟩ := earlier 0 (Nat.succ_pos depth)
    cases head
    refine ⟨top, source, rfl, other, found, known, ?_⟩
    intro e less
    exact earlier (e + 1) (Nat.succ_lt_succ less)

theorem walk_first (first : First err depth link) :
    findStatusInSourceChain err = link.status? := by
  induction depth generalizing err with
  | zero =>
    have head := first_head first
    have some : link.status?.isSome := by
      rw [Option.isSome_iff_ne_none]
      exact fun none => first.known (status_none.mp none)
    obtain ⟨status, known⟩ := Option.isSome_iff_exists.mp some
    cases err with
    | last only =>
      cases head
      rfl
    | caused top source =>
      cases head
      rw [findStatusInSourceChain, DynError.link] at *
      rw [known]
  | succ depth ih =>
    obtain ⟨top, source, rfl, other, rest⟩ := first_deeper first
    rw [findStatusInSourceChain, status_none.mpr other]
    exact ih rest

theorem walk_nothing (none : ∀ link ∈ err.links, link.type = .other) :
    findStatusInSourceChain err = Option.none := by
  induction err with
  | last only => exact status_none.mpr (none only List.mem_cons_self)
  | caused top source ih =>
    rw [findStatusInSourceChain, status_none.mpr (none top List.mem_cons_self)]
    exact ih fun link mem => none link (List.mem_cons_of_mem top mem)

theorem from_error_direct (first : FirstStatus err 0 status) : fromError err = status := by
  obtain ⟨text, first⟩ := first
  rw [fromError, first_head first]

/-- Further down: the code and the message are kept, the details and the metadata are not. -/
theorem from_error_deeper (first : FirstStatus err (depth + 1) status) :
    fromError err = .new status.code status.message := by
  obtain ⟨text, first⟩ := first
  obtain ⟨top, source, rfl, other, _⟩ := first_deeper first
  rw [fromError, DynError.link, other, walk_first first]
  rfl

theorem from_error_io {kind : ErrorKind} {text : String}
    (first : First err depth ⟨.io kind, text⟩) : fromError err = fromIo kind text := by
  have walked := walk_first first
  cases depth with
  | zero =>
    rw [fromError, first_head first, walked]
    rfl
  | succ depth =>
    obtain ⟨top, source, rfl, other, _⟩ := first_deeper first
    rw [fromError, DynError.link, other, walked]
    rfl

theorem from_error_unknown (none : ∀ link ∈ err.links, link.type = .other) :
    fromError err = .new .unknown err.link.text := by
  have head : err.link ∈ err.links := List.mem_of_getElem? (link_head err)
  rw [fromError, none err.link head, walk_nothing none]
  rfl

theorem map_error_again (err : DynError) (text : String) :
    mapError (.last ⟨.status (mapError err), text⟩) = mapError err := rfl

theorem from_error_text (first : FirstStatus err depth status) :
    (fromError err).code = status.code ∧ (fromError err).message = status.message := by
  cases depth with
  | zero =>
    rw [from_error_direct first]
    exact ⟨rfl, rfl⟩
  | succ depth =>
    rw [from_error_deeper first]
    exact ⟨rfl, rfl⟩

/-- The status found is kept exactly where it is the error itself or carries no more
than its code and message. -/
theorem from_error_keeps (first : FirstStatus err depth status) :
    fromError err = status ↔
      depth = 0 ∨ status.details = [] ∧ status.metadata = MetadataMap.new := by
  cases depth with
  | zero => simp only [from_error_direct first, true_or]
  | succ depth =>
    rw [from_error_deeper first]
    constructor
    · intro same
      exact .inr ⟨(congrArg Status.details same).symm, (congrArg Status.metadata same).symm⟩
    · rintro (zero | ⟨details, metadata⟩)
      · cases zero
      · cases status
        simp_all [Status.new]

section Wrapped

def detailed : Status := { Status.new .resourceExhausted "slow down" with details := [10, 1] }

def transportError (status : Status) : DynError :=
  .caused ⟨.other, "error reading a body"⟩ (.last ⟨.status status, status.message⟩)

theorem transport_first (status : Status) : FirstStatus (transportError status) 1 status := by
  refine ⟨status.message, rfl, (fun same => nomatch same), ?_⟩
  intro e less
  obtain rfl : e = 0 := by omega
  exact ⟨_, rfl, rfl⟩

theorem from_error_keeps_plain :
    fromError (transportError (.new .notFound "gone")) = .new .notFound "gone" :=
  (from_error_keeps (transport_first (.new .notFound "gone"))).mpr (.inr ⟨rfl, rfl⟩)

/-- Wrapped once, the status loses its details. -/
theorem from_error_drops : ¬ ∀ (err : DynError) (depth : Nat) (status : Status),
    FirstStatus err depth status → fromError err = status := by
  intro keeps
  exact absurd (keeps _ 1 detailed (transport_first detailed)) (by decide)

end Wrapped

end ErrorChains
