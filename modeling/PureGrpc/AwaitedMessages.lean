import PureGrpc.StreamingDecode

/-!
The asynchronous methods of a stream. Awaiting polls until the answer is not
Pending, and fetching the trailers awaits every message that is left. Both end
because a Pending uses up a chunk of the body, and a message bytes.
-/
namespace AwaitedMessages
open LengthFraming GrpcMetadata GrpcStatus GrpcCompression GrpcCodec PolledMachines HttpBodies
open StreamingDecode

variable {δ T : Type} (dec : Decoder δ T) (z : Compressors)

/-- Bytes in the buffer, counting a header that was taken out of it. -/
def backlog (inner : StreamingInner) : Nat :=
  inner.buf.length + (match inner.state with | .readBody _ _ => 5 | _ => 0)

def unspent (inner : StreamingInner) : Nat := backlog inner + inner.body.data.length

theorem decode_body_backlog (inner : StreamingInner) (compression : Option CompressionEncoding)
    (len : Nat) : backlog (inner.decodeBody z compression len).2 ≤ backlog inner ∧
      (inner.decodeBody z compression len).2.state = inner.state := by
  unfold StreamingInner.decodeBody
  split
  · exact ⟨Nat.le_refl _, rfl⟩
  · cases compression with
    | none => exact ⟨Nat.le_refl _, rfl⟩
    | some encoding =>
      dsimp only
      split
      · exact ⟨Nat.le_refl _, rfl⟩
      · refine ⟨?_, rfl⟩
        simp only [backlog, List.length_drop]
        omega

theorem inner_decode_chunk_backlog (inner : StreamingInner) :
    backlog (inner.decodeChunk z).2 ≤ backlog inner ∧
      ∀ lease, (inner.decodeChunk z).1 = .ok (some lease) →
        ∃ compression len, (inner.decodeChunk z).2.state = .readBody compression len := by
  have exit := attempted z inner
  generalize inner.decodeChunk z = outcome at exit ⊢
  have front {flag : UInt8} {len : Nat} {rest : Bytes}
      (header : LengthFraming.readHeader inner.buf = some (flag, len, rest)) :
      inner.buf.length = rest.length + 5 := by
    rw [(read_header_some header).2]
    simp only [List.length_cons, List.length_append, be_bytes_length]
    omega
  cases exit with
  | closed state =>
    constructor
    · exact Nat.le_refl _
    · intro lease wrong
      cases wrong
  | @resumed compression len state =>
    obtain ⟨less, kept⟩ := decode_body_backlog z inner compression len
    exact ⟨less, fun _ _ => ⟨_, _, kept.trans state⟩⟩
  | short state header =>
    constructor
    · exact Nat.le_refl _
    · intro lease wrong
      cases wrong
  | badFlag state header flagged =>
    constructor
    · simp only [backlog, List.length_drop]
      omega
    · intro lease wrong
      cases wrong
  | tooLong state header flagged within =>
    constructor
    · have shorter := front header
      simp only [backlog]
      omega
    · intro lease wrong
      cases wrong
  | @entered flag len rest compression state header flagged within =>
    have shorter := front header
    obtain ⟨less, kept⟩ := decode_body_backlog z
      { inner with buf := rest, state := .readBody compression len } compression len
    refine ⟨Nat.le_trans less ?_, fun _ _ => ⟨_, _, kept⟩⟩
    simp only [backlog, state]
    omega

theorem remaining_length (buf : Bytes) (consumed : Nat) (lease : Lease) :
    (lease.remaining buf consumed).length ≤ buf.length := by
  cases lease with
  | shared len => simp [Lease.remaining]
  | decompressed bytes => simp [Lease.remaining]

theorem decode_chunk_backlog (self : Streaming δ) :
    backlog (self.decodeChunk dec z).2.inner ≤ backlog self.inner ∧
      ∀ msg, (self.decodeChunk dec z).1 = .ok (some msg) →
        backlog (self.decodeChunk dec z).2.inner < backlog self.inner := by
  obtain ⟨less, payload⟩ := inner_decode_chunk_backlog z self.inner
  have exit := decoded dec z self
  generalize self.decodeChunk dec z = outcome at exit ⊢
  cases exit with
  | refused attempt =>
    rw [attempt] at less
    constructor
    · exact less
    · intro msg wrong
      cases wrong
  | short attempt =>
    rw [attempt] at less
    constructor
    · exact less
    · intro msg wrong
      cases wrong
  | @failed lease inner call status attempt shown result =>
    rw [attempt] at less
    have shorter := remaining_length inner.buf call.consumed lease
    constructor
    · simp only [backlog] at less ⊢
      omega
    · intro msg wrong
      cases wrong
  | @withheld lease inner call attempt shown result =>
    rw [attempt] at less
    have shorter := remaining_length inner.buf call.consumed lease
    constructor
    · simp only [backlog] at less ⊢
      omega
    · intro msg wrong
      cases wrong
  | @made lease inner call msg attempt shown result =>
    -- the header that was read is what makes a message cost something
    rw [attempt] at less payload
    have shorter := remaining_length inner.buf call.consumed lease
    obtain ⟨compression, len, state⟩ := payload lease rfl
    dsimp only at state
    simp only [backlog, state] at less ⊢
    constructor
    · omega
    · intro msg _
      omega

theorem poll_frame_unspent (inner : StreamingInner) :
    unspent inner.pollFrame.2 ≤ unspent inner := by
  obtain ⟨⟨chunks, tail⟩, state, direction, buf, trailers, encoding, size⟩ := inner
  cases chunks with
  | cons chunk rest =>
    cases chunk with
    | pending => exact Nat.le_refl _
    | data bytes =>
      simp only [StreamingInner.pollFrame, Body.pollFrame, unspent, backlog, body_data_cons,
        List.length_append]
      omega
  | nil =>
    cases tail with
    | eof =>
      simp only [StreamingInner.pollFrame, Body.pollFrame]
      split <;> exact Nat.le_refl _
    | trailers map => exact Nat.le_refl _
    | error status =>
      simp only [StreamingInner.pollFrame, Body.pollFrame]
      split
      · exact Nat.le_refl _
      · simp only [unspent, backlog, body_data_nil]
        omega

theorem response_unspent (inner : StreamingInner) :
    unspent inner.response.2 = unspent inner := by
  unfold StreamingInner.response
  repeat' split
  all_goals rfl

theorem attempt_unspent {self t : Streaming δ} {result : Except Status (Option T)}
    (attempt : self.decodeChunk dec z = (result, t)) :
    unspent t.inner ≤ unspent self.inner ∧ t.inner.body = self.inner.body ∧
      ∀ msg, result = .ok (some msg) → unspent t.inner < unspent self.inner := by
  have same := (decode_chunk_same dec z self).body
  have less := decode_chunk_backlog dec z self
  rw [attempt] at same less
  unfold unspent
  rw [same]
  refine ⟨?_, rfl, ?_⟩
  · have bound := less.1
    dsimp only at bound
    omega
  · intro msg message
    have bound := less.2 msg message
    dsimp only at bound
    omega

/-- A poll adds no bytes and no chunks; a message uses up bytes and Pending a chunk. -/
structure Spends (before after : Streaming δ) (answer : Poll (Option (Except Status T))) :
    Prop where
  bytes : unspent after.inner ≤ unspent before.inner
  chunks : after.inner.body.chunks.length ≤ before.inner.body.chunks.length
  message : ∀ msg, answer = .ready (some (.ok msg)) → unspent after.inner < unspent before.inner
  pending : answer = .pending →
    after.inner.body.chunks.length < before.inner.body.chunks.length

theorem exit_spends {self t : Streaming δ} {inner : StreamingInner}
    (attempt : self.decodeChunk dec z = (.ok none, t)) {frame : Poll (Except Status (Option Unit))}
    (fetched : t.inner.pollFrame = (frame, inner)) :
    unspent inner ≤ unspent self.inner ∧
      inner.body.chunks.length ≤ self.inner.body.chunks.length ∧
      (frame = .pending → inner.body.chunks.length < self.inner.body.chunks.length) := by
  obtain ⟨less, body, _⟩ := attempt_unspent dec z attempt
  have bytes := poll_frame_unspent t.inner
  obtain ⟨chunks, fewer⟩ := poll_frame_shrinks t.inner
  rw [fetched] at bytes chunks fewer
  rw [body] at chunks fewer
  exact ⟨Nat.le_trans bytes less, chunks, fun pending => fewer (.inr pending)⟩

theorem answer_spends {self t : Streaming δ} {inner answered : StreamingInner}
    (attempt : self.decodeChunk dec z = (.ok none, t)) {frame : Poll (Except Status (Option Unit))}
    (fetched : t.inner.pollFrame = (frame, inner)) {good : Except Status Unit}
    (answer : inner.response = (good, answered)) :
    unspent answered ≤ unspent self.inner ∧
      answered.body.chunks.length ≤ self.inner.body.chunks.length := by
  obtain ⟨bytes, chunks, _⟩ := exit_spends dec z attempt fetched
  have same := response_unspent inner
  have body := response_same_body inner
  rw [answer] at same body
  dsimp only at same body
  rw [same, body]
  exact ⟨bytes, chunks⟩

theorem poll_spends (self : Streaming δ) :
    Spends self (self.pollNext dec z).2 (self.pollNext dec z).1 := by
  apply run_rule (Streaming.loop dec z)
    (fun t => unspent t.inner ≤ unspent self.inner ∧
      t.inner.body.chunks.length ≤ self.inner.body.chunks.length)
    (fun answer t => Spends self t answer)
  · intro s t kept turn
    have exit := turned dec z s
    rw [show s.turn dec z = .again t from turn] at exit
    cases exit with
    | feeds running attempt frame =>
      obtain ⟨bytes, chunks, _⟩ := exit_spends dec z attempt frame
      exact ⟨Nat.le_trans bytes kept.1, Nat.le_trans chunks kept.2⟩
    | @refused u inner err answered running attempt frame answer =>
      obtain ⟨bytes, chunks⟩ := answer_spends dec z attempt frame answer
      have closed : unspent { answered with state := .error (some err) } ≤ unspent answered := by
        simp only [unspent, backlog]
        omega
      exact ⟨Nat.le_trans closed (Nat.le_trans bytes kept.1), Nat.le_trans chunks kept.2⟩
  · intro s answer t kept turn
    have exit := turned dec z s
    rw [show s.turn dec z = .done answer t from turn] at exit
    cases exit with
    | @errored status state =>
      refine ⟨?_, kept.2, ?_, (by intro wrong; cases wrong)⟩
      · refine Nat.le_trans ?_ kept.1
        simp only [unspent, backlog, state]
        omega
      · intro msg message
        cases status <;> cases message
    | rejected running attempt =>
      obtain ⟨bytes, body, _⟩ := attempt_unspent dec z attempt
      refine ⟨Nat.le_trans bytes kept.1, ?_, ?_, ?_⟩
      · rw [body]
        exact kept.2
      · intro msg wrong
        cases wrong
      · intro wrong
        cases wrong
    | decoded running attempt =>
      obtain ⟨bytes, body, less⟩ := attempt_unspent dec z attempt
      refine ⟨Nat.le_trans bytes kept.1, ?_, ?_, ?_⟩
      · rw [body]
        exact kept.2
      · intro _ _
        exact Nat.lt_of_lt_of_le (less _ rfl) kept.1
      · intro wrong
        cases wrong
    | waits running attempt frame =>
      obtain ⟨bytes, chunks, fewer⟩ := exit_spends dec z attempt frame
      refine ⟨Nat.le_trans bytes kept.1, Nat.le_trans chunks kept.2, ?_, ?_⟩
      · intro msg wrong
        cases wrong
      · intro _
        exact Nat.lt_of_lt_of_le (fewer rfl) kept.2
    | fails running attempt frame =>
      obtain ⟨bytes, chunks, _⟩ := exit_spends dec z attempt frame
      refine ⟨Nat.le_trans bytes kept.1, Nat.le_trans chunks kept.2, ?_, ?_⟩
      · intro msg wrong
        cases wrong
      · intro wrong
        cases wrong
    | ends running attempt frame answer =>
      obtain ⟨bytes, chunks⟩ := answer_spends dec z attempt frame answer
      refine ⟨Nat.le_trans bytes kept.1, Nat.le_trans chunks kept.2, ?_, ?_⟩
      · intro msg wrong
        cases wrong
      · intro wrong
        cases wrong
  · exact ⟨Nat.le_refl _, Nat.le_refl _⟩

def awaitLoop : Loop (Option (Except Status T)) (Streaming δ) where
  turn self :=
    match self.pollNext dec z with
    | (.pending, self) => .again self
    | (.ready item, self) => .done item self
  budget self := self.inner.body.chunks.length
  spends := by
    intro s t turn
    have spends := poll_spends dec z s
    split at turn
    · rename_i poll
      cases turn
      rw [poll] at spends
      exact spends.pending rfl
    · cases turn

def Streaming.message (self : Streaming δ) : Except Status (Option T) × Streaming δ :=
  match (awaitLoop dec z).run self with
  | (some (.ok msg), self) => (.ok (some msg), self)
  | (some (.error e), self) => (.error e, self)
  | (none, self) => (.ok none, self)

theorem await_spends (self : Streaming δ) (msg : T)
    (answer : ((awaitLoop dec z).run self).1 = some (.ok msg)) :
    unspent ((awaitLoop dec z).run self).2.inner < unspent self.inner := by
  have rule := run_rule (awaitLoop dec z) (fun t => unspent t.inner ≤ unspent self.inner)
    (fun item t => ∀ msg, item = some (.ok msg) → unspent t.inner < unspent self.inner)
    (by
      intro s t kept turn
      have spends := poll_spends dec z s
      simp only [awaitLoop] at turn
      split at turn
      · rename_i poll
        cases turn
        rw [poll] at spends
        exact Nat.le_trans spends.bytes kept
      · cases turn)
    (by
      intro s item t kept turn msg message
      have spends := poll_spends dec z s
      simp only [awaitLoop] at turn
      split at turn
      · cases turn
      · rename_i poll
        cases turn
        rw [poll] at spends
        exact Nat.lt_of_lt_of_le (spends.message msg (congrArg _ message)) kept)
    self (Nat.le_refl _)
  exact rule msg answer

def drainLoop : Loop (Except Status Unit) (Streaming δ) where
  turn self :=
    match Streaming.message dec z self with
    | (.ok (some _), self) => .again self
    | (.ok none, self) => .done (.ok ()) self
    | (.error e, self) => .done (.error e) self
  budget self := unspent self.inner
  spends := by
    intro s t turn
    have spends := await_spends dec z s
    unfold Streaming.message at turn
    generalize (awaitLoop dec z).run s = answer at turn spends
    obtain ⟨item, u⟩ := answer
    rcases item with _ | _ | msg
    · cases turn
    · cases turn
    · cases turn
      exact spends msg rfl

def Streaming.trailers (self : Streaming δ) : Except Status (Option MetadataMap) × Streaming δ :=
  match self.inner.trailers with
  | some trailers => (.ok (some ⟨trailers⟩), { self with inner := { self.inner with trailers := none } })
  | none =>
    match (drainLoop dec z).run self with
    | (.error e, self) => (.error e, self)
    | (.ok (), self) =>
      (.ok (self.inner.trailers.map MetadataMap.mk),
        { self with inner := { self.inner with trailers := none } })

section Reading
variable {s t : Streaming δ} {msgs : List T} {o : Option Status}

/-- What a stream that reads this still gives to one who awaits its next message. -/
def Awaited (s : Streaming δ) : List T → Option Status → Streaming δ → Prop
  | msg :: rest, o, t => ∃ u, Streaming.message dec z s = (.ok (some msg), u) ∧
    Reads (Streaming.pollNext dec z) u rest o t
  | [], some e, t => Streaming.message dec z s = (.error e, t)
  | [], none, t => Streaming.message dec z s = (.ok none, t)

theorem message_reads (run : Reads (Streaming.pollNext dec z) s msgs o t) :
    Awaited dec z s msgs o t := by
  have done {s t : Streaming δ} {item : Option (Except Status T)}
      (poll : s.pollNext dec z = (.ready item, t)) : (awaitLoop dec z).run s = (item, t) := by
    apply run_done
    simp only [awaitLoop, poll]
  induction run with
  | stop h => simp only [Awaited, Streaming.message, done h]
  | fail h => simp only [Awaited, Streaming.message, done h]
  | item h rest ih => exact ⟨_, by simp only [Streaming.message, done h], rest⟩
  | @wait s t items o u h rest ih =>
    have again : (awaitLoop dec z).run s = (awaitLoop dec z).run t := by
      apply run_again
      simp only [awaitLoop, h]
    have same : Streaming.message dec z s = Streaming.message dec z t := by
      simp only [Streaming.message, again]
    cases items with
    | cons msg rest => simpa only [Awaited, same] using ih
    | nil => cases o <;> simpa only [Awaited, same] using ih

theorem drain_reads (run : Reads (Streaming.pollNext dec z) s msgs o t) :
    (drainLoop dec z).run s = (o.elim (.ok ()) .error, t) := by
  induction msgs generalizing s with
  | nil =>
    have next := message_reads dec z run
    cases o with
    | none =>
      simp only [Awaited] at next
      apply run_done
      simp only [drainLoop, next, Option.elim]
    | some e =>
      simp only [Awaited] at next
      apply run_done
      simp only [drainLoop, next, Option.elim]
  | cons msg msgs ih =>
    obtain ⟨u, next, rest⟩ := message_reads dec z run
    rw [← ih rest]
    apply run_again
    simp only [drainLoop, next]

end Reading

section Underway

theorem inner_decode_chunk_running (inner : StreamingInner)
    (running : inner.state.isError = false) : (inner.decodeChunk z).2.state.isError = false := by
  have exit := attempted z inner
  generalize inner.decodeChunk z = outcome at exit ⊢
  cases exit with
  | closed state => exact running
  | resumed state =>
    rw [(decode_body_backlog z inner _ _).2]
    exact running
  | short state header => exact running
  | badFlag state header flagged => exact running
  | tooLong state header flagged within => exact running
  | entered state header flagged within =>
    rw [(decode_body_backlog z _ _ _).2]
    rfl

theorem decode_chunk_running (self : Streaming δ) (running : self.inner.state.isError = false) :
    (self.decodeChunk dec z).2.inner.state.isError = false := by
  have kept := inner_decode_chunk_running z self.inner running
  have exit := decoded dec z self
  generalize self.decodeChunk dec z = outcome at exit ⊢
  cases exit with
  | refused attempt => simpa only [attempt] using kept
  | short attempt => simpa only [attempt] using kept
  | failed attempt shown result => simpa only [attempt] using kept
  | withheld attempt shown result => simpa only [attempt] using kept
  | made attempt shown result => rfl

/-- The stream has neither failed nor reached the end its body has. -/
structure Underway (tail : Tail Status) (inner : StreamingInner) : Prop where
  running : inner.state.isError = false
  tail : inner.body.tail = tail
  trailers : inner.trailers = none

/-- What an answer says of the stream after it: a message leaves it underway, and
    its end has the trailers the body ends in. -/
def Reached (tail : Tail Status) : Option (Except Status T) → Streaming δ → Prop
  | some (.ok _), t => Underway tail t.inner
  | some (.error _), _ => True
  | none, t => ∀ map, tail = .trailers map → t.inner.trailers = some map

variable {tail : Tail Status}

theorem attempt_underway {self t : Streaming δ} {result : Except Status (Option T)}
    (underway : Underway tail self.inner) (attempt : self.decodeChunk dec z = (result, t)) :
    Underway tail t.inner := by
  have running := decode_chunk_running dec z self underway.running
  have same := decode_chunk_same dec z self
  rw [attempt] at running same
  exact ⟨running, by rw [same.body, underway.tail], by rw [same.trailers, underway.trailers]⟩

theorem frame_underway {inner next : StreamingInner} {answer : Poll (Except Status (Option Unit))}
    (underway : Underway tail inner) (frame : inner.pollFrame = (answer, next)) :
    (answer = .pending ∨ answer = .ready (.ok (some ())) → Underway tail next) ∧
      (answer = .ready (.ok none) → ∀ map, tail = .trailers map → next.trailers = some map) := by
  obtain ⟨running, same, noTrailers⟩ := underway
  obtain ⟨⟨chunks, last⟩, state, direction, buf, trailers, encoding, size⟩ := inner
  dsimp only at running same noTrailers
  subst same noTrailers
  cases chunks with
  | cons chunk rest =>
    cases chunk with
    | data bytes =>
      cases frame
      exact ⟨fun _ => ⟨running, rfl, rfl⟩, by intro wrong; cases wrong⟩
    | pending =>
      cases frame
      exact ⟨fun _ => ⟨running, rfl, rfl⟩, by intro wrong; cases wrong⟩
  | nil =>
    cases last with
    | trailers map =>
      cases frame
      refine ⟨(by rintro (h | h) <;> cases h), ?_⟩
      intro _ other same
      cases same
      rfl
    | eof =>
      constructor
      · simp only [StreamingInner.pollFrame, Body.pollFrame] at frame
        split at frame <;> cases frame <;> rintro (h | h) <;> cases h
      · intro _ map wrong
        cases wrong
    | error status =>
      constructor
      · simp only [StreamingInner.pollFrame, Body.pollFrame] at frame
        split at frame <;> cases frame <;> rintro (h | h) <;> cases h
      · intro _ map wrong
        cases wrong

theorem response_keeps_trailers {inner next : StreamingInner}
    (good : inner.response = (.ok (), next)) : next = inner := by
  unfold StreamingInner.response at good
  split at good
  · split at good <;> cases good
    rfl
  · cases good
    rfl

theorem poll_underway (self : Streaming δ) (underway : Underway tail self.inner) :
    match Streaming.pollNext dec z self with
    | (.pending, t) => Underway tail t.inner
    | (.ready item, t) => Reached tail item t := by
  have rule := run_rule (Streaming.loop dec z)
    (fun t => Underway tail t.inner ∨ ∃ err, t.inner.state = .error (some err))
    (fun answer t =>
      (answer = .pending → Underway tail t.inner) ∧ ∀ item, answer = .ready item → Reached tail item t)
    (by
      intro s t kept turn
      have exit := turned dec z s
      rw [show s.turn dec z = .again t from turn] at exit
      cases exit with
      | feeds running attempt frame =>
        rcases kept with kept | ⟨err, state⟩
        · exact .inl ((frame_underway (attempt_underway dec z kept attempt) frame).1 (.inr rfl))
        · simp [state, State.isError] at running
      | refused running attempt frame answer => exact .inr ⟨_, rfl⟩)
    (by
      intro s answer t kept turn
      have exit := turned dec z s
      rw [show s.turn dec z = .done answer t from turn] at exit
      rcases kept with kept | ⟨err, state⟩
      · have attempted {result u} (attempt : s.decodeChunk dec z = (result, u)) :=
          attempt_underway dec z kept attempt
        cases exit with
        | errored state =>
          have running := kept.running
          simp [state, State.isError] at running
        | rejected running attempt =>
          refine ⟨(by intro wrong; cases wrong), ?_⟩
          rintro _ ⟨rfl⟩
          trivial
        | decoded running attempt =>
          refine ⟨(by intro wrong; cases wrong), ?_⟩
          rintro _ ⟨rfl⟩
          exact attempted attempt
        | waits running attempt frame =>
          refine ⟨fun _ => (frame_underway (attempted attempt) frame).1 (.inl rfl), ?_⟩
          intro item wrong
          cases wrong
        | fails running attempt frame =>
          refine ⟨(by intro wrong; cases wrong), ?_⟩
          rintro _ ⟨rfl⟩
          trivial
        | ends running attempt frame answer =>
          refine ⟨(by intro wrong; cases wrong), ?_⟩
          rintro _ ⟨rfl⟩
          cases response_keeps_trailers answer
          exact (frame_underway (attempted attempt) frame).2 rfl
      · cases exit with
        | errored same =>
          cases state.symm.trans same
          refine ⟨(by intro wrong; cases wrong), ?_⟩
          rintro _ ⟨rfl⟩
          trivial
        | _ running => simp [state, State.isError] at running)
    self (.inl underway)
  split <;> rename_i poll <;> simp only [Streaming.pollNext] at poll <;> rw [poll] at rule
  · exact rule.1 rfl
  · exact rule.2 _ rfl

theorem await_underway (self : Streaming δ) (underway : Underway tail self.inner) :
    Reached tail ((awaitLoop dec z).run self).1 ((awaitLoop dec z).run self).2 := by
  apply run_rule (awaitLoop dec z) (fun t => Underway tail t.inner) (Reached tail)
  · intro s t kept turn
    have later := poll_underway dec z s kept
    simp only [awaitLoop] at turn
    split at turn <;> rename_i poll <;> cases turn
    rwa [poll] at later
  · intro s item t kept turn
    have later := poll_underway dec z s kept
    simp only [awaitLoop] at turn
    split at turn <;> rename_i poll <;> cases turn
    rwa [poll] at later
  · exact underway

theorem message_underway (self : Streaming δ) (underway : Underway tail self.inner) :
    (∀ msg t, Streaming.message dec z self = (.ok (some msg), t) → Underway tail t.inner) ∧
      ∀ t, Streaming.message dec z self = (.ok none, t) →
        ∀ map, tail = .trailers map → t.inner.trailers = some map := by
  have later := await_underway dec z self underway
  unfold Streaming.message
  split <;> rename_i answer <;> rw [answer] at later
  · constructor
    · intro msg t same
      cases same
      exact later
    · intro t wrong
      cases wrong
  · constructor
    · intro msg t wrong
      cases wrong
    · intro t wrong
      cases wrong
  · constructor
    · intro msg t wrong
      cases wrong
    · intro t same
      cases same
      exact later

theorem drain_trailers (map : HeaderMap) (self : Streaming δ)
    (underway : Underway (.trailers map) self.inner)
    (drained : ((drainLoop dec z).run self).1 = .ok ()) :
    ((drainLoop dec z).run self).2.inner.trailers = some map := by
  have rule := run_rule (drainLoop dec z) (fun t => Underway (.trailers map) t.inner)
    (fun result t => result = .ok () → t.inner.trailers = some map)
    (by
      intro s t kept turn
      have later := message_underway dec z s kept
      simp only [drainLoop] at turn
      split at turn <;> rename_i answer <;> cases turn
      exact later.1 _ _ answer)
    (by
      intro s result t kept turn
      have later := message_underway dec z s kept
      simp only [drainLoop] at turn
      split at turn <;> rename_i answer <;> cases turn
      · exact fun _ => later.2 _ answer map rfl
      · intro wrong
        cases wrong)
    self underway
  exact rule drained

theorem trailers_underway {map : HeaderMap} {self t : Streaming δ} {found : Option MetadataMap}
    (underway : Underway (.trailers map) self.inner)
    (fetched : Streaming.trailers dec z self = (.ok found, t)) : found = some ⟨map⟩ := by
  have drained := drain_trailers dec z map self underway
  unfold Streaming.trailers at fetched
  rw [underway.trailers] at fetched
  dsimp only at fetched
  split at fetched <;> rename_i result <;> cases fetched
  rw [result] at drained
  rw [drained rfl]
  rfl

end Underway

end AwaitedMessages
