import PureGrpc.StreamingScan

/-!
When polling on after an error comes to an end. Errors of the body and of the
trailers close the stream. A frame that is rejected does not, nor does EOF with
bytes in the buffer: those exits return the error and leave the state as it was.
A run that never takes one of them settles.
-/
namespace ErrorTermination
open KeyedMultimap LengthFraming GrpcMetadata GrpcStatus GrpcCompression GrpcCodec PolledMachines
open HttpBodies StreamingDecode StreamingScan

variable {δ T : Type} (dec : Decoder δ T) (z : Compressors)

def front (self : Streaming δ) : Scan δ T :=
  scanFrame dec z self.inner.encoding self.inner.maxMessageSize self.decoder (unread self.inner)

/-- What is in the buffer when the stream turns to its body, if it does. -/
def leftOver (self : Streaming δ) : Option Bytes :=
  match front dec z self with
  | .short => some (held (unread self.inner))
  | .stall _ rest => some rest
  | _ => none

def mergedTrailers (old : Option HeaderMap) (map : HeaderMap) : HeaderMap :=
  match old with
  | some old => extend old map
  | none => map

/-- The body is over, and not by an error that closes the stream. -/
def BodyOver (inner : StreamingInner) : Prop :=
  inner.body.chunks = [] ∧
    match inner.body.tail with
    | .eof => True
    | .trailers map =>
      inferred inner.direction (some (mergedTrailers inner.trailers map)) = none
    | .error status => inner.direction = .request ∧ status.code = .cancelled

/-- The next turn takes an exit that leaves the stream open: a frame is rejected,
    the body ends while bytes are in the buffer, or a decoder that made nothing of
    an empty payload makes a message of it once the body is over. -/
def Faulty (self : Streaming δ) : Prop :=
  self.inner.state.isError = false ∧
    ((∃ status, front dec z self = .bad status) ∨
      (∃ left, leftOver dec z self = some left ∧ left ≠ [] ∧ BodyOver self.inner) ∨
      (self.inner.body = ⟨[], .eof⟩ ∧ self.inner.buf = [] ∧
        ∃ msg next rest, front dec z self = .message msg next rest))

def work (self : Streaming δ) : Nat :=
  (unread self.inner).length + self.inner.body.data.length + self.inner.body.chunks.length

structure Ended (self : Streaming δ) : Prop where
  taken : Taken self.inner
  body : self.inner.body = ⟨[], .eof⟩
  buf : self.inner.buf = []
  quiet : inferred self.inner.direction self.inner.trailers = none

theorem attempt_cases (self : Streaming δ) (taken : Taken self.inner)
    (accepted : ∀ status, front dec z self ≠ .bad status) :
    (∃ msg next rest t, front dec z self = .message msg next rest ∧
      self.decodeChunk dec z = (.ok (some msg), t) ∧ Taken t.inner ∧
      t.inner.body = self.inner.body ∧
      (unread t.inner).length < (unread self.inner).length) ∨
    ∃ left t, leftOver dec z self = some left ∧
      self.decodeChunk dec z = (.ok none, t) ∧ Taken t.inner ∧ t.inner.buf = left ∧
      SameSource self.inner t.inner ∧
      (unread t.inner).length ≤ (unread self.inner).length := by
  obtain ⟨inner, taken', bytes, same, inBuffer, _, answers⟩ := decode_chunk_answers dec z self taken
  generalize attempt : self.decodeChunk dec z = answer at answers
  have rest_of {rest : Bytes} (h : (front dec z self).rest = some rest) :
      rest.length + 5 ≤ (unread self.inner).length := scan_frame_rest dec z _ _ h
  unfold leftOver
  rw [← front] at answers inBuffer
  cases scan : front dec z self with
  | bad status => exact absurd scan (accepted status)
  | message msg next rest =>
    rw [scan] at answers
    have shorter : rest.length + 5 ≤ (unread self.inner).length := rest_of (by rw [scan]; rfl)
    cases answers
    refine .inl ⟨msg, next, rest, _, rfl, rfl, trivial, same.body, ?_⟩
    change rest.length < (unread self.inner).length
    omega
  | short =>
    rw [scan] at answers
    cases answers
    exact .inr ⟨_, _, rfl, rfl, taken', inBuffer scan, same, Nat.le_of_eq (by rw [bytes])⟩
  | stall next rest =>
    rw [scan] at answers
    have shorter : rest.length + 5 ≤ (unread self.inner).length := rest_of (by rw [scan]; rfl)
    cases answers
    refine .inr ⟨rest, _, rfl, rfl, taken', rfl,
      ⟨same.body, same.direction, same.trailers, same.encoding, same.maxMessageSize⟩, ?_⟩
    unfold unread
    dsimp only
    split
    · simp only [List.length_cons, List.length_append, be_bytes_length]
      exact Nat.le_trans (by omega) shorter
    · exact Nat.le_trans (by omega) shorter

/-- What one turn of a stream that is not at fault does. -/
inductive Proceeds (self : Streaming δ) :
    Turn (Poll (Option (Except Status T))) (Streaming δ) → Prop where
  | message {msg t} (taken : Taken t.inner) (less : work t < work self) :
      Proceeds self (.done (.ready (some (.ok msg))) t)
  | wait {t} (taken : Taken t.inner) (less : work t < work self) :
      Proceeds self (.done .pending t)
  | feed {t} (taken : Taken t.inner) (less : work t < work self) : Proceeds self (.again t)
  | refuse {err t} (state : t.inner.state = .error (some err)) : Proceeds self (.again t)
  | fail {err t} (state : t.inner.state = .error (some err)) :
      Proceeds self (.done (.ready (some (.error err))) t)
  | finish {t} (ended : Ended t) : Proceeds self (.done (.ready none) t)

theorem response_proceeds (self t : Streaming δ) (taken : Taken t.inner)
    (body : t.inner.body = ⟨[], .eof⟩)
    (empty : inferred t.inner.direction t.inner.trailers = none → t.inner.buf = []) :
    Proceeds (T := T) self (match t.inner.response with
      | (.ok (), inner) => .done (.ready none) { t with inner }
      | (.error err, inner) => .again { t with inner := { inner with state := .error (some err) } }) := by
  have answer := response_inferred t.inner
  cases verdict : inferred t.inner.direction t.inner.trailers with
  | none =>
    rw [verdict] at answer
    simp only [answer]
    exact .finish ⟨taken, body, empty verdict, verdict⟩
  | some e =>
    rw [verdict] at answer
    simp only [answer]
    exact .refuse rfl

theorem turn_proceeds (self : Streaming δ) (taken : Taken self.inner)
    (sound : ¬ Faulty dec z self) : Proceeds self (self.turn dec z) := by
  have running := taken_running taken
  have accepted : ∀ status, front dec z self ≠ .bad status :=
    fun status bad => sound ⟨running, .inl ⟨status, bad⟩⟩
  rw [turn_running dec z running]
  rcases attempt_cases dec z self taken accepted with
    ⟨msg, next, rest, t, _, attempt, taken', body, less⟩ |
    ⟨left, t, leaves, attempt, taken', buf, same, less⟩
  · simp only [attempt]
    exact .message taken' (by unfold work; rw [body]; omega)
  · simp only [attempt]
    have quiet : BodyOver self.inner → t.inner.buf = [] := by
      intro bodyOver
      by_contra nonempty
      exact sound ⟨running, .inr (.inl ⟨left, leaves, buf ▸ nonempty, bodyOver⟩)⟩
    have used : work self = (unread self.inner).length + t.inner.body.data.length +
        t.inner.body.chunks.length := by rw [work, same.body]
    rw [BodyOver, ← same.body, ← same.direction, ← same.trailers] at quiet
    obtain ⟨d, ⟨⟨chunks, tail⟩, state, direction, buffer, trailers, encoding, size⟩⟩ := t
    match chunks with
    | .pending :: more =>
      simp only [StreamingInner.pollFrame, Body.pollFrame]
      refine .wait taken' ?_
      rw [used]
      simp only [work, body_data_pending, List.length_cons]
      exact Nat.lt_succ_of_le (Nat.add_le_add_right (Nat.add_le_add_right less _) _)
    | .data bytes :: more =>
      simp only [StreamingInner.pollFrame, Body.pollFrame]
      refine .feed taken' ?_
      have fed := unread_feed
        ⟨⟨.data bytes :: more, tail⟩, state, direction, buffer, trailers, encoding, size⟩
        ⟨more, tail⟩ bytes
      dsimp only at fed less used
      rw [used, work]
      dsimp only
      rw [fed]
      simp only [body_data_cons, List.length_append, List.length_cons]
      omega
    | [] =>
      cases tail with
      | eof =>
        have empty : buffer = [] := quiet ⟨rfl, trivial⟩
        simp only [StreamingInner.pollFrame, Body.pollFrame, empty, ne_eq, not_true_eq_false,
          if_false]
        exact response_proceeds self
          ⟨d, ⟨⟨[], .eof⟩, state, direction, [], trailers, encoding, size⟩⟩ taken' rfl fun _ => rfl
      | trailers map =>
        simp only [StreamingInner.pollFrame, Body.pollFrame]
        exact response_proceeds self
          ⟨d, ⟨⟨[], .eof⟩, state, direction, buffer, some (mergedTrailers trailers map), encoding,
            size⟩⟩ taken' rfl fun good => quiet ⟨rfl, good⟩
      | error status =>
        simp only [StreamingInner.pollFrame, Body.pollFrame]
        by_cases cancelled : direction = .request ∧ status.code = .cancelled
        · simp only [cancelled, and_self, if_true]
          exact response_proceeds self
            ⟨d, ⟨⟨[], .eof⟩, state, .request, buffer, trailers, encoding, size⟩⟩ taken' rfl
            fun _ => quiet ⟨rfl, cancelled⟩
        · simp only [cancelled, if_false]
          exact .fail rfl

theorem ended_turn (self : Streaming δ) (ended : Ended self) (sound : ¬ Faulty dec z self) :
    ∃ t, self.turn dec z = .done (.ready none) t ∧ Ended t := by
  obtain ⟨taken, body, buf, quiet⟩ := ended
  have running := taken_running taken
  have accepted : ∀ status, front dec z self ≠ .bad status :=
    fun status bad => sound ⟨running, .inl ⟨status, bad⟩⟩
  rcases attempt_cases dec z self taken accepted with
    ⟨msg, next, rest, t, message, _⟩ | ⟨left, t, leaves, attempt, taken', buffer, same, _⟩
  · exact absurd ⟨running, .inr (.inr ⟨body, buf, msg, next, rest, message⟩)⟩ sound
  · have empty : t.inner.buf = [] := by
      by_contra nonempty
      refine sound ⟨running, .inr (.inl ⟨left, leaves, buffer ▸ nonempty, ?_⟩)⟩
      simp [BodyOver, body]
    have quiet' : inferred t.inner.direction t.inner.trailers = none := by
      rw [same.direction, same.trailers, quiet]
    have answer := response_inferred t.inner
    rw [quiet'] at answer
    have body' := same.body.trans body
    have frame : t.inner.pollFrame = (.ready (.ok none), t.inner) := by
      simp only [StreamingInner.pollFrame, body', Body.pollFrame]
      rw [if_neg (not_not_intro empty), ← body']
    refine ⟨t, ?_, taken', body', empty, quiet'⟩
    rw [turn_running dec z running]
    simp only [attempt, frame, answer]

def NeverFaulty (s : Streaming δ) : Prop :=
  ∀ n t, (Streaming.loop dec z).Visits (stateAt (Streaming.pollNext dec z) s n) t →
    ¬ Faulty dec z t

def Polled (self : Streaming δ) (answer : Poll (Option (Except Status T))) (t : Streaming δ) :
    Prop :=
  ((answer = .pending ∨ ∃ msg, answer = .ready (some (.ok msg))) ∧ Taken t.inner ∧
    work t < work self) ∨
  ((∃ e, answer = .ready (some (.error e))) ∧
    ((∃ e, t.inner.state = .error (some e)) ∨ t.inner.state = .error none ∨ Ended t)) ∨
  (answer = .ready none ∧ (t.inner.state = .error none ∨ Ended t))

theorem live_polled (self : Streaming δ) (taken : Taken self.inner)
    (sound : ∀ t, (Streaming.loop dec z).Visits self t → ¬ Faulty dec z t) :
    Polled self (self.pollNext dec z).1 (self.pollNext dec z).2 := by
  apply run_rule (Streaming.loop dec z)
    (fun t => (Streaming.loop dec z).Visits self t ∧
      ((Taken t.inner ∧ work t ≤ work self) ∨ ∃ e, t.inner.state = .error (some e)))
    (Polled self)
  · rintro s t ⟨visits, live | ⟨e, state⟩⟩ turn
    · have step := turn_proceeds dec z s live.1 (sound s visits)
      have turn' : s.turn dec z = .again t := turn
      rw [turn'] at step
      refine ⟨.next visits turn, ?_⟩
      cases step with
      | feed taken' less => exact .inl ⟨taken', Nat.le_trans (Nat.le_of_lt less) live.2⟩
      | refuse state => exact .inr ⟨_, state⟩
    · simp [Streaming.loop, Streaming.turn, state] at turn
  · rintro s r t ⟨visits, live | ⟨e, state⟩⟩ turn
    · have step := turn_proceeds dec z s live.1 (sound s visits)
      have turn' : s.turn dec z = .done r t := turn
      rw [turn'] at step
      cases step with
      | message taken' less =>
        exact .inl ⟨.inr ⟨_, rfl⟩, taken', Nat.lt_of_lt_of_le less live.2⟩
      | wait taken' less => exact .inl ⟨.inl rfl, taken', Nat.lt_of_lt_of_le less live.2⟩
      | fail state => exact .inr (.inl ⟨⟨_, rfl⟩, .inl ⟨_, state⟩⟩)
      | finish ended => exact .inr (.inr ⟨rfl, .inr ended⟩)
    · simp only [Streaming.loop, Streaming.turn, state, Turn.done.injEq] at turn
      obtain ⟨rfl, rfl⟩ := turn
      exact .inr (.inl ⟨⟨e, rfl⟩, .inr (.inl rfl)⟩)
  · exact ⟨.here self, .inl ⟨taken, Nat.le_refl _⟩⟩

/-- A run that is never at fault gives messages, at most two errors, and then the
    end at every later poll. -/
theorem sound_run_settles (decoder : δ) (body : Body Status) (direction : Direction)
    (encoding : Option CompressionEncoding) (maxMessageSize : Option Nat)
    (sound : NeverFaulty dec z (.new decoder body direction encoding maxMessageSize)) :
    Settles (Streaming.pollNext dec z) (.new decoder body direction encoding maxMessageSize) := by
  apply settles_rule (Streaming.pollNext dec z)
    (fun s => ∀ t, (Streaming.loop dec z).Visits s t → ¬ Faulty dec z t)
    (fun s => Taken s.inner) (fun s => ∃ e, s.inner.state = .error (some e))
    (fun s => s.inner.state = .error none ∨ Ended s) work
  · intro s allowed taken
    exact live_polled dec z s taken allowed
  · rintro s ⟨e, state⟩
    rw [poll_errored dec z state]
    exact ⟨⟨e, rfl⟩, .inl rfl⟩
  · rintro s allowed (state | ended)
    · rw [poll_errored dec z state]
      exact ⟨rfl, .inl rfl⟩
    · obtain ⟨t, turn, ended'⟩ := ended_turn dec z s ended (allowed s (.here s))
      have poll : s.pollNext dec z = (.ready none, t) := run_done (Streaming.loop dec z) turn
      rw [poll]
      exact ⟨rfl, .inr ended'⟩
  · exact sound
  · trivial

theorem body_error_settles :
    let dec := plainDecoder fun bytes : Bytes => (.ok bytes : Except Status Bytes)
    let z : Compressors := ⟨fun _ plain => .ok plain, fun _ packed => .ok packed⟩
    Settles (Streaming.pollNext dec z)
      (.new () ⟨[], .error (.new .unavailable "gone")⟩ (.response 200) none none) := by
  intro dec z
  let gone : Status := .new .unavailable "gone"
  let failed (status : Option Status) : Streaming Unit :=
    ⟨(), ⟨⟨[], .eof⟩, .error status, .response 200, [], none, none, none⟩⟩
  let start : Streaming Unit := .new () ⟨[], .error gone⟩ (.response 200) none none
  -- the error is returned and kept, returned again, and then the stream is closed
  have states (n : Nat) : stateAt (Streaming.pollNext dec z) start (n + 1) =
      failed (if n = 0 then some gone else none) := by
    induction n with
    | zero => exact congrArg Prod.snd (run_done (Streaming.loop dec z) rfl)
    | succ n ih =>
      rw [stateAt, ih, poll_errored dec z rfl]
      rfl
  refine sound_run_settles dec z () ⟨[], .error gone⟩ (.response 200) none none ?_
  intro n t visits
  cases n with
  | zero =>
    have here : t = start := visits_done (Streaming.loop dec z) rfl visits
    subst here
    rintro ⟨_, ⟨status, bad⟩ | ⟨left, leaves, nonempty, _⟩ | ⟨_, _, _, _, _, message⟩⟩
    · cases bad
    · cases leaves
      exact nonempty rfl
    · cases message
  | succ n =>
    have here := visits_done (Streaming.loop dec z) (congrArg _ (states n) |>.trans rfl) visits
    intro held
    obtain ⟨running, _⟩ := held
    rw [here, states] at running
    cases running

/-- After a bad flag the next header is read one byte further on, and gives a
    message; at EOF with a byte in the buffer the error is repeated for ever. -/
theorem errors_not_terminal :
    let dec := plainDecoder fun bytes : Bytes => (.ok bytes : Except Status Bytes)
    let z : Compressors := ⟨fun _ plain => .ok plain, fun _ packed => .ok packed⟩
    let badFlag : Streaming Unit := .newRequest () ⟨[.data [2, 0, 0, 0, 0, 0]], .eof⟩ none none
    let leftByte : Streaming Unit := .newRequest () ⟨[.data [0]], .eof⟩ none none
    (∃ e, answerAt (Streaming.pollNext dec z) badFlag 0 = .ready (some (.error e))) ∧
      answerAt (Streaming.pollNext dec z) badFlag 1 = .ready (some (.ok [])) ∧
      (∀ n, ∃ e, answerAt (Streaming.pollNext dec z) leftByte n = .ready (some (.error e))) ∧
      ¬ Settles (Streaming.pollNext dec z) badFlag ∧
      ¬ Settles (Streaming.pollNext dec z) leftByte := by
  intro dec z badFlag leftByte
  let eof : Status := .internal "Unexpected EOF decoding stream."
  let passed : Streaming Unit :=
    ⟨(), ⟨⟨[], .eof⟩, .readHeader, .request, [0, 0, 0, 0, 0], none, none, none⟩⟩
  let stuck : Streaming Unit :=
    ⟨(), ⟨⟨[], .eof⟩, .readHeader, .request, [0], none, none, none⟩⟩
  have flag : badFlag.pollNext dec z = (.ready (some (.error (.internal
      "invalid compression flag: 2 (valid: 0 or 1)"))), passed) :=
    (run_again _ rfl).trans (run_done _ rfl)
  have smuggled : passed.pollNext dec z = (.ready (some (.ok [])),
      ⟨(), ⟨⟨[], .eof⟩, .readHeader, .request, [], none, none, none⟩⟩) := run_done _ rfl
  have left : leftByte.pollNext dec z = (.ready (some (.error eof)), stuck) :=
    (run_again _ rfl).trans (run_done _ rfl)
  have again : stuck.pollNext dec z = (.ready (some (.error eof)), stuck) := run_done _ rfl
  have message : answerAt (Streaming.pollNext dec z) badFlag 1 = .ready (some (.ok [])) := by
    rw [← answer_at_shift, flag, answerAt, stateAt, smuggled]
  have forever (n : Nat) :
      ∃ e, answerAt (Streaming.pollNext dec z) leftByte n = .ready (some (.error e)) := by
    have stays (n : Nat) : stateAt (Streaming.pollNext dec z) stuck n = stuck := by
      induction n with
      | zero => rfl
      | succ n ih => rw [stateAt, ih, again]
    cases n with
    | zero => exact ⟨eof, by rw [answerAt, stateAt, left]⟩
    | succ n => exact ⟨eof, by rw [← answer_at_shift, left, answerAt, stays, again]⟩
  refine ⟨⟨_, by rw [answerAt, stateAt, flag]⟩, message, forever, ?_, ?_⟩
  · intro settles
    exact (settled_answers _ settles).1 _ (by rw [flag]) 1 [] message
  · intro settles
    obtain ⟨n, ended⟩ := (settled_answers _ settles).2
    obtain ⟨e, error⟩ := forever n
    cases ended.symm.trans error

end ErrorTermination
