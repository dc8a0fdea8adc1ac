import PureGrpc.EncodeOrder

/-!
The frames of a response body over all polls, those after its trailers included.
A body whose source ends gives data, its trailers once, and then only the end.
An error gives trailers at once and leaves the source as it is: what it still
holds comes out behind them.
-/
namespace ServerBodyShape
open KeyedMultimap LengthFraming GrpcMetadata GrpcStatus GrpcCompression GrpcCodec PolledMachines
open HttpBodies MessageEncoding EncodeOrder

section Shapes
variable {β ε : Type} (poll : β → FramePoll ε × β)

/-- Data frames and Pending, then trailers with a status, then the end at every later poll. -/
def Shaped (s : β) : Prop :=
  ∃ k, (∀ n < k, answerAt poll s n = .pending ∨
      ∃ bytes, answerAt poll s n = .ready (some (.ok (.data bytes)))) ∧
    (∃ map, answerAt poll s k = .ready (some (.ok (.trailers map))) ∧ getAll map grpcStatus ≠ []) ∧
    ∀ n, k < n → answerAt poll s n = .ready none

def Continues : FramePoll ε × β → Prop
  | (.pending, next) => Shaped poll next
  | (.ready (some (.ok (.data _))), next) => Shaped poll next
  | (.ready (some (.ok (.trailers map))), next) =>
    getAll map grpcStatus ≠ [] ∧ ∀ n, answerAt poll next n = .ready none
  | (.ready (some (.error _)), _) => False
  | (.ready none, _) => False

theorem shaped_later {s : β}
    (first : (poll s).1 = .pending ∨ ∃ bytes, (poll s).1 = .ready (some (.ok (.data bytes)))) :
    Shaped poll s ↔ Shaped poll (poll s).2 := by
  constructor
  · intro shape
    obtain ⟨k, front, ⟨map, trailers, status⟩, rest⟩ := shape
    cases k with
    | zero =>
      rcases first with pending | ⟨bytes, data⟩
      · cases pending.symm.trans trailers
      · cases data.symm.trans trailers
    | succ k =>
      refine ⟨k, ?_, ⟨map, ?_, status⟩, ?_⟩
      · intro n before
        rw [answer_at_shift]
        exact front (n + 1) (by omega)
      · rw [answer_at_shift]
        exact trailers
      · intro n behind
        rw [answer_at_shift]
        exact rest (n + 1) (by omega)
  · intro shape
    obtain ⟨k, front, ⟨map, trailers, status⟩, rest⟩ := shape
    refine ⟨k + 1, ?_, ⟨map, ?_, status⟩, ?_⟩
    · intro n before
      cases n with
      | zero => exact first
      | succ n =>
        rw [← answer_at_shift]
        exact front n (by omega)
    · rw [← answer_at_shift]
      exact trailers
    · intro n behind
      obtain ⟨n, rfl⟩ := Nat.exists_eq_add_of_le' (by omega : 1 ≤ n)
      rw [← answer_at_shift]
      exact rest n (by omega)

theorem shaped_closing {s : β} {map : HeaderMap}
    (first : (poll s).1 = .ready (some (.ok (.trailers map)))) :
    Shaped poll s ↔ getAll map grpcStatus ≠ [] ∧ ∀ n, answerAt poll (poll s).2 n = .ready none := by
  constructor
  · intro shape
    obtain ⟨k, front, ⟨other, trailers, status⟩, rest⟩ := shape
    cases k with
    | zero =>
      cases first.symm.trans trailers
      refine ⟨status, ?_⟩
      intro n
      rw [answer_at_shift]
      exact rest (n + 1) (by omega)
    | succ k =>
      rcases front 0 (by omega) with pending | ⟨bytes, data⟩
      · cases first.symm.trans pending
      · cases first.symm.trans data
  · intro shape
    obtain ⟨status, quiet⟩ := shape
    refine ⟨0, by omega, ⟨map, first, status⟩, ?_⟩
    intro n behind
    obtain ⟨n, rfl⟩ := Nat.exists_eq_add_of_le' (by omega : 1 ≤ n)
    rw [← answer_at_shift]
    exact quiet n

theorem shaped_first {s : β} (shaped : Shaped poll s) :
    (poll s).1 ≠ .ready none ∧ ∀ e, (poll s).1 ≠ .ready (some (.error e)) := by
  obtain ⟨k, front, ⟨map, trailers, _⟩, _⟩ := shaped
  have first : (poll s).1 = .pending ∨ ∃ frame, (poll s).1 = .ready (some (.ok frame)) := by
    cases k with
    | zero => exact .inr ⟨_, trailers⟩
    | succ k =>
      rcases front 0 (by omega) with pending | ⟨bytes, data⟩
      · exact .inl pending
      · exact .inr ⟨_, data⟩
  rcases first with pending | ⟨frame, ready⟩
  · simp [pending]
  · simp [ready]

theorem shaped_iff_continues (s : β) : Shaped poll s ↔ Continues poll (poll s) := by
  have later := shaped_later poll (s := s)
  have closing {map : HeaderMap} (trailers : (poll s).1 = .ready (some (.ok (.trailers map)))) :=
    shaped_closing poll trailers
  have first := shaped_first poll (s := s)
  generalize poll s = polled at later closing first ⊢
  obtain ⟨answer, next⟩ := polled
  rcases answer with _ | _ | e | frame
  · exact later (.inl rfl)
  · constructor
    · intro shaped
      exact absurd rfl (first shaped).1
    · intro wrong
      cases wrong
  · constructor
    · intro shaped
      exact absurd rfl ((first shaped).2 e)
    · intro wrong
      cases wrong
  · cases frame with
    | data bytes => exact later (.inr ⟨bytes, rfl⟩)
    | trailers map => exact closing rfl

end Shapes

variable {σ T : Type} (enc : Encoder σ T) (z : Compressors)
  (compressionEncoding : Option CompressionEncoding) (maxMessageSize : Option Nat)

/-- The first error is the last thing the source has to say: an Err of its own, or a
    message that cannot be encoded and finds nothing buffered. -/
def ErrsLast (yieldThreshold : Nat) : List (SourceEvent T) → σ → Nat → Prop
  | [], _, _ => True
  | .pending :: rest, encoder, _ =>
    ErrsLast (enc.bufferSettings encoder).yieldThreshold rest encoder 0
  | .item (.ok item) :: rest, encoder, buffered =>
    let next := (enc.encode encoder item).next
    match frameOf enc z compressionEncoding maxMessageSize encoder item with
    | .error _ => buffered = 0 ∧ rest = []
    | .ok frame =>
      if yieldThreshold ≤ buffered + frame.write.length then
        ErrsLast (enc.bufferSettings next).yieldThreshold rest next 0
      else ErrsLast yieldThreshold rest next (buffered + frame.write.length)
  | .item (.error _) :: rest, _, _ => rest = []

def frameFor (state : EncodeState) :
    Poll (Option (Except Status Bytes)) × EncodedBytes σ T → FramePoll Status × EncodeBody σ T
  | (.pending, inner) => (.pending, ⟨inner, state⟩)
  | (.ready (some (.ok data)), inner) => (.ready (some (.ok (.data data))), ⟨inner, state⟩)
  | (.ready (some (.error status)), inner) =>
    (.ready (some (.ok (.trailers (trailersOrDefault status)))), ⟨inner, { state with isEndStream := true }⟩)
  | (.ready none, inner) => (.ready (state.trailers.1.map (·.map .trailers)), ⟨inner, state.trailers.2⟩)

theorem poll_frame_server (inner : EncodedBytes σ T) (state : EncodeState)
    (server : state.role = .server) :
    EncodeBody.pollFrame enc z ⟨inner, state⟩ = frameFor state (inner.pollNext enc z) := by
  unfold EncodeBody.pollFrame
  dsimp only
  generalize inner.pollNext enc z = polled
  obtain ⟨answer, next⟩ := polled
  rcases answer with _ | _ | status | data
  · rfl
  · rfl
  · simp only [server, frameFor]
  · rfl

theorem trailers_status (status : Status) : getAll (trailersOrDefault status) grpcStatus ≠ [] := by
  obtain ⟨map, written, values⟩ := to_header_map_written status
  simp only [trailersOrDefault, written, values.code]
  simp

theorem poll_source_none (yieldThreshold : Nat) (events : List (SourceEvent T))
    (self : EncodedBytes σ T)
    (nothing : (self.pollSource enc z yieldThreshold events).1 = .ready none) :
    events = [] ∧ self.buf = [] := by
  have run := polled enc z yieldThreshold events self
  generalize self.pollSource enc z yieldThreshold events = result at run nothing
  induction run with
  | ends empty => exact ⟨rfl, empty⟩
  | buffers framed later ih =>
    have empty := (ih nothing).2
    simp [Framed.write] at empty
  | _ => cases nothing

/-- Behind the trailers there is only the end exactly if the source has ended and
    nothing is buffered. -/
theorem quiet_iff (source : List (SourceEvent T)) (encoder : σ) (buf : Bytes)
    (state : EncodeState) (server : state.role = .server) (ended : state.isEndStream = true) :
    (∀ n, answerAt (EncodeBody.pollFrame enc z)
      ⟨⟨source, encoder, compressionEncoding, maxMessageSize, buf, none⟩, state⟩ n = .ready none) ↔
      source = [] ∧ buf = [] := by
  have nothing : state.trailers = (none, state) := by
    simp [EncodeState.trailers, server, ended]
  constructor
  · intro quiet
    have first := quiet 0
    rw [answerAt, stateAt, poll_frame_server enc z _ _ server] at first
    have none_left : (EncodedBytes.pollNext enc z
        ⟨source, encoder, compressionEncoding, maxMessageSize, buf, none⟩).1 = .ready none := by
      generalize EncodedBytes.pollNext enc z _ = polled at first ⊢
      obtain ⟨answer, next⟩ := polled
      rcases answer with _ | _ | status | data
      · cases first
      · rfl
      · cases first
      · cases first
    exact poll_source_none enc z _ _ _ none_left
  · intro shape
    obtain ⟨rfl, rfl⟩ := shape
    intro n
    refine (end_stays _ ?_ n).2
    rw [poll_frame_server enc z _ _ server]
    simp only [EncodedBytes.pollNext, EncodedBytes.pollSource, if_true, frameFor, nothing,
      Option.map_none]

theorem poll_source_shaped (events source : List (SourceEvent T)) (yieldThreshold : Nat)
    (encoder : σ) (buf : Bytes) :
    Continues (EncodeBody.pollFrame enc z) (frameFor ⟨none, .server, false⟩
      ((EncodedBytes.mk source encoder compressionEncoding maxMessageSize buf none).pollSource enc z
        yieldThreshold events)) ↔
      ErrsLast enc z compressionEncoding maxMessageSize yieldThreshold events encoder buf.length := by
  -- the shape from the state a poll leaves, the events of this poll being used up
  have shaped (source : List (SourceEvent T)) (encoder : σ) (buf : Bytes) :
      Shaped (EncodeBody.pollFrame enc z)
          ⟨⟨source, encoder, compressionEncoding, maxMessageSize, buf, none⟩, ⟨none, .server, false⟩⟩ ↔
        Continues (EncodeBody.pollFrame enc z) (frameFor ⟨none, .server, false⟩
          ((EncodedBytes.mk source encoder compressionEncoding maxMessageSize buf none).pollSource
            enc z (enc.bufferSettings encoder).yieldThreshold source)) := by
    rw [shaped_iff_continues, poll_frame_server enc z _ _ rfl]
    rfl
  have failing (status : Status) (source : List (SourceEvent T)) (encoder : σ) (buf : Bytes) :
      Continues (EncodeBody.pollFrame enc z) (frameFor ⟨none, .server, false⟩
        (.ready (some (.error status)),
          ⟨source, encoder, compressionEncoding, maxMessageSize, buf, none⟩)) ↔
        source = [] ∧ buf = [] := by
    simp only [frameFor, Continues, trailers_status, ne_eq, not_false_eq_true, true_and]
    exact quiet_iff enc z compressionEncoding maxMessageSize source encoder buf _ rfl rfl
  induction events generalizing source yieldThreshold encoder buf with
  | nil =>
    have finished (encoder : σ) : Continues (EncodeBody.pollFrame enc z)
        (frameFor ⟨none, .server, false⟩
          (.ready none, ⟨[], encoder, compressionEncoding, maxMessageSize, [], none⟩)) := by
      obtain ⟨map, written, values⟩ := to_header_map_written (Status.ok "")
      simp only [frameFor, EncodeState.trailers, Bool.false_eq_true, if_false, Option.getD_none,
        written, Except.map, Option.map_some, Continues]
      refine ⟨by simp [values.code], ?_⟩
      exact (quiet_iff enc z compressionEncoding maxMessageSize [] encoder [] _ rfl rfl).mpr ⟨rfl, rfl⟩
    simp only [EncodedBytes.pollSource, ErrsLast, iff_true]
    split
    · rename_i empty
      subst empty
      exact finished encoder
    · exact (shaped [] encoder []).mpr (finished encoder)
  | cons event rest ih =>
    have later (encoder : σ) (buf : Bytes) := (shaped rest encoder buf).trans
      (ih rest (enc.bufferSettings encoder).yieldThreshold encoder buf)
    cases event with
    | pending =>
      simp only [EncodedBytes.pollSource, ErrsLast]
      split
      · rename_i empty
        subst empty
        exact later encoder []
      · exact later encoder []
    | item result =>
      cases result with
      | error status =>
        simp only [EncodedBytes.pollSource, ErrsLast]
        split
        · rename_i empty
          subst empty
          exact (failing status rest encoder []).trans (by simp)
        · -- the buffer is flushed first, and the error comes with the next poll
          have next : Shaped (EncodeBody.pollFrame enc z)
              ⟨⟨rest, encoder, compressionEncoding, maxMessageSize, [], some status⟩,
                ⟨none, .server, false⟩⟩ ↔ rest = [] ∧ ([] : Bytes) = [] := by
            rw [shaped_iff_continues, poll_frame_server enc z _ _ rfl]
            exact failing status rest encoder []
          exact next.trans (by simp)
      | ok item =>
        simp only [EncodedBytes.pollSource, ErrsLast, encode_item_spec]
        cases frameOf enc z compressionEncoding maxMessageSize encoder item with
        | error status =>
          have last := failing status rest (enc.encode encoder item).next buf
          rw [and_comm, ← List.length_eq_zero_iff] at last
          exact last
        | ok frame =>
          have size : buf.length + frame.write.length = (buf ++ frame.write).length := by simp
          simp only [size]
          split
          · exact later (enc.encode encoder item).next []
          · exact ih source yieldThreshold (enc.encode encoder item).next (buf ++ frame.write)

theorem shaped_end_stream {s : EncodeBody σ T} (start : s.isEndStream = false)
    (shaped : Shaped (EncodeBody.pollFrame enc z) s) (n : Nat)
    (ended : (stateAt (EncodeBody.pollFrame enc z) s n).isEndStream = true) :
    answerAt (EncodeBody.pollFrame enc z) s n = .ready none := by
  obtain ⟨k, front, _, rest⟩ := shaped
  have same (s : EncodeBody σ T) (good : (s.pollFrame enc z).1 = .pending ∨
      ∃ bytes, (s.pollFrame enc z).1 = .ready (some (.ok (.data bytes)))) :
      (s.pollFrame enc z).2.state = s.state := by
    unfold EncodeBody.pollFrame at good ⊢
    generalize s.inner.pollNext enc z = polled at good ⊢
    obtain ⟨answer, next⟩ := polled
    rcases answer with _ | _ | status | data
    · rfl
    · -- the end of the source gives trailers or nothing
      generalize s.state.trailers = out at good ⊢
      obtain ⟨trailers, state⟩ := out
      rcases trailers with _ | e | map <;> simp [Except.map] at good
    · cases role : s.state.role
      · simp [role] at good
      · simp [role] at good
    · rfl
  have live : ∀ n ≤ k, (stateAt (EncodeBody.pollFrame enc z) s n).isEndStream = false := by
    intro n before
    induction n with
    | zero => exact start
    | succ n ih =>
      have kept := same _ (front n (by omega))
      rw [stateAt, EncodeBody.isEndStream, kept]
      exact ih (by omega)
  apply rest
  by_contra early
  rw [live n (by omega)] at ended
  cases ended

/-- A response body is data, one trailers frame with a status, and then only its end,
    and ends once it says so, exactly if its first error is the last of the source. -/
theorem server_body_shaped_iff (encoder : σ) (events : List (SourceEvent T)) :
    (Shaped (EncodeBody.pollFrame enc z)
        (.newServer encoder events compressionEncoding maxMessageSize) ∧
      ∀ n, (stateAt (EncodeBody.pollFrame enc z)
          (.newServer encoder events compressionEncoding maxMessageSize) n).isEndStream = true →
        answerAt (EncodeBody.pollFrame enc z)
          (.newServer encoder events compressionEncoding maxMessageSize) n = .ready none) ↔
      ErrsLast enc z compressionEncoding maxMessageSize (enc.bufferSettings encoder).yieldThreshold
        events encoder 0 := by
  have shape := poll_source_shaped enc z compressionEncoding maxMessageSize events events
    (enc.bufferSettings encoder).yieldThreshold encoder []
  have start : Shaped (EncodeBody.pollFrame enc z)
        (.newServer encoder events compressionEncoding maxMessageSize) ↔
      ErrsLast enc z compressionEncoding maxMessageSize (enc.bufferSettings encoder).yieldThreshold
        events encoder 0 := by
    rw [shaped_iff_continues, EncodeBody.newServer, poll_frame_server enc z _ _ rfl]
    exact shape
  constructor
  · intro whole
    exact start.mp whole.1
  · intro last
    have shaped := start.mpr last
    exact ⟨shaped, shaped_end_stream enc z rfl shaped⟩

def resumed : EncodeBody Unit Bytes :=
  .newServer () [.item (.error (.internal "first")), .item (.ok [7]), .item (.error (.internal "second"))]
    none (some 8)

def pollResumed : EncodeBody Unit Bytes → FramePoll Status × EncodeBody Unit Bytes :=
  EncodeBody.pollFrame (plainEncoder (fun m : Bytes => m) .default)
    ⟨fun _ plain => .ok plain, fun _ packed => .ok packed⟩

/-- A data frame and a second trailers frame come behind the first, while the body
    says that it is at its end. -/
theorem data_behind_trailers :
    (∃ map, answerAt pollResumed resumed 0 = .ready (some (.ok (.trailers map)))) ∧
      (stateAt pollResumed resumed 1).isEndStream = true ∧
      answerAt pollResumed resumed 1 = .ready (some (.ok (.data [0, 0, 0, 0, 1, 7]))) ∧
      (∃ map, answerAt pollResumed resumed 2 = .ready (some (.ok (.trailers map)))) ∧
      ¬ Shaped pollResumed resumed := by
  have data : answerAt pollResumed resumed 1 = .ready (some (.ok (.data [0, 0, 0, 0, 1, 7]))) := rfl
  refine ⟨⟨_, rfl⟩, rfl, data, ⟨_, rfl⟩, ?_⟩
  intro shaped
  have first : (pollResumed resumed).1 =
      .ready (some (.ok (.trailers (trailersOrDefault (.internal "first"))))) := rfl
  have quiet := ((shaped_closing pollResumed first).mp shaped).2 0
  rw [answer_at_shift, data] at quiet
  cases quiet

end ServerBodyShape
