import PureGrpc.GrpcHandler
import PureGrpc.InterceptedMetadata
import PureGrpc.EncodeOrder

/-!
The task that sends the body of an HTTP/3 request. Whatever ends its loop, it then
finishes the send stream, so a body that fails is sent as one that is complete.
-/
namespace H3Sender
open LengthFraming GrpcMetadata GrpcStatus GrpcCompression GrpcCodec PolledMachines HttpBodies
open MessageEncoding EncodeOrder StreamingDecode StreamingScan InterceptedMetadata

/-- The send half of a request stream: each call is accepted or fails. -/
structure SendStream (τ : Type) where
  sendData : τ → Bytes → Bool × τ
  sendTrailers : τ → HeaderMap → Bool × τ
  finish : τ → Bool × τ

inductive Call where
  | data (bytes : Bytes)
  | trailers (map : HeaderMap)
  | finish
  deriving DecidableEq, Repr

structure Sent (τ : Type) where
  stream : τ
  calls : List (Call × Bool)

variable {β β' τ ε ε' : Type} (h3 : SendStream τ)

def Sent.sendData (self : Sent τ) (bytes : Bytes) : Bool × Sent τ :=
  let (accepted, stream) := h3.sendData self.stream bytes
  (accepted, ⟨stream, self.calls ++ [(.data bytes, accepted)]⟩)

def Sent.sendTrailers (self : Sent τ) (map : HeaderMap) : Bool × Sent τ :=
  let (accepted, stream) := h3.sendTrailers self.stream map
  (accepted, ⟨stream, self.calls ++ [(.trailers map, accepted)]⟩)

def Sent.finish (self : Sent τ) : Sent τ :=
  let (accepted, stream) := h3.finish self.stream
  ⟨stream, self.calls ++ [(.finish, accepted)]⟩

/-- One turn of the task. Behind each break stands the call of finish. -/
def senderTurn (poll : β → FramePoll ε × β) : β × Sent τ → Turn (Sent τ) (β × Sent τ)
  | (body, send) =>
    match poll body with
    | (.pending, body) => .again (body, send)
    | (.ready (some (.ok (.data bytes))), body) =>
      match send.sendData h3 bytes with
      | (true, send) => .again (body, send)
      | (false, send) => .done (send.finish h3) (body, send)
    | (.ready (some (.ok (.trailers map))), body) =>
      .done ((send.sendTrailers h3 map).2.finish h3) (body, send)
    | (.ready (some (.error _)), body) => .done (send.finish h3) (body, send)
    | (.ready none, body) => .done (send.finish h3) (body, send)

def Sends (poll : β → FramePoll ε × β) (body : β) (send last : Sent τ) : Prop :=
  ∃ rest, Returns (senderTurn h3 poll) (body, send) last rest

/-- A body that gives these data frames before its end, trailers or error. -/
inductive Gives (poll : β → FramePoll ε × β) : β → List Bytes → Tail ε → Prop where
  | eof {s t} (h : poll s = (.ready none, t)) : Gives poll s [] .eof
  | trailers {s t map} (h : poll s = (.ready (some (.ok (.trailers map))), t)) :
      Gives poll s [] (.trailers map)
  | error {s t e} (h : poll s = (.ready (some (.error e)), t)) : Gives poll s [] (.error e)
  | wait {s t frames tail} (h : poll s = (.pending, t)) (rest : Gives poll t frames tail) :
      Gives poll s frames tail
  | data {s t bytes frames tail} (h : poll s = (.ready (some (.ok (.data bytes))), t))
      (rest : Gives poll t frames tail) : Gives poll s (bytes :: frames) tail

/-- The send stream once the task is through with these frames and this end. -/
def sentBy (send : Sent τ) : List Bytes → Tail ε → Sent τ
  | [], .trailers map => (send.sendTrailers h3 map).2.finish h3
  | [], _ => send.finish h3
  | bytes :: frames, tail =>
    match send.sendData h3 bytes with
    | (true, send) => sentBy send frames tail
    | (false, send) => send.finish h3

variable {poll : β → FramePoll ε × β} {s : β} {frames : List Bytes} {tail : Tail ε}

theorem gives_sends (gives : Gives poll s frames tail) (send : Sent τ) :
    Sends h3 poll s send (sentBy h3 send frames tail) := by
  induction gives generalizing send with
  | eof h => exact ⟨_, .done (by simp only [senderTurn, h]; rfl)⟩
  | trailers h => exact ⟨_, .done (by simp only [senderTurn, h]; rfl)⟩
  | error h => exact ⟨_, .done (by simp only [senderTurn, h]; rfl)⟩
  | wait h _ ih =>
    obtain ⟨rest, later⟩ := ih send
    exact ⟨rest, .again (by simp only [senderTurn, h]) later⟩
  | @data s t bytes frames tail h _ ih =>
    rw [sentBy]
    cases answer : send.sendData h3 bytes with
    | mk accepted next =>
      cases accepted with
      | false => exact ⟨_, .done (by simp only [senderTurn, h, answer]; rfl)⟩
      | true =>
        obtain ⟨rest, later⟩ := ih next
        exact ⟨rest, .again (by simp only [senderTurn, h, answer]) later⟩

theorem sends_unique {send last other : Sent τ} (one : Sends h3 poll s send last)
    (two : Sends h3 poll s send other) : last = other := by
  obtain ⟨_, one⟩ := one
  obtain ⟨_, two⟩ := two
  exact (returns_unique _ one two).1

/-- The last call is finish, however the task came to it. -/
theorem sent_by_finishes (send : Sent τ) (frames : List Bytes) (tail : Tail ε) :
    ∃ before accepted, (sentBy h3 send frames tail).calls = before ++ [(.finish, accepted)] := by
  induction frames generalizing send with
  | nil => cases tail <;> exact ⟨_, _, rfl⟩
  | cons bytes frames ih =>
    rw [sentBy]
    split
    · exact ih _
    · exact ⟨_, _, rfl⟩

/-- Nothing in the calls tells a body that fails from one that ends. -/
theorem sent_by_error (send : Sent τ) (frames : List Bytes) (e : ε) :
    sentBy h3 send frames (.error e) = sentBy h3 send frames (.eof : Tail ε') := by
  induction frames generalizing send with
  | nil => rfl
  | cons bytes frames ih =>
    simp only [sentBy]
    split
    · exact ih _
    · rfl

def TakesFinish : Prop := ∀ t, (h3.finish t).1 = true

theorem sent_by_taken (takes : TakesFinish h3) (send : Sent τ) (frames : List Bytes)
    (tail : Tail ε) : (.finish, true) ∈ (sentBy h3 send frames tail).calls := by
  have finished (send : Sent τ) : (.finish, true) ∈ (send.finish h3).calls := by
    have taken := takes send.stream
    unfold Sent.finish
    rw [← taken]
    exact List.mem_append_right _ List.mem_cons_self
  induction frames generalizing send with
  | nil => cases tail <;> exact finished _
  | cons bytes frames ih =>
    rw [sentBy]
    split
    · exact ih _
    · exact finished _

def LeavesOpen (poll : β → FramePoll ε × β) (body : β) (stream : τ) : Prop :=
  ∀ last, Sends h3 poll body ⟨stream, []⟩ last → (.finish, true) ∉ last.calls

theorem given_finishes (takes : TakesFinish h3) (gives : Gives poll s frames tail) (stream : τ) :
    ¬ LeavesOpen h3 poll s stream := by
  intro leaves
  exact leaves _ (gives_sends h3 gives ⟨stream, []⟩)
    (sent_by_taken h3 takes ⟨stream, []⟩ frames tail)

/-- A request body that fails is finished all the same: finish is the last call, a stream that
takes it is finished, and the calls are those for a body of the same frames that just ends. -/
theorem failed_body_finished {e : ε} (gives : Gives poll s frames (.error e)) (stream : τ) :
    (TakesFinish h3 → ¬ LeavesOpen h3 poll s stream) ∧
      ∃ last, Sends h3 poll s ⟨stream, []⟩ last ∧
        (∃ before accepted, last.calls = before ++ [(.finish, accepted)]) ∧
        ∀ {β' ε' : Type} (poll' : β' → FramePoll ε' × β') (s' : β'), Gives poll' s' frames .eof →
          Sends h3 poll' s' ⟨stream, []⟩ last := by
  refine ⟨fun takes => given_finishes h3 takes gives stream, _,
    gives_sends h3 gives ⟨stream, []⟩, sent_by_finishes h3 ⟨stream, []⟩ frames _, ?_⟩
  intro β' ε' poll' s' complete
  have same : sentBy h3 ⟨stream, []⟩ frames (.error e) =
      sentBy h3 ⟨stream, []⟩ frames (.eof : Tail ε') := sent_by_error h3 ⟨stream, []⟩ frames e
  rw [same]
  exact gives_sends h3 complete ⟨stream, []⟩

section Client
variable {σ T : Type} (enc : Encoder σ T) (z : Compressors)

theorem client_gives {inner last : EncodedBytes σ T} {chunks : List Bytes} {o : Option Status}
    {state : EncodeState} (client : state.role = .client)
    (run : Reads (EncodedBytes.pollNext enc z) inner chunks o last) :
    Gives (EncodeBody.pollFrame enc z) ⟨inner, state⟩ chunks (o.elim .eof .error) := by
  induction run with
  | @stop s t h =>
    exact .eof (t := ⟨t, state⟩) (by simp [EncodeBody.pollFrame, h, EncodeState.trailers, client])
  | @fail s t e h => exact .error (t := ⟨t, state⟩) (by simp [EncodeBody.pollFrame, h, client])
  | @wait s t _ _ _ h _ ih => exact .wait (t := ⟨t, state⟩) (by simp [EncodeBody.pollFrame, h]) ih
  | @item s t _ _ _ _ h _ ih =>
    exact .data (t := ⟨t, state⟩) (by simp [EncodeBody.pollFrame, h]) ih

end Client

section Peer

/-- The data the stream took, and whether it was finished behind it; a stream that is not
finished breaks off. -/
def arrived (broken : Status) (calls : List (Call × Bool)) : Body Status :=
  ⟨calls.filterMap fun call =>
      match call with
      | (.data bytes, true) => some (.data bytes)
      | _ => none,
    if (.finish, true) ∈ calls then .eof else .error broken⟩

def healthy : SendStream Unit := ⟨fun _ _ => (true, ()), fun _ _ => (true, ()), fun _ => (true, ())⟩

def echoEncoder : Encoder Unit Bytes := plainEncoder (fun m => m) .default

/-- A client stream of one message, whose source then fails. -/
def failingSource : List (SourceEvent Bytes) :=
  [.item (.ok [1]), .item (.error (.cancelled "gone"))]

def failingBody : EncodeBody Unit Bytes := .newClient () failingSource none none

def oneFrame : Bytes := [0, 0, 0, 0, 1, 1]

theorem failing_gives : Gives (EncodeBody.pollFrame echoEncoder plainCompressors) failingBody
    [oneFrame] (.error (.cancelled "gone")) :=
  .data rfl (.error rfl)

theorem healthy_takes : TakesFinish healthy := fun _ => rfl

theorem failed_body_finished_one :
    ¬ LeavesOpen healthy (EncodeBody.pollFrame echoEncoder plainCompressors) failingBody () ∧
      ∃ last, Sends healthy (EncodeBody.pollFrame echoEncoder plainCompressors) failingBody
          ⟨(), []⟩ last ∧
        ∀ {β' ε' : Type} (poll' : β' → FramePoll ε' × β') (s' : β'),
          Gives poll' s' [oneFrame] .eof → Sends healthy poll' s' ⟨(), []⟩ last := by
  obtain ⟨finished, last, sends, _, same⟩ := failed_body_finished healthy failing_gives ()
  exact ⟨finished healthy_takes, last, sends, same⟩

/-- The server reads the one message and then a clean end of the stream. -/
theorem failed_stream_looks_complete :
    Gives (EncodeBody.pollFrame echoEncoder plainCompressors) failingBody [oneFrame]
        (.error (.cancelled "gone")) ∧
      ¬ LeavesOpen healthy (EncodeBody.pollFrame echoEncoder plainCompressors) failingBody () ∧
    ∃ last, Sends healthy (EncodeBody.pollFrame echoEncoder plainCompressors) failingBody
        ⟨(), []⟩ last ∧
      (.finish, true) ∈ last.calls ∧
      ∃ t, Reads (Streaming.pollNext echoDecoder plainCompressors)
        (.newRequest () (arrived (.cancelled "reset") last.calls) none none) [[1]] none t := by
  refine ⟨failing_gives, given_finishes healthy healthy_takes failing_gives (), _,
    gives_sends healthy failing_gives ⟨(), []⟩, by decide, ?_⟩
  have header : LengthFraming.readHeader oneFrame = some (0, 1, [1]) := by decide
  have front : scanFrame echoDecoder plainCompressors none none () oneFrame =
      .message [1] () [] := by
    simp only [scanFrame, header]
    rfl
  have scanned : Scanned echoDecoder plainCompressors none none () oneFrame [[1]] (.short []) :=
    .message front (.short rfl)
  obtain ⟨t, reads, _⟩ := new_reads echoDecoder plainCompressors none none ()
    ⟨[.data oneFrame], .eof⟩ .request scanned
  exact ⟨t, reads⟩

end Peer

end H3Sender
