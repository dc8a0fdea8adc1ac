import PureGrpc.AwaitedMessages
import PureGrpc.BoundedChannels
import PureGrpc.ReflectionIndex
import PureGrpc.StreamingScan

/-!
The stream of reflection responses. A spawned task reads requests and sends responses through
a channel; its loop goes on while there is a request and ends on everything else, so that the
end of the requests and an error look the same from the other side of the channel.
-/
namespace ReflectionStream
open LengthFraming GrpcStatus GrpcCompression GrpcCodec PolledMachines HttpBodies StreamingDecode
open StreamingScan AwaitedMessages TransitionRuns BoundedChannels ReflectionIndex

variable {δ : Type} (dec : Decoder δ ServerReflectionRequest) (z : Compressors)
  (state : ReflectionState)

def transpose {T : Type} : Except Status (Option T) → Option (Except Status T)
  | .ok (some message) => some (.ok message)
  | .ok none => none
  | .error e => some (.error e)

def channelCapacity : Nat := 32

/-- What the task sends next; without it the task's loop ends. -/
def respond (input : Streaming δ) :
    Option (Except Status ServerReflectionResponse × Streaming δ) :=
  match Streaming.message dec z input with
  | (answer, input) =>
    match transpose answer with
    | some (.ok req) => some (.ok (handleReflectionRequest state req), input)
    | _ => none

def answers (requests : List ServerReflectionRequest) (ending : Option Status) :
    List (Except Status ServerReflectionResponse) :=
  requests.map (fun req => .ok (handleReflectionRequest state req)) ++
    ending.toList.map .error

/-- Every stream of requests has an end or an error. -/
theorem stream_reads (input : Streaming δ) :
    ∃ requests ending last, Reads (Streaming.pollNext dec z) input requests ending last := by
  induction h : unspent input.inner + input.inner.body.chunks.length using Nat.strongRecOn
    generalizing input with
  | ind n ih =>
    have spends := poll_spends dec z input
    cases poll : input.pollNext dec z with
    | mk answer more =>
      rw [poll] at spends
      have bytes := spends.bytes
      have chunks := spends.chunks
      cases answer with
      | pending =>
        have fewer := spends.pending rfl
        obtain ⟨requests, ending, last, reads⟩ := ih _ (by dsimp only at *; omega) more rfl
        exact ⟨requests, ending, last, .wait poll reads⟩
      | ready item =>
        match item with
        | none => exact ⟨[], none, more, .stop poll⟩
        | some (.error e) => exact ⟨[], some e, more, .fail poll⟩
        | some (.ok req) =>
          have less := spends.message req rfl
          obtain ⟨requests, ending, last, reads⟩ := ih _ (by dsimp only at *; omega) more rfl
          exact ⟨req :: requests, ending, last, .item poll reads⟩

section Responses
variable {dec z state} {input last : Streaming δ} {requests : List ServerReflectionRequest}
  {ending : Option Status}

theorem respond_makes (reads : Reads (Streaming.pollNext dec z) input requests ending last) :
    Makes (respond dec z state) input (answers state requests none) := by
  induction requests generalizing input with
  | nil =>
    have message := message_reads dec z reads
    cases ending with
    | none =>
      simp only [Awaited] at message
      exact .nothing (by simp only [respond, message, transpose])
    | some e =>
      simp only [Awaited] at message
      exact .nothing (by simp only [respond, message, transpose])
  | cons req requests ih =>
    obtain ⟨more, message, rest⟩ := message_reads dec z reads
    exact .item (by simp only [respond, message, transpose]) (ih rest)

theorem responses_delivered
    (reads : Reads (Streaming.pollNext dec z) input requests ending last) :
    Delivers (respond dec z state) channelCapacity input (answers state requests none) :=
  makes_delivers (by decide) (respond_makes reads)

/-- A clean end is all that a client gets to see of a broken stream of requests. -/
theorem broken_stream_hidden
    (reads : Reads (Streaming.pollNext dec z) input requests ending last) {events : List Event}
    {w : Pipe (Streaming δ) (Except Status ServerReflectionResponse)}
    (run : Run (Step (respond dec z state) channelCapacity) (.start input) events w)
    {e : Status} : .error e ∉ w.shown := by
  intro mem
  have shown := ((responses_delivered reads).shown events w run).subset mem
  simp [answers] at shown

end Responses

/-- The requests are answered one by one, and then their end as an end and their error as an
    error, exactly if they do end without an error. -/
theorem reflection_answered_iff (input : Streaming δ) (requests : List ServerReflectionRequest)
    (ending : Option Status) (last : Streaming δ)
    (reads : Reads (Streaming.pollNext dec z) input requests ending last) :
    Delivers (respond dec z state) channelCapacity input (answers state requests ending) ↔
      ending = none := by
  constructor
  · intro delivers
    have same := delivers_unique delivers (responses_delivered reads)
    have none_left := List.append_cancel_left same
    cases ending with
    | none => rfl
    | some e => cases none_left
  · intro ended
    subst ended
    exact responses_delivered reads

section TwoRequests

def listRequest : ServerReflectionRequest := ⟨"", some (.listServices "")⟩

def symbolRequest : ServerReflectionRequest := ⟨"", some (.fileContainingSymbol "a")⟩

/-- Prost as far as these two requests go. -/
def requestDecoder : Decoder Unit ServerReflectionRequest :=
  plainDecoder fun bytes =>
    if bytes = [58, 0] then .ok listRequest
    else if bytes = [34, 1, 97] then .ok symbolRequest
    else .error (.internal "another request")

def identity : Compressors := ⟨fun _ plain => .ok plain, fun _ packed => .ok packed⟩

def twoRequests (tail : Tail Status) : Streaming Unit :=
  .newRequest () ⟨[.data [0, 0, 0, 0, 2, 58, 0], .pending, .data [0, 0, 0, 0, 3, 34, 1, 97]], tail⟩
    none none

theorem two_requests_read (tail : Tail Status) :
    ∃ last, Reads (Streaming.pollNext requestDecoder identity) (twoRequests tail)
      [listRequest, symbolRequest] (ending .request tail []) last := by
  have within (len : Nat) (small : len ≤ 3) : lengthWithin none len = .ok () :=
    length_within_ok (Nat.le_trans small (by decide))
  have first : LengthFraming.readHeader [0, 0, 0, 0, 2, 58, 0, 0, 0, 0, 0, 3, 34, 1, 97] =
      some (0, 2, [58, 0, 0, 0, 0, 0, 3, 34, 1, 97]) := by decide
  have second : LengthFraming.readHeader [0, 0, 0, 0, 3, 34, 1, 97] = some (0, 3, [34, 1, 97]) := by
    decide
  have list : scanFrame requestDecoder identity none none ()
      [0, 0, 0, 0, 2, 58, 0, 0, 0, 0, 0, 3, 34, 1, 97] =
        .message listRequest () [0, 0, 0, 0, 3, 34, 1, 97] := by
    simp only [scanFrame, first, compressionOf, within 2 (by decide)]
    rfl
  have symbol : scanFrame requestDecoder identity none none () [0, 0, 0, 0, 3, 34, 1, 97] =
      .message symbolRequest () [] := by
    simp only [scanFrame, second, compressionOf, within 3 (by decide)]
    rfl
  have scanned : Scanned requestDecoder identity none none ()
      (twoRequests tail).inner.body.data [listRequest, symbolRequest] (.short []) :=
    .message list (.message symbol (.short rfl))
  obtain ⟨last, reads, _⟩ := new_reads requestDecoder identity none none () _ .request scanned
  exact ⟨last, reads⟩

theorem two_requests_answered :
    Delivers (respond requestDecoder identity ⟨[reflectionName], [], []⟩) channelCapacity
      (twoRequests .eof)
      [.ok ⟨"", some listRequest, some (.listServicesResponse [⟨reflectionName⟩])⟩,
        .ok ⟨"", some symbolRequest, some (.errorResponse 5 "symbol not found: a")⟩] := by
  obtain ⟨last, reads⟩ := two_requests_read .eof
  exact (reflection_answered_iff requestDecoder identity ⟨[reflectionName], [], []⟩ _ _ _ last
    reads).mpr rfl

end TwoRequests

/-- After its requests the connection breaks: the client gets the responses and a clean end. -/
theorem broken_request_stream_completes :
    ∃ requests e last, Reads (Streaming.pollNext requestDecoder identity)
        (twoRequests (.error (.internal "connection reset"))) requests (some e) last ∧
      ¬ Delivers (respond requestDecoder identity ⟨[reflectionName], [], []⟩) channelCapacity
        (twoRequests (.error (.internal "connection reset")))
        (answers ⟨[reflectionName], [], []⟩ requests (some e)) ∧
      Delivers (respond requestDecoder identity ⟨[reflectionName], [], []⟩) channelCapacity
        (twoRequests (.error (.internal "connection reset")))
        (answers ⟨[reflectionName], [], []⟩ requests none) := by
  obtain ⟨last, reads⟩ := two_requests_read (.error (.internal "connection reset"))
  have delivered : Delivers (respond requestDecoder identity ⟨[reflectionName], [], []⟩)
      channelCapacity (twoRequests (.error (.internal "connection reset"))) _ :=
    responses_delivered reads
  refine ⟨_, _, last, reads, ?_, delivered⟩
  intro hidden
  have same := delivers_unique hidden delivered
  cases List.append_cancel_left same

end ReflectionStream
