import PureGrpc.H3Sender
import PureGrpc.ServerBodyShape

/-!
The two ends of an HTTP/3 stream behind the request's sender: the bodies that are read off
a receive half, and the task that sends a response. That task goes on behind a trailers
frame, up to the end of the body or its error, and sends the last trailers it has seen.
-/
namespace H3Streams
open LengthFraming GrpcMetadata GrpcStatus GrpcCompression GrpcCodec PolledMachines HttpBodies
open MessageEncoding EncodeOrder ServerBodyShape H3Sender

/-- The receive half of a stream: data until there is no more, then the trailers. Errors are
    what they display. -/
structure RecvStream (ρ : Type) where
  pollRecvData : ρ → Poll (Except String (Option Bytes)) × ρ
  pollRecvTrailers : ρ → Poll (Except String (Option HeaderMap)) × ρ

/-- A body over a receive half, on the server or on the client. -/
structure RecvBody (ρ : Type) where
  recv : ρ
  dataDone : Bool
  trailersDone : Bool

structure ErrorTexts where
  recv : String
  trailers : String

section Receiving
variable {ρ : Type} (texts : ErrorTexts) (h3 : RecvStream ρ)

def RecvBody.new (recv : ρ) : RecvBody ρ := ⟨recv, false, false⟩

/-- The end of the data is answered with Pending; the waker has been called then. -/
def RecvBody.pollData (self : RecvBody ρ) : FramePoll Status × RecvBody ρ :=
  match h3.pollRecvData self.recv with
  | (.ready (.ok (some data)), recv) => (.ready (some (.ok (.data data))), { self with recv })
  | (.ready (.ok none), recv) => (.pending, { self with recv, dataDone := true })
  | (.ready (.error err), recv) =>
    (.ready (some (.error (.internal (texts.recv ++ err)))), { self with recv })
  | (.pending, recv) => (.pending, { self with recv })

def RecvBody.pollTrailers (self : RecvBody ρ) : FramePoll Status × RecvBody ρ :=
  match h3.pollRecvTrailers self.recv with
  | (.ready (.ok (some trailers)), recv) =>
    (.ready (some (.ok (.trailers trailers))), { self with recv, trailersDone := true })
  | (.ready (.ok none), recv) => (.ready none, { self with recv, trailersDone := true })
  | (.ready (.error err), recv) =>
    (.ready (some (.error (.internal (texts.trailers ++ err)))),
      { self with recv, trailersDone := true })
  | (.pending, recv) => (.pending, { self with recv })

def RecvBody.pollFrame (self : RecvBody ρ) : FramePoll Status × RecvBody ρ :=
  if self.trailersDone then (.ready none, self)
  else if self.dataDone then self.pollTrailers texts h3
  else self.pollData texts h3

def H3RecvBody.pollFrame : RecvBody ρ → FramePoll Status × RecvBody ρ :=
  RecvBody.pollFrame ⟨"h3 recv error: ", "h3 trailers error: "⟩ h3

def H3ClientRecvBody.pollFrame : RecvBody ρ → FramePoll Status × RecvBody ρ :=
  RecvBody.pollFrame ⟨"h3 client recv error: ", "h3 client trailers error: "⟩ h3

inductive Fault where
  | recv (err : String)
  | trailers (err : String)
  deriving DecidableEq, Repr

def Fault.status (texts : ErrorTexts) : Fault → Status
  | .recv err => .internal (texts.recv ++ err)
  | .trailers err => .internal (texts.trailers ++ err)

/-- What comes behind the data. -/
inductive Trails : ρ → Tail Fault → Prop where
  | wait {s t tail} (h : h3.pollRecvTrailers s = (.pending, t)) (later : Trails t tail) :
      Trails s tail
  | trailers {s t map} (h : h3.pollRecvTrailers s = (.ready (.ok (some map)), t)) :
      Trails s (.trailers map)
  | nothing {s t} (h : h3.pollRecvTrailers s = (.ready (.ok none), t)) : Trails s .eof
  | fails {s t err} (h : h3.pollRecvTrailers s = (.ready (.error err), t)) :
      Trails s (.error (.trailers err))

/-- What a receive half gives of the peer's stream. -/
inductive Receives : ρ → Bytes → Tail Fault → Prop where
  | wait {s t bytes tail} (h : h3.pollRecvData s = (.pending, t)) (later : Receives t bytes tail) :
      Receives s bytes tail
  | data {s t bytes more tail} (h : h3.pollRecvData s = (.ready (.ok (some bytes)), t))
      (later : Receives t more tail) : Receives s (bytes ++ more) tail
  | finished {s t tail} (h : h3.pollRecvData s = (.ready (.ok none), t))
      (behind : Trails h3 t tail) : Receives s [] tail
  | fails {s t err} (h : h3.pollRecvData s = (.ready (.error err), t)) :
      Receives s [] (.error (.recv err))

def faultTail (texts : ErrorTexts) : Tail Fault → Tail Status
  | .eof => .eof
  | .trailers map => .trailers map
  | .error fault => .error (fault.status texts)

theorem trails_carries {s : ρ} {tail : Tail Fault} (trails : Trails h3 s tail) :
    Carries (RecvBody.pollFrame texts h3) ⟨s, true, false⟩ [] (faultTail texts tail) := by
  induction trails with
  | @wait s t _ h _ ih =>
    exact .wait (t := ⟨t, true, false⟩) (by simp [RecvBody.pollFrame, RecvBody.pollTrailers, h]) ih
  | @trailers s t map h =>
    exact .trailers (t := ⟨t, true, true⟩) (by simp [RecvBody.pollFrame, RecvBody.pollTrailers, h])
  | @nothing s t h =>
    exact .eof (t := ⟨t, true, true⟩) (by simp [RecvBody.pollFrame, RecvBody.pollTrailers, h])
  | @fails s t err h =>
    exact .error (t := ⟨t, true, true⟩)
      (by simp [RecvBody.pollFrame, RecvBody.pollTrailers, h, Fault.status])

theorem recv_carries {s : ρ} {bytes : Bytes} {tail : Tail Fault} (receives : Receives h3 s bytes tail) :
    Carries (RecvBody.pollFrame texts h3) (.new s) bytes (faultTail texts tail) := by
  induction receives with
  | @wait s t _ _ h _ ih =>
    exact .wait (t := .new t) (by simp [RecvBody.new, RecvBody.pollFrame, RecvBody.pollData, h]) ih
  | @data s t _ _ _ h _ ih =>
    exact .data (t := .new t) (by simp [RecvBody.new, RecvBody.pollFrame, RecvBody.pollData, h]) ih
  | @finished s t _ h behind =>
    exact .wait (t := ⟨t, true, false⟩)
      (by simp [RecvBody.new, RecvBody.pollFrame, RecvBody.pollData, h])
      (trails_carries texts h3 behind)
  | @fails s t err h =>
    exact .error (t := .new t)
      (by simp [RecvBody.new, RecvBody.pollFrame, RecvBody.pollData, h, Fault.status])

theorem poll_closes (self : RecvBody ρ)
    (ended : (self.pollFrame texts h3).1 = .ready none ∨
      ∃ map, (self.pollFrame texts h3).1 = .ready (some (.ok (.trailers map)))) :
    (self.pollFrame texts h3).2.trailersDone = true := by
  obtain ⟨recv, dataDone, trailersDone⟩ := self
  cases trailersDone with
  | true => rfl
  | false =>
    cases dataDone with
    | true =>
      have trailing : RecvBody.pollFrame texts h3 ⟨recv, true, false⟩ =
          RecvBody.pollTrailers texts h3 ⟨recv, true, false⟩ := rfl
      rw [trailing] at ended ⊢
      rcases polled : h3.pollRecvTrailers recv with ⟨_ | err | _ | map, next⟩ <;>
        simp only [RecvBody.pollTrailers, polled] at ended ⊢
      simp at ended
    | false =>
      have receiving : RecvBody.pollFrame texts h3 ⟨recv, false, false⟩ =
          RecvBody.pollData texts h3 ⟨recv, false, false⟩ := rfl
      rw [receiving] at ended
      rcases polled : h3.pollRecvData recv with ⟨_ | err | _ | data, next⟩ <;>
        simp [RecvBody.pollData, polled] at ended

theorem recv_ends_for_good (self : RecvBody ρ) (n : Nat)
    (ended : answerAt (RecvBody.pollFrame texts h3) self n = .ready none ∨
      ∃ map, answerAt (RecvBody.pollFrame texts h3) self n = .ready (some (.ok (.trailers map))))
    (m : Nat) (late : n < m) : answerAt (RecvBody.pollFrame texts h3) self m = .ready none := by
  have closed := poll_closes texts h3 _ ended
  have ended {s : RecvBody ρ} (done : s.trailersDone = true) :
      RecvBody.pollFrame texts h3 s = (.ready none, s) := if_pos done
  have stays : ∀ k, (stateAt (RecvBody.pollFrame texts h3) self (n + 1 + k)).trailersDone = true := by
    intro k
    induction k with
    | zero => exact closed
    | succ k ih =>
      rw [← Nat.add_assoc, stateAt, ended ih]
      exact ih
  obtain ⟨k, rfl⟩ := Nat.exists_eq_add_of_le late
  rw [answerAt, ended (stays k)]

end Receiving

section Responding

/-- The send half of a stream that answers a request: the head of the response goes first. -/
structure ResponseStream (τ : Type) extends SendStream τ where
  sendResponse : τ → Nat → HeaderMap → Bool × τ

variable {β τ : Type} (h3 : ResponseStream τ)

def errorTrailers (status : Status) : HeaderMap := (status.addHeader []).2

/-- What follows the loop: the trailers, if there are any, and the end of the stream. A call
    that is refused is returned as an error. -/
def finishResponse (trailers : Option HeaderMap) (send : Sent τ) : Bool × Sent τ :=
  match trailers with
  | some map =>
    match send.sendTrailers h3.toSendStream map with
    | (true, send) => ((h3.finish send.stream).1, send.finish h3.toSendStream)
    | (false, send) => (false, send)
  | none => ((h3.finish send.stream).1, send.finish h3.toSendStream)

def responseTurn (poll : β → FramePoll Status × β) :
    β × Option HeaderMap × Sent τ → Turn (Bool × Sent τ) (β × Option HeaderMap × Sent τ)
  | (body, trailers, send) =>
    match poll body with
    | (.pending, body) => .again (body, trailers, send)
    | (.ready (some (.ok (.data data))), body) =>
      match send.sendData h3.toSendStream data with
      | (true, send) => .again (body, trailers, send)
      | (false, send) => .done (false, send) (body, trailers, send)
    | (.ready (some (.ok (.trailers map))), body) => .again (body, some map, send)
    | (.ready (some (.error status)), body) =>
      .done (finishResponse h3 (some (errorTrailers status)) send)
        (body, some (errorTrailers status), send)
    | (.ready none, body) => .done (finishResponse h3 trailers send) (body, trailers, send)

/-- A response is sent with this result: a head that is refused is all there is. -/
inductive SendsResponse (poll : β → FramePoll Status × β) (response : HttpResponse β) (stream : τ) :
    Bool × Sent τ → Prop where
  | refused {next}
      (head : h3.sendResponse stream response.status response.headers = (false, next)) :
      SendsResponse poll response stream (false, ⟨next, []⟩)
  | sent {next result rest}
      (head : h3.sendResponse stream response.status response.headers = (true, next))
      (run : Returns (responseTurn h3 poll) (response.body, none, ⟨next, []⟩) result rest) :
      SendsResponse poll response stream result

/-- The frames of a body up to its first end or its error. -/
inductive Yields {ε : Type} (poll : β → FramePoll ε × β) : β → List Frame → Option ε → Prop where
  | ends {s t} (h : poll s = (.ready none, t)) : Yields poll s [] none
  | fails {s t e} (h : poll s = (.ready (some (.error e)), t)) : Yields poll s [] (some e)
  | wait {s t frames e} (h : poll s = (.pending, t)) (rest : Yields poll t frames e) :
      Yields poll s frames e
  | frame {s t frame frames e} (h : poll s = (.ready (some (.ok frame)), t))
      (rest : Yields poll t frames e) : Yields poll s (frame :: frames) e

def lastTrailers (trailers : Option HeaderMap) : List Frame → Option HeaderMap
  | [] => trailers
  | .data _ :: rest => lastTrailers trailers rest
  | .trailers map :: rest => lastTrailers (some map) rest

def dataCalls : List Frame → List Call
  | [] => []
  | .data data :: rest => .data data :: dataCalls rest
  | .trailers _ :: rest => dataCalls rest

def trailersCalls : Option HeaderMap → List Call
  | some map => [.trailers map]
  | none => []

/-- The calls that a body is worth: its data, one trailers frame if there is any, the end. -/
def plan (trailers : Option HeaderMap) (frames : List Frame) (fault : Option Status) : List Call :=
  dataCalls frames ++
    (trailersCalls ((fault.map errorTrailers).or (lastTrailers trailers frames)) ++ [.finish])

def Sent.make (h3 : SendStream τ) (send : Sent τ) : Call → Bool × Sent τ
  | .data bytes => send.sendData h3 bytes
  | .trailers map => send.sendTrailers h3 map
  | .finish => ((h3.finish send.stream).1, send.finish h3)

def Sent.makeAll (h3 : SendStream τ) : Sent τ → List Call → Bool × Sent τ
  | send, [] => (true, send)
  | send, call :: rest =>
    match Sent.make h3 send call with
    | (true, send) => Sent.makeAll h3 send rest
    | (false, send) => (false, send)

theorem finish_made (trailers : Option HeaderMap) (send : Sent τ) :
    finishResponse h3 trailers send =
      Sent.makeAll h3.toSendStream send (trailersCalls trailers ++ [.finish]) := by
  have last (send : Sent τ) : ((h3.finish send.stream).1, send.finish h3.toSendStream) =
      Sent.makeAll h3.toSendStream send [.finish] := by
    simp only [Sent.makeAll, Sent.make]
    cases (h3.finish send.stream).1 <;> rfl
  cases trailers with
  | none => exact last send
  | some map =>
    simp only [finishResponse, trailersCalls, List.cons_append, List.nil_append]
    rw [Sent.makeAll, Sent.make]
    rcases send.sendTrailers h3.toSendStream map with ⟨accepted, next⟩
    cases accepted with
    | false => rfl
    | true => exact last next

/-- The task makes the calls its body is worth, up to the first that is refused. -/
theorem yields_made {poll : β → FramePoll Status × β} {s : β} {frames : List Frame}
    {fault : Option Status} (yields : Yields poll s frames fault) (trailers : Option HeaderMap)
    (send : Sent τ) : ∃ rest, Returns (responseTurn h3 poll) (s, trailers, send)
      (Sent.makeAll h3.toSendStream send (plan trailers frames fault)) rest := by
  induction yields generalizing trailers send with
  | @ends s t h =>
    refine ⟨(t, trailers, send), .done ?_⟩
    simp only [responseTurn, h, finish_made]
    rfl
  | @fails s t status h =>
    refine ⟨(t, some (errorTrailers status), send), .done ?_⟩
    simp only [responseTurn, h, finish_made]
    rfl
  | wait h _ ih =>
    obtain ⟨rest, run⟩ := ih trailers send
    exact ⟨rest, .again (by simp only [responseTurn, h]) run⟩
  | @frame s t frame frames fault h _ ih =>
    cases frame with
    | trailers map =>
      obtain ⟨rest, run⟩ := ih (some map) send
      exact ⟨rest, .again (by simp only [responseTurn, h]) run⟩
    | data data =>
      have front : plan trailers (.data data :: frames) fault =
          .data data :: plan trailers frames fault := rfl
      rw [front, Sent.makeAll, Sent.make]
      rcases call : send.sendData h3.toSendStream data with ⟨accepted, next⟩
      cases accepted with
      | false => exact ⟨(t, trailers, next), .done (by simp only [responseTurn, h, call])⟩
      | true =>
        obtain ⟨rest, run⟩ := ih trailers next
        exact ⟨rest, .again (by simp only [responseTurn, h, call]) run⟩

/-- Of these calls the first were taken, and if one was refused it was the last to be made. -/
inductive Made : List Call → List (Call × Bool) → Bool → Prop where
  | done : Made [] [] true
  | refused {call rest} : Made (call :: rest) [(call, false)] false
  | taken {call rest calls good} (later : Made rest calls good) :
      Made (call :: rest) ((call, true) :: calls) good

theorem make_calls (h3 : SendStream τ) (send : Sent τ) (call : Call) :
    (Sent.make h3 send call).2.calls = send.calls ++ [(call, (Sent.make h3 send call).1)] := by
  cases call <;> rfl

theorem make_all_made (h3 : SendStream τ) (send : Sent τ) (calls : List Call) :
    ∃ made, (Sent.makeAll h3 send calls).2.calls = send.calls ++ made ∧
      Made calls made (Sent.makeAll h3 send calls).1 := by
  induction calls generalizing send with
  | nil => exact ⟨[], (List.append_nil _).symm, .done⟩
  | cons call rest ih =>
    have recorded := make_calls h3 send call
    rw [Sent.makeAll]
    rcases made : Sent.make h3 send call with ⟨accepted, next⟩
    rw [made] at recorded
    cases accepted with
    | false => exact ⟨[(call, false)], recorded, .refused⟩
    | true =>
      obtain ⟨later, calls, shape⟩ := ih next
      refine ⟨(call, true) :: later, ?_, .taken shape⟩
      dsimp only at recorded ⊢
      rw [calls, recorded, List.append_assoc]
      rfl

structure Healthy {τ : Type} (h3 : SendStream τ) : Prop where
  data : ∀ stream data, (h3.sendData stream data).1 = true
  trailers : ∀ stream map, (h3.sendTrailers stream map).1 = true
  finish : ∀ stream, (h3.finish stream).1 = true

theorem healthy_takes {h3 : SendStream τ} (healthy : Healthy h3) (send : Sent τ) (call : Call) :
    (Sent.make h3 send call).1 = true := by
  cases call with
  | data bytes => exact healthy.data send.stream bytes
  | trailers map => exact healthy.trailers send.stream map
  | finish => exact healthy.finish send.stream

theorem healthy_takes_all {h3 : SendStream τ} (healthy : Healthy h3) (send : Sent τ)
    (calls : List Call) : (Sent.makeAll h3 send calls).1 = true ∧
      (Sent.makeAll h3 send calls).2.calls = send.calls ++ calls.map (·, true) := by
  induction calls generalizing send with
  | nil => exact ⟨rfl, (List.append_nil _).symm⟩
  | cons call rest ih =>
    have taken := healthy_takes healthy send call
    have recorded := make_calls h3 send call
    rw [Sent.makeAll]
    rcases made : Sent.make h3 send call with ⟨accepted, next⟩
    rw [made] at taken recorded
    cases taken
    obtain ⟨good, later⟩ := ih next
    refine ⟨good, ?_⟩
    dsimp only at recorded ⊢
    rw [later, recorded, List.append_assoc]
    rfl

/-- On such a stream every data frame is sent, then the last trailers or the error's, and the
    stream is finished. -/
theorem yields_sends (healthy : Healthy h3.toSendStream) {poll : β → FramePoll Status × β} {s : β}
    {frames : List Frame} {fault : Option Status} (yields : Yields poll s frames fault)
    (trailers : Option HeaderMap) (send : Sent τ) :
    ∃ last rest, Returns (responseTurn h3 poll) (s, trailers, send) (true, last) rest ∧
      last.calls = send.calls ++ (plan trailers frames fault).map (·, true) := by
  obtain ⟨rest, run⟩ := yields_made h3 yields trailers send
  obtain ⟨good, calls⟩ := healthy_takes_all healthy send (plan trailers frames fault)
  refine ⟨_, rest, ?_, calls⟩
  rw [← good]
  exact run

end Responding

section Peer

def bytesOf (calls : List (Call × Bool)) : Bytes :=
  calls.flatMap fun call =>
    match call with
    | (.data data, true) => data
    | _ => []

def tailOf (calls : List (Call × Bool)) : Tail Fault :=
  (calls.findSome? fun call =>
    match call with
    | (.trailers map, true) => some map
    | _ => none).elim .eof .trailers

def frameBytes : Frame → Bytes
  | .data data => data
  | .trailers _ => []

theorem sent_conveys (frames : List Frame) (fault : Option Status) :
    bytesOf ((plan none frames fault).map (·, true)) = frames.flatMap frameBytes ∧
      tailOf ((plan none frames fault).map (·, true)) =
        ((fault.map errorTrailers).or (lastTrailers none frames)).elim .eof .trailers := by
  have front (calls : List Call) : bytesOf ((dataCalls frames ++ calls).map (·, true)) =
        frames.flatMap frameBytes ++ bytesOf (calls.map (·, true)) ∧
      tailOf ((dataCalls frames ++ calls).map (·, true)) = tailOf (calls.map (·, true)) := by
    induction frames with
    | nil => exact ⟨rfl, rfl⟩
    | cons frame frames ih =>
      cases frame with
      | trailers map => exact ih
      | data data =>
        obtain ⟨bytes, tail⟩ := ih
        refine ⟨?_, tail⟩
        simp only [bytesOf, dataCalls, List.cons_append, List.map_cons, List.flatMap_cons,
          frameBytes, List.append_assoc] at bytes ⊢
        rw [bytes]
  obtain ⟨bytes, tail⟩ := front
    (trailersCalls ((fault.map errorTrailers).or (lastTrailers none frames)) ++ [.finish])
  rw [plan, bytes, tail]
  cases (fault.map errorTrailers).or (lastTrailers none frames) with
  | none => exact ⟨List.append_nil _, rfl⟩
  | some map => exact ⟨List.append_nil _, rfl⟩

end Peer

section Sources
variable {σ U : Type} (enc : Encoder σ U) (z : Compressors)

theorem ended_again {self t : EncodedBytes σ U} (ended : self.pollNext enc z = (.ready none, t)) :
    t.pollNext enc z = (.ready none, t) := by
  obtain ⟨source, encoder, encoding, limit, buf, error⟩ := self
  cases error with
  | some status => cases ended
  | none =>
    obtain ⟨noSource, noBytes⟩ := poll_source_none enc z _ _ _ (congrArg Prod.fst ended)
    dsimp only at noSource noBytes
    subst noSource noBytes
    cases ended
    rfl

/-- The frames of a server body for what its encoded bytes yield; the flag says whether
    trailers have been given. -/
def framesFor : Bool → List (Except Status Bytes) → List Frame
  | true, [] => []
  | false, [] => [.trailers (trailersOrDefault (.ok ""))]
  | given, .ok data :: rest => .data data :: framesFor given rest
  | _, .error status :: rest => .trailers (trailersOrDefault status) :: framesFor true rest

theorem server_yields {inner t : EncodedBytes σ U} {items : List (Except Status Bytes)}
    (run : Drains (EncodedBytes.pollNext enc z) inner items t) (given : Bool) :
    Yields (EncodeBody.pollFrame enc z) ⟨inner, ⟨none, .server, given⟩⟩ (framesFor given items)
      none := by
  have polls (inner : EncodedBytes σ U) (given : Bool) :=
    poll_frame_server enc z inner ⟨none, .server, given⟩ rfl
  have closed {t : EncodedBytes σ U} (again : t.pollNext enc z = (.ready none, t)) :
      Yields (EncodeBody.pollFrame enc z) ⟨t, ⟨none, .server, true⟩⟩ [] none :=
    .ends (by rw [polls, again]; rfl)
  induction run generalizing given with
  | @stop s t h =>
    cases given with
    | true => exact .ends (by rw [polls, h]; rfl)
    | false =>
      obtain ⟨map, written, _⟩ := to_header_map_written (.ok "")
      refine .frame (t := ⟨t, ⟨none, .server, true⟩⟩) ?_ (closed (ended_again enc z h))
      rw [polls, h]
      simp [frameFor, EncodeState.trailers, trailersOrDefault, written, Except.map]
  | @wait s t items u h _ ih =>
    exact .wait (t := ⟨t, ⟨none, .server, given⟩⟩) (by rw [polls, h]; rfl) (ih given)
  | @item s t a items u h _ ih =>
    cases a with
    | ok data =>
      rw [framesFor]
      exact .frame (t := ⟨t, ⟨none, .server, given⟩⟩) (by rw [polls, h]; rfl) (ih given)
    | error status =>
      rw [framesFor]
      exact .frame (t := ⟨t, ⟨none, .server, true⟩⟩) (by rw [polls, h]; rfl) (ih true)

end Sources

end H3Streams
