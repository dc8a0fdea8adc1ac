import PureGrpc.ComparedMachines
import PureGrpc.WebBodies

/-!
Native calls through the gRPC-Web layer. The request body reaches the inner
service as it is. The response body goes through the wrapper that also serves
web calls, which turns trailers into data and adds a data frame at the end, so
it is left as it is only while neither comes.
-/
namespace WebPassThrough
open KeyedMultimap LengthFraming GrpcMetadata PolledMachines ComparedMachines HttpBodies WebBodies

variable {X β ρ ε E : Type}

section Bodies
variable (poll : ρ → FramePoll ε × ρ)

theorem request_alike (body : ρ) :
    Alike poll (GrpcWebCall.pollFrame poll) body (.request body .binary) := by
  have steps : Lockstep poll (GrpcWebCall.pollFrame poll)
      (fun b call => call = .request b .binary) := by
    rintro b _ rfl
    simp only [GrpcWebCall.request, GrpcWebCall.pollFrame, GrpcWebCall.pollDecode]
    split <;> rename_i answer <;> rw [answer] <;> exact ⟨rfl, fun _ => rfl⟩
  exact alike_lockstep steps rfl

/-- Polled through data and Pending, the body never comes to its end or to trailers:
    its frames are data, and stop at an error if they stop at all. -/
def DataOnly (body : ρ) : Prop :=
  ∀ frames b, Shows poll body frames b →
    (poll b).1 ≠ .ready none ∧ ∀ map, (poll b).1 ≠ .ready (some (.ok (.trailers map)))

theorem data_only_step {body : ρ} (only : DataOnly poll body)
    (good : (poll body).1 = .pending ∨ ∃ frame, (poll body).1 = .ready (some (.ok frame))) :
    DataOnly poll (poll body).2 := by
  intro frames b run
  rcases good with pending | ⟨frame, ok⟩
  · exact only frames b (.wait (Prod.ext pending rfl) run)
  · exact only (frame :: frames) b (.item (Prod.ext ok rfl) run)

theorem response_lockstep :
    Lockstep poll (GrpcWebCall.pollFrame poll)
      (fun b call => DataOnly poll b ∧ call = .response b .binary) := by
  rintro b _ ⟨only, rfl⟩
  have step := data_only_step poll only
  obtain ⟨going, noTrailers⟩ := only [] b (.here b)
  simp only [GrpcWebCall.response, GrpcWebCall.pollFrame, GrpcWebCall.pollEncode,
    Bool.false_eq_true, if_false]
  split <;> rename_i answer <;> rw [answer] at going noTrailers step ⊢
  · exact ⟨rfl, fun good => ⟨step good, rfl⟩⟩
  · exact absurd rfl (noTrailers _)
  · refine ⟨rfl, ?_⟩
    rintro (h | ⟨_, h⟩) <;> cases h
  · exact absurd rfl going
  · exact ⟨rfl, fun good => ⟨step good, rfl⟩⟩

theorem end_differs {body t : ρ} (ended : poll body = (.ready none, t)) :
    ¬ Alike poll (GrpcWebCall.pollFrame poll) body (.response body .binary) := by
  intro alike
  obtain ⟨u, run⟩ := (alike.reads [] none).mp ⟨t, .stop ended⟩
  have added : (GrpcWebCall.pollFrame poll (.response body .binary)).1 =
      .ready (some (.ok (.data [0x80, 0, 0, 0, 0]))) := by
    simp only [GrpcWebCall.response, GrpcWebCall.pollFrame, GrpcWebCall.pollEncode, ended]
    rfl
  cases run with
  | stop h => simp [h] at added
  | wait h _ => simp [h] at added

theorem trailers_differ {body t : ρ} {map : HeaderMap}
    (trailers : poll body = (.ready (some (.ok (.trailers map))), t)) :
    ¬ Alike poll (GrpcWebCall.pollFrame poll) body (.response body .binary) := by
  intro alike
  obtain ⟨u, run⟩ := (alike.shows [.trailers map]).mp ⟨t, .item trailers (.here t)⟩
  have swallowed : GrpcWebCall.pollFrame poll (.response body .binary) =
      (.pending, { GrpcWebCall.response body .binary with inner := t, trailers := some map }) := by
    simp only [GrpcWebCall.response, GrpcWebCall.pollFrame, GrpcWebCall.pollEncode, trailers]
    rfl
  cases run with
  | item h _ => cases swallowed.symm.trans h
  | wait h rest =>
    cases swallowed.symm.trans h
    cases rest with
    | wait h _ => cases h
    | item h _ => cases h

/-- The response body comes out as it is exactly if it is nothing but data. -/
theorem response_alike_iff (body : ρ) :
    Alike poll (GrpcWebCall.pollFrame poll) body (.response body .binary) ↔
      DataOnly poll body := by
  constructor
  · intro alike frames b run
    induction run with
    | here b =>
      refine ⟨fun ended => ?_, fun map trailers => ?_⟩
      · exact end_differs poll (Prod.ext ended rfl) alike
      · exact trailers_differ poll (Prod.ext trailers rfl) alike
    | @wait s t _ _ h _ ih =>
      apply ih
      apply alike_after_wait alike h
      simp only [GrpcWebCall.response, GrpcWebCall.pollFrame, GrpcWebCall.pollEncode, h]
      rfl
    | @item s t frame _ _ h _ ih =>
      apply ih
      apply alike_after_item alike h
      cases frame with
      | data bytes =>
        simp only [GrpcWebCall.response, GrpcWebCall.pollFrame, GrpcWebCall.pollEncode, h]
        rfl
      | trailers map => exact absurd alike (trailers_differ poll h)
  · intro only
    exact alike_lockstep (response_lockstep poll) ⟨only, rfl⟩

end Bodies

theorem body_data_only_iff (body : Body ε) :
    DataOnly Body.pollFrame body ↔ ∃ e, body.tail = .error e := by
  obtain ⟨chunks, tail⟩ := body
  constructor
  · intro only
    induction chunks with
    | nil =>
      obtain ⟨going, noTrailers⟩ := only [] _ (.here _)
      cases tail with
      | eof => exact absurd rfl going
      | trailers map => exact absurd rfl (noTrailers map)
      | error e => exact ⟨e, rfl⟩
    | cons chunk chunks ih =>
      apply ih
      cases chunk with
      | pending => exact data_only_step _ only (.inl rfl)
      | data bytes => exact data_only_step _ only (.inr ⟨_, rfl⟩)
  · rintro ⟨e, rfl⟩ frames b run
    induction chunks generalizing frames with
    | nil =>
      cases run with
      | here => exact ⟨(by intro wrong; cases wrong), (by intro map wrong; cases wrong)⟩
      | wait h _ => cases h
      | item h _ => cases h
    | cons chunk chunks ih =>
      cases chunk with
      | pending =>
        cases run with
        | here => exact ⟨(by intro wrong; cases wrong), (by intro map wrong; cases wrong)⟩
        | wait h rest =>
          cases h
          exact ih _ rest
        | item h _ => cases h
      | data bytes =>
        cases run with
        | here => exact ⟨(by intro wrong; cases wrong), (by intro map wrong; cases wrong)⟩
        | wait h _ => cases h
        | item h rest =>
          cases h
          exact ih _ rest

section Calls
variable (pollRequest : β → FramePoll ε × β) (pollResponse : ρ → FramePoll ε × ρ)
  (inner : HttpRequest X (GrpcWebCall β) → Except E (HttpResponse ρ)) (req : HttpRequest X β)

def passedOn : HttpRequest X (GrpcWebCall β) := ⟨req.parts, .request req.body .binary⟩

/-- The inner service sees the request that was sent, and what it answers is returned:
    the same parts, and bodies that one who polls them cannot tell apart. -/
def Transparent : Prop :=
  (passedOn req).parts = req.parts ∧
  Alike pollRequest (GrpcWebCall.pollFrame pollRequest) req.body (passedOn req).body ∧
  match inner (passedOn req), GrpcWebService.call inner req with
  | .ok resp, .ok returned => returned.status = resp.status ∧ returned.headers = resp.headers ∧
      Alike pollResponse (GrpcWebCall.pollFrame pollResponse) resp.body returned.body
  | .error e, .error e' => e = e'
  | _, _ => False

theorem call_native (native : isGrpcWeb (requestContentType req.parts.headers) = false) :
    (∀ e, inner (passedOn req) = .error e → GrpcWebService.call inner req = .error e) ∧
      ∀ resp, inner (passedOn req) = .ok resp → GrpcWebService.call inner req =
        .ok ⟨resp.status, resp.headers, .response resp.body .binary⟩ := by
  constructor
  · intro e fails
    rw [passedOn] at fails
    simp only [GrpcWebService.call, native, Bool.false_eq_true, if_false, fails]
  · intro resp answers
    rw [passedOn] at answers
    simp only [GrpcWebService.call, native, Bool.false_eq_true, if_false, answers]

/-- A native call passes through unchanged exactly if the inner service fails, or answers
    with a body that neither ends nor brings trailers before an error. -/
theorem pass_through_iff (native : isGrpcWeb (requestContentType req.parts.headers) = false) :
    Transparent pollRequest pollResponse inner req ↔
      ∀ resp, inner (passedOn req) = .ok resp → DataOnly pollResponse resp.body := by
  have request := request_alike pollRequest req.body
  obtain ⟨failing, answering⟩ := call_native inner req native
  unfold Transparent
  cases answer : inner (passedOn req) with
  | error e =>
    rw [failing e answer]
    constructor
    · intro _ resp wrong
      cases wrong
    · intro _
      exact ⟨rfl, request, rfl⟩
  | ok resp =>
    rw [answering resp answer]
    constructor
    · rintro ⟨_, _, _, _, alike⟩ _ ⟨rfl⟩
      exact (response_alike_iff pollResponse resp.body).mp alike
    · intro only
      exact ⟨rfl, request, rfl, rfl, (response_alike_iff pollResponse resp.body).mpr (only resp rfl)⟩

end Calls

def nativeRequest : HttpRequest Unit (Body String) :=
  ⟨⟨"/greeter", [(contentTypeHeader, grpcValue)], ()⟩, ⟨[], .eof⟩⟩

def answering (body : Body String) :
    HttpRequest Unit (GrpcWebCall (Body String)) → Except String (HttpResponse (Body String)) :=
  fun _ => .ok ⟨200, [], body⟩

/-- A response that breaks off in an error passes through unchanged. -/
theorem broken_response_passes_through :
    Transparent Body.pollFrame Body.pollFrame
      (answering ⟨[.data [0, 0, 0, 0, 0]], .error "reset"⟩) nativeRequest := by
  apply (pass_through_iff Body.pollFrame Body.pollFrame _ _ (by decide)).mpr
  rintro resp ⟨rfl⟩
  exact (body_data_only_iff _).mpr ⟨_, rfl⟩

/-- A response with a message and its status does not. -/
theorem native_response_changed :
    isGrpcWeb (requestContentType nativeRequest.parts.headers) = false ∧
    ¬ Transparent Body.pollFrame Body.pollFrame
      (answering ⟨[.data [0, 0, 0, 0, 0]], .trailers [("grpc-status", fromStatic "0" (by decide))]⟩)
      nativeRequest := by
  refine ⟨by decide, ?_⟩
  intro passed
  obtain ⟨_, _, _, _, alike⟩ := passed
  obtain ⟨e, wrong⟩ := (body_data_only_iff _).mp ((response_alike_iff Body.pollFrame _).mp alike)
  cases wrong

end WebPassThrough
