import PureGrpc.GrpcMetadata
import PureGrpc.PolledMachines

/-!
HTTP messages and their bodies. A body is anything polled for frames; `Body` is
a finite one as a peer's transport presents it: data frames and Pending in any
order, then its end, a trailers frame, or an error. `Carries` is what a
transport conveys of a body that is polled on this side: all data bytes up to
the first end, trailers or error.
-/
namespace HttpBodies
open LengthFraming GrpcMetadata PolledMachines

inductive Frame where
  | data (bytes : Bytes)
  | trailers (map : HeaderMap)
  deriving DecidableEq, Repr

abbrev FramePoll (ε : Type) := Poll (Option (Except ε Frame))

inductive Chunk where
  | pending
  | data (bytes : Bytes)
  deriving DecidableEq, Repr

inductive Tail (ε : Type) where
  | eof
  | trailers (map : HeaderMap)
  | error (e : ε)
  deriving DecidableEq, Repr

structure Body (ε : Type) where
  chunks : List Chunk
  tail : Tail ε
  deriving DecidableEq, Repr

variable {ε : Type}

def Body.pollFrame (self : Body ε) : FramePoll ε × Body ε :=
  match self.chunks with
  | .pending :: rest => (.pending, { self with chunks := rest })
  | .data bytes :: rest => (.ready (some (.ok (.data bytes))), { self with chunks := rest })
  | [] =>
    match self.tail with
    | .eof => (.ready none, self)
    | .trailers map => (.ready (some (.ok (.trailers map))), { self with tail := .eof })
    | .error e => (.ready (some (.error e)), { self with tail := .eof })

def Chunk.bytes : Chunk → Bytes
  | .pending => []
  | .data bytes => bytes

/-- All the data bytes of a body, however they are cut. -/
def Body.data (self : Body ε) : Bytes := self.chunks.flatMap Chunk.bytes

@[simp] theorem body_data_nil (tail : Tail ε) : (Body.mk [] tail).data = [] := rfl

@[simp] theorem body_data_pending (rest : List Chunk) (tail : Tail ε) :
    (Body.mk (.pending :: rest) tail).data = (Body.mk rest tail).data := rfl

@[simp] theorem body_data_cons (bytes : Bytes) (rest : List Chunk) (tail : Tail ε) :
    (Body.mk (.data bytes :: rest) tail).data = bytes ++ (Body.mk rest tail).data := rfl

section Transport
variable {σ : Type} (poll : σ → FramePoll ε × σ)

inductive Carries : σ → Bytes → Tail ε → Prop where
  | eof {s t} (h : poll s = (.ready none, t)) : Carries s [] .eof
  | trailers {s t map} (h : poll s = (.ready (some (.ok (.trailers map))), t)) :
      Carries s [] (.trailers map)
  | error {s t e} (h : poll s = (.ready (some (.error e)), t)) : Carries s [] (.error e)
  | wait {s t bytes tail} (h : poll s = (.pending, t)) (rest : Carries t bytes tail) :
      Carries s bytes tail
  | data {s t bytes more tail} (h : poll s = (.ready (some (.ok (.data bytes))), t))
      (rest : Carries t more tail) : Carries s (bytes ++ more) tail

theorem carries_unique {s : σ} {as bs : Bytes} {t u : Tail ε} (left : Carries poll s as t)
    (right : Carries poll s bs u) : as = bs ∧ t = u := by
  induction left generalizing bs with
  | eof h => cases right <;> simp_all
  | trailers h => cases right <;> simp_all
  | error h => cases right <;> simp_all
  | wait h rest ih =>
    cases right with
    | wait h' rest' =>
      cases h.symm.trans h'
      exact ih rest'
    | eof h' => simp_all
    | trailers h' => simp_all
    | error h' => simp_all
    | data h' _ => simp_all
  | data h rest ih =>
    cases right with
    | data h' rest' =>
      cases h.symm.trans h'
      obtain ⟨bytes, tail⟩ := ih rest'
      exact ⟨by rw [bytes], tail⟩
    | eof h' => simp_all
    | trailers h' => simp_all
    | error h' => simp_all
    | wait h' _ => simp_all

end Transport

structure RequestParts (X : Type) where
  path : String
  headers : HeaderMap
  extensions : X

structure HttpRequest (X β : Type) where
  parts : RequestParts X
  body : β

structure HttpResponse (β : Type) where
  status : Nat
  headers : HeaderMap
  body : β

end HttpBodies
