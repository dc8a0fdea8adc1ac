import PureGrpc.DecodeBuffers
import PureGrpc.StreamingDecode

/-!
The receiving side with its panics. Every read of the buffer is the checked one,
and a decode buffer is lent to the decoder for a session. `StreamingDecode` is
the same machine without the checks; a decoder that never asks for more than is
there cannot tell them apart, whatever state the stream is in.
-/
namespace CheckedReceiving
open LengthFraming GrpcStatus GrpcCompression GrpcCodec PolledMachines HttpBodies
open CheckedBytes DecodeBuffers StreamingDecode

/-- Which buffer a decode buffer borrows. The one decompressed into is cleared before
    each use, so nothing left in it is ever read. -/
inductive Lender where
  | buf
  | decompressBuf
  deriving DecidableEq, Repr

def Lender.giveBack (inner : StreamingInner) (d : DecodeBuf) : Lender → StreamingInner
  | .buf => { inner with buf := d.buf }
  | .decompressBuf => inner

section Inner
variable (z : Compressors)

def bodyChecked (self : StreamingInner) (compression : Option CompressionEncoding) (len : Nat) :
    Option (Except Status (Option (Lender × DecodeBuf)) × StreamingInner) :=
  if self.buf.length < len then some (.ok none, self)
  else
    match compression with
    | some encoding =>
      match front self.buf len with
      | none => none
      | some compressedData =>
        match z.decompress encoding compressedData with
        | .error err => some (.error (.internal ("decompression error: " ++ err)), self)
        | .ok decompressed =>
          match advance self.buf len with
          | none => none
          | some buf =>
            some (.ok (some (.decompressBuf, DecodeBuf.new decompressed decompressed.length)),
              { self with buf })
    | none => some (.ok (some (.buf, DecodeBuf.new self.buf len)), self)

def innerChecked (self : StreamingInner) :
    Option (Except Status (Option (Lender × DecodeBuf)) × StreamingInner) :=
  match self.state with
  | .error _ => some (.ok none, self)
  | .readBody compression len => bodyChecked z self compression len
  | .readHeader =>
    if self.buf.length < headerSize then some (.ok none, self)
    else
      match getU8 self.buf with
      | none => none
      | some (flag, buf) =>
        match compressionOf self.encoding flag with
        | .error status => some (.error status, { self with buf })
        | .ok compression =>
          match getU32 buf with
          | none => none
          | some (len, buf) =>
            match lengthWithin self.maxMessageSize len with
            | .error status => some (.error status, { self with buf })
            | .ok () => bodyChecked z { self with buf, state := .readBody compression len }
                compression len

end Inner

section Stream
variable {δ T : Type} (dec : SessionDecoder δ T) (z : Compressors)

def decodeChunkChecked (self : Streaming δ) :
    Option (Except Status (Option T) × Streaming δ) :=
  match innerChecked z self.inner with
  | none => none
  | some (.error status, inner) => some (.error status, { self with inner })
  | some (.ok none, inner) => some (.ok none, { self with inner })
  | some (.ok (some (lender, d)), inner) =>
    match (dec.session self.decoder).run d with
    | none => none
    | some ((result, decoder), d) =>
      let inner := lender.giveBack inner d
      match result with
      | .error status => some (.error status, ⟨decoder, inner⟩)
      | .ok none => some (.ok none, ⟨decoder, inner⟩)
      | .ok (some msg) => some (.ok (some msg), ⟨decoder, { inner with state := .readHeader }⟩)

/-- A turn of the poll loop; the loop is left without a result where it panics. -/
def turnChecked (self : Streaming δ) :
    Turn (Option (Poll (Option (Except Status T)))) (Streaming δ) :=
  match self.inner.state with
  | .error status => .done (some (.ready (status.map .error)))
      { self with inner := { self.inner with state := .error none } }
  | _ =>
    match decodeChunkChecked dec z self with
    | none => .done none self
    | some (.error status, self) => .done (some (.ready (some (.error status)))) self
    | some (.ok (some item), self) => .done (some (.ready (some (.ok item)))) self
    | some (.ok none, self) =>
      match self.inner.pollFrame with
      | (.pending, inner) => .done (some .pending) { self with inner }
      | (.ready (.error status), inner) =>
        .done (some (.ready (some (.error status)))) { self with inner }
      | (.ready (.ok (some ())), inner) => .again { self with inner }
      | (.ready (.ok none), inner) =>
        match inner.response with
        | (.ok (), inner) => .done (some (.ready none)) { self with inner }
        | (.error err, inner) =>
          .again { self with inner := { inner with state := .error (some err) } }

end Stream

section Loans
variable (z : Compressors)

def loan (inner : StreamingInner) : Lease → Lender × DecodeBuf
  | .shared len => (.buf, DecodeBuf.new inner.buf len)
  | .decompressed bytes => (.decompressBuf, DecodeBuf.new bytes bytes.length)

def lent (answer : Except Status (Option Lease) × StreamingInner) :
    Except Status (Option (Lender × DecodeBuf)) × StreamingInner :=
  (answer.1.map (·.map (loan answer.2)), answer.2)

def Lease.Held (buf : Bytes) : Lease → Prop
  | .shared len => len ≤ buf.length
  | .decompressed _ => True

theorem body_checked (self : StreamingInner) (compression : Option CompressionEncoding)
    (len : Nat) :
    bodyChecked z self compression len = some (lent (self.decodeBody z compression len)) := by
  unfold bodyChecked StreamingInner.decodeBody
  split
  · rfl
  · rename_i enough
    have within : len ≤ self.buf.length := Nat.le_of_not_lt enough
    cases compression with
    | none => rfl
    | some encoding =>
      simp only [front_within within, advance_within within]
      cases z.decompress encoding (self.buf.take len) with
      | error err => rfl
      | ok bytes => rfl

theorem inner_checked (self : StreamingInner) :
    innerChecked z self = some (lent (self.decodeChunk z)) := by
  unfold innerChecked StreamingInner.decodeChunk
  cases self.state with
  | error status => rfl
  | readBody compression len => exact body_checked z self compression len
  | readHeader =>
    dsimp only
    have short : readHeader self.buf = none ↔ self.buf.length < headerSize :=
      read_header_none_iff self.buf
    cases header : readHeader self.buf with
    | none => rw [if_pos (short.mp header)]; rfl
    | some parts =>
      obtain ⟨flag, len, rest⟩ := parts
      have whole : ¬ self.buf.length < headerSize := by
        intro less
        rw [short.mpr less] at header
        cases header
      obtain ⟨first, second⟩ := header_reads header
      simp only [if_neg whole, first, second]
      cases compressionOf self.encoding flag with
      | error status => rfl
      | ok compression =>
        cases lengthWithin self.maxMessageSize len with
        | error status => rfl
        | ok _ => exact body_checked z _ compression len

theorem body_held {self inner : StreamingInner} {compression : Option CompressionEncoding}
    {len : Nat} {lease : Lease}
    (attempt : self.decodeBody z compression len = (.ok (some lease), inner)) :
    Lease.Held inner.buf lease := by
  unfold StreamingInner.decodeBody at attempt
  split at attempt
  · cases attempt
  · rename_i enough
    cases compression with
    | none =>
      cases attempt
      exact Nat.le_of_not_lt enough
    | some encoding =>
      dsimp only at attempt
      split at attempt
      · cases attempt
      · cases attempt
        trivial

theorem inner_held {self inner : StreamingInner} {lease : Lease}
    (attempt : self.decodeChunk z = (.ok (some lease), inner)) : Lease.Held inner.buf lease := by
  have exit := attempted z self
  rw [attempt] at exit
  generalize answer : ((.ok (some lease), inner) : Except Status (Option Lease) × StreamingInner) =
    given at exit
  cases exit with
  | closed state => cases answer
  | resumed state => exact body_held z answer.symm
  | short state header => cases answer
  | badFlag state header flagged => cases answer
  | tooLong state header flagged within => cases answer
  | entered state header flagged within => exact body_held z answer.symm

theorem loan_backed {inner : StreamingInner} {lease : Lease} (held : Lease.Held inner.buf lease) :
    (loan inner lease).2.Backed := by
  cases lease with
  | shared len => exact held
  | decompressed bytes => exact Nat.le_refl _

end Loans

section Agreement
variable {δ T : Type} (dec : SessionDecoder δ T) (z : Compressors)

theorem session_on_loan (decoder : δ) {inner : StreamingInner} {lease : Lease}
    (held : Lease.Held inner.buf lease) :
    let call := dec.decoder.decode decoder (lease.view inner.buf)
    ∃ d, (dec.session decoder).run (loan inner lease).2 = some ((call.result, call.next), d) ∧
      (loan inner lease).1.giveBack inner d =
        { inner with buf := lease.remaining inner.buf call.consumed } := by
  cases lease with
  | shared len =>
    refine ⟨_, session_decoder_frame dec decoder held, ?_⟩
    rfl
  | decompressed bytes =>
    have run := session_decoder_frame dec decoder (Nat.le_refl bytes.length)
    rw [decodeBuf, List.take_length] at run
    exact ⟨_, run, rfl⟩

theorem decode_chunk_checked (self : Streaming δ) :
    decodeChunkChecked dec z self = some (self.decodeChunk dec.decoder z) := by
  unfold decodeChunkChecked Streaming.decodeChunk
  rw [inner_checked]
  cases attempt : self.inner.decodeChunk z with
  | mk answer inner =>
    cases answer with
    | error status => rfl
    | ok leased =>
      cases leased with
      | none => rfl
      | some lease =>
        obtain ⟨d, run, back⟩ := session_on_loan dec self.decoder (inner_held z attempt)
        simp only [lent, Except.map, Option.map_some, run, back, Streaming.decodeWith]
        cases (dec.decoder.decode self.decoder (lease.view inner.buf)).result with
        | error status => rfl
        | ok made => cases made <;> rfl

theorem turn_checked (self : Streaming δ) :
    turnChecked dec z self = (self.turn dec.decoder z).shown some := by
  unfold turnChecked Streaming.turn
  rw [decode_chunk_checked]
  cases self.inner.state
  case error status => rfl
  all_goals
    cases self.decodeChunk dec.decoder z with
    | mk answer next =>
      cases answer with
      | error status => rfl
      | ok made =>
        cases made with
        | some item => rfl
        | none =>
          dsimp only
          cases next.inner.pollFrame with
          | mk frame inner =>
            cases frame with
            | pending => rfl
            | ready arrived =>
              cases arrived with
              | error status => rfl
              | ok more =>
                cases more with
                | some fed => rfl
                | none =>
                  dsimp only
                  cases inner.response with
                  | mk verdict inner => cases verdict <;> rfl

def checkedLoop : Loop (Option (Poll (Option (Except Status T)))) (Streaming δ) where
  turn := turnChecked dec z
  budget := Streaming.budget
  spends := by
    intro s t turn
    rw [turn_checked] at turn
    apply turn_spends dec.decoder z
    cases plain : s.turn dec.decoder z with
    | done result state =>
      rw [plain] at turn
      cases turn
    | again state =>
      rw [plain] at turn
      cases turn
      rfl

/-- A poll; `none` where it panics. -/
def pollNextChecked (self : Streaming δ) :
    Option (Poll (Option (Except Status T))) × Streaming δ :=
  (checkedLoop dec z).run self

theorem poll_next_checked (self : Streaming δ) :
    pollNextChecked dec z self =
      (some (self.pollNext dec.decoder z).1, (self.pollNext dec.decoder z).2) :=
  run_shown (Streaming.loop dec.decoder z) (checkedLoop dec z) some (turn_checked dec z) self

/-- The body a poll finds: the one before, gone on, or anything else a body may turn to. -/
def Streaming.offered (self : Streaming δ) (body : Option (Body Status)) : Streaming δ :=
  { self with inner := { self.inner with body := body.getD self.inner.body } }

def pollsChecked (self : Streaming δ) :
    List (Option (Body Status)) → Option (List (Poll (Option (Except Status T))) × Streaming δ)
  | [] => some ([], self)
  | body :: rest =>
    match pollNextChecked dec z (Streaming.offered self body) with
    | (none, _) => none
    | (some answer, next) =>
      match pollsChecked next rest with
      | none => none
      | some (later, last) => some (answer :: later, last)

/-- No poll panics and every decode buffer is backed for the whole of its session, from
    any state of the stream at all. -/
theorem receiving_never_panics (self : Streaming δ) :
    (∀ bodies, ∃ answers last, pollsChecked dec z self bodies = some (answers, last)) ∧
    (∃ answer next, decodeChunkChecked dec z self = some (answer, next)) ∧
    ∀ lender d inner, innerChecked z self.inner = some (.ok (some (lender, d)), inner) →
      d.Backed ∧ (dec.session self.decoder).StaysBacked d ∧
        ∃ given, (dec.session self.decoder).run d = some given := by
  refine ⟨?_, ⟨_, _, decode_chunk_checked dec z self⟩, ?_⟩
  · intro bodies
    induction bodies generalizing self with
    | nil => exact ⟨[], self, rfl⟩
    | cons body rest ih =>
      obtain ⟨later, last, run⟩ := ih ((Streaming.offered self body).pollNext dec.decoder z).2
      simp only [pollsChecked, poll_next_checked, run]
      exact ⟨_, _, rfl⟩
  · intro lender d inner attempt
    rw [inner_checked] at attempt
    cases plain : self.inner.decodeChunk z with
    | mk answer inner' =>
      rw [plain] at attempt
      cases answer with
      | error status => cases attempt
      | ok leased =>
        cases leased with
        | none => cases attempt
        | some lease =>
          have held := inner_held z plain
          have backed := loan_backed held
          obtain ⟨given, run, _⟩ := session_on_loan dec self.decoder held
          simp only [lent, Except.map, Option.map_some, Option.some.injEq, Prod.mk.injEq,
            Except.ok.injEq] at attempt
          obtain ⟨shown, rfl⟩ := attempt
          rw [shown] at backed run
          have window := backed_window backed
          have modest := dec.modest self.decoder _ backed
          rw [← window] at modest
          have stays := session_stays_backed _ _ modest
          rw [window] at stays
          exact ⟨backed, stays, _, run⟩

end Agreement

end CheckedReceiving
