import PureGrpc.StreamingScan

/-!
Which buffers a stream hands to its decoder. `noting` keeps a list of them beside
a decoder's own state and otherwise does what the decoder does. Of the unread
bytes, what is handed over is the payload of the frame at the front, decompressed,
once it is complete and accepted.
-/
namespace DecoderCalls
open LengthFraming GrpcStatus GrpcCompression GrpcCodec PolledMachines HttpBodies
open MessageEncoding StreamingDecode StreamingScan

variable {δ T : Type} (dec : Decoder δ T) (z : Compressors)

def noting : Decoder (δ × List Bytes) T where
  decode d view :=
    ⟨(dec.decode d.1 view).result, (dec.decode d.1 view).consumed,
      ((dec.decode d.1 view).next, d.2 ++ [view])⟩
  bounded d view := dec.bounded d.1 view

section Payloads
variable (encoding : Option CompressionEncoding) (maxMessageSize : Option Nat)

def handedBody (compression : Option CompressionEncoding) (len : Nat) (bytes : Bytes) :
    Option Bytes :=
  if bytes.length < len then none
  else match compression with
    | none => some (bytes.take len)
    | some encoding => (z.decompress encoding (bytes.take len)).toOption

def handed (bytes : Bytes) : Option Bytes :=
  match LengthFraming.readHeader bytes with
  | none => none
  | some (flag, len, rest) =>
    match compressionOf encoding flag with
    | .error _ => none
    | .ok compression =>
      match lengthWithin maxMessageSize len with
      | .error _ => none
      | .ok () => handedBody z compression len rest

/-- A payload is handed over behind a header that passed its checks, as it came or
    decompressed. -/
theorem handed_some {bytes view : Bytes} (hands : handed z encoding maxMessageSize bytes = some view) :
    ∃ flag len rest compression, LengthFraming.readHeader bytes = some (flag, len, rest) ∧
      compressionOf encoding flag = .ok compression ∧ lengthWithin maxMessageSize len = .ok () ∧
      ¬ rest.length < len ∧
      (compression = none ∧ rest.take len = view ∨
        ∃ encoding, compression = some encoding ∧
          z.decompress encoding (rest.take len) = .ok view) := by
  cases header : LengthFraming.readHeader bytes with
  | none => simp only [handed, header, reduceCtorEq] at hands
  | some triple =>
    obtain ⟨flag, len, rest⟩ := triple
    cases flagged : compressionOf encoding flag with
    | error status => simp only [handed, header, flagged, reduceCtorEq] at hands
    | ok compression =>
      cases within : lengthWithin maxMessageSize len with
      | error status => simp only [handed, header, flagged, within, reduceCtorEq] at hands
      | ok _ =>
        simp only [handed, header, flagged, within, handedBody] at hands
        by_cases fewer : rest.length < len
        · simp only [fewer, if_true, reduceCtorEq] at hands
        · simp only [fewer, if_false] at hands
          refine ⟨flag, len, rest, compression, rfl, flagged, within, fewer, ?_⟩
          cases compression with
          | none => exact .inl ⟨rfl, Option.some.inj hands⟩
          | some encoding =>
            cases unpacked : z.decompress encoding (rest.take len) with
            | error err => simp [unpacked, Except.toOption] at hands
            | ok plain =>
              simp only [unpacked, Except.toOption, Option.some.injEq] at hands
              exact .inr ⟨encoding, rfl, by rw [unpacked, hands]⟩

/-- Scanning shows any decoder this payload, and nothing else of the bytes. -/
theorem scan_handed {bytes view : Bytes} (hands : handed z encoding maxMessageSize bytes = some view) :
    ∃ rest, ∀ {δ T : Type} (dec : Decoder δ T) (d : δ),
      scanFrame dec z encoding maxMessageSize d bytes = scanPayload dec d view rest := by
  obtain ⟨flag, len, rest, compression, header, flagged, within, enough, shown⟩ :=
    handed_some z encoding maxMessageSize hands
  simp only [scanFrame, header, flagged, within, scanBody, enough, if_false]
  rcases shown with ⟨rfl, rfl⟩ | ⟨encoding, rfl, unpacked⟩
  · exact ⟨_, fun dec d => rfl⟩
  · simp only [unpacked]
    exact ⟨_, fun dec d => rfl⟩

theorem scan_unhanded {bytes : Bytes} (hides : handed z encoding maxMessageSize bytes = none) :
    (∀ {δ T : Type} (dec : Decoder δ T) (d : δ),
      scanFrame dec z encoding maxMessageSize d bytes = .short) ∨
    ∃ status, ∀ {δ T : Type} (dec : Decoder δ T) (d : δ),
      scanFrame dec z encoding maxMessageSize d bytes = .bad status := by
  cases header : LengthFraming.readHeader bytes with
  | none =>
    left
    intro δ T dec d
    simp only [scanFrame, header]
  | some triple =>
    obtain ⟨flag, len, rest⟩ := triple
    cases flagged : compressionOf encoding flag with
    | error status =>
      refine .inr ⟨status, ?_⟩
      intro δ T dec d
      simp only [scanFrame, header, flagged]
    | ok compression =>
      cases within : lengthWithin maxMessageSize len with
      | error status =>
        refine .inr ⟨status, ?_⟩
        intro δ T dec d
        simp only [scanFrame, header, flagged, within]
      | ok _ =>
        simp only [handed, header, flagged, within, handedBody] at hides
        by_cases fewer : rest.length < len
        · left
          intro δ T dec d
          simp only [scanFrame, header, flagged, within, scanBody, fewer, if_true]
        · simp only [fewer, if_false] at hides
          cases compression with
          | none => cases hides
          | some encoding =>
            dsimp only at hides
            cases unpacked : z.decompress encoding (rest.take len) with
            | error err =>
              refine .inr ⟨.internal ("decompression error: " ++ err), ?_⟩
              intro δ T dec d
              simp only [scanFrame, header, flagged, within, scanBody, fewer, unpacked, if_false]
            | ok plain => simp [unpacked, Except.toOption] at hides

end Payloads

def leaseView : Except Status (Option Lease) × StreamingInner → Option Bytes
  | (.ok (some lease), next) => some (lease.view next.buf)
  | (.ok none, _) => none
  | (.error _, _) => none

theorem decode_body_hands (inner : StreamingInner) (compression : Option CompressionEncoding)
    (len : Nat) :
    leaseView (inner.decodeBody z compression len) = handedBody z compression len inner.buf := by
  unfold StreamingInner.decodeBody handedBody
  split
  · rfl
  · cases compression with
    | none => rfl
    | some encoding =>
      dsimp only
      cases z.decompress encoding (inner.buf.take len) <;> rfl

theorem inner_decode_chunk_hands (inner : StreamingInner) (taken : Taken inner) :
    leaseView (inner.decodeChunk z) =
      handed z inner.encoding inner.maxMessageSize (unread inner) := by
  have exit := attempted z inner
  generalize inner.decodeChunk z = outcome at exit ⊢
  cases exit with
  | closed state => simp [Taken, state] at taken
  | resumed state =>
    simp only [Taken, state] at taken
    obtain ⟨flagged, within, fits⟩ := taken
    simp only [handed, unread, state, read_header_write _ _ fits, flagged, within, decode_body_hands]
  | short state header => simp only [handed, unread, state, header, leaseView]
  | badFlag state header flagged => simp only [handed, unread, state, header, flagged, leaseView]
  | tooLong state header flagged within =>
    simp only [handed, unread, state, header, flagged, within, leaseView]
  | entered state header flagged within =>
    simp only [handed, unread, state, header, flagged, within, decode_body_hands]

def after (decoder : δ) : Option Bytes → δ
  | none => decoder
  | some view => (dec.decode decoder view).next

theorem decode_chunk_decoder (self : Streaming δ) (taken : Taken self.inner) :
    (self.decodeChunk dec z).2.decoder = after dec self.decoder
      (handed z self.inner.encoding self.inner.maxMessageSize (unread self.inner)) := by
  rw [← inner_decode_chunk_hands z self.inner taken]
  have exit := decoded dec z self
  generalize self.decodeChunk dec z = outcome at exit ⊢
  cases exit with
  | refused attempt => rw [attempt, leaseView, after]
  | short attempt => rw [attempt, leaseView, after]
  | failed attempt shown result => rw [attempt, leaseView, after, shown]
  | withheld attempt shown result => rw [attempt, leaseView, after, shown]
  | made attempt shown result => rw [attempt, leaseView, after, shown]

theorem decode_body_taken (inner : StreamingInner) (compression : Option CompressionEncoding)
    (len : Nat) (taken : Taken inner) : Taken (inner.decodeBody z compression len).2 := by
  unfold StreamingInner.decodeBody
  repeat' split
  all_goals exact taken

theorem inner_decode_chunk_taken (inner : StreamingInner) (taken : Taken inner) :
    Taken (inner.decodeChunk z).2 := by
  have exit := attempted z inner
  generalize inner.decodeChunk z = outcome at exit ⊢
  cases exit with
  | closed state => exact taken
  | resumed state => exact decode_body_taken z _ _ _ taken
  | short state header => exact taken
  | badFlag state header flagged => simp only [Taken, state]
  | tooLong state header flagged within => simp only [Taken, state]
  | entered state header flagged within =>
    apply decode_body_taken
    simp only [Taken, compression_flag_of _ flagged]
    exact ⟨flagged, within, (read_header_some header).1⟩

theorem decode_chunk_taken (self : Streaming δ) (taken : Taken self.inner) :
    Taken (self.decodeChunk dec z).2.inner := by
  have kept := inner_decode_chunk_taken z self.inner taken
  have exit := decoded dec z self
  generalize self.decodeChunk dec z = outcome at exit ⊢
  cases exit with
  | refused attempt => simpa only [attempt] using kept
  | short attempt => simpa only [attempt] using kept
  | failed attempt shown result =>
    rw [attempt] at kept
    exact kept
  | withheld attempt shown result =>
    rw [attempt] at kept
    exact kept
  | made attempt shown result => trivial

/-- A stream whose header, if it has taken one, was checked, or that is closed by an error. -/
def Checked (inner : StreamingInner) : Prop := Taken inner ∨ inner.state.isError = true

structure KeepsSettings (before after : StreamingInner) : Prop where
  checked : Checked before → Checked after
  encoding : after.encoding = before.encoding
  maxMessageSize : after.maxMessageSize = before.maxMessageSize

theorem poll_frame_keeps (inner : StreamingInner) : KeepsSettings inner inner.pollFrame.2 := by
  unfold StreamingInner.pollFrame
  repeat' split
  all_goals first
    | exact ⟨id, rfl, rfl⟩
    | exact ⟨fun _ => .inr rfl, rfl, rfl⟩

theorem response_keeps (inner : StreamingInner) : KeepsSettings inner inner.response.2 := by
  unfold StreamingInner.response
  repeat' split
  all_goals exact ⟨id, rfl, rfl⟩

theorem decode_chunk_keeps (self : Streaming δ) (running : self.inner.state.isError = false) :
    KeepsSettings self.inner (self.decodeChunk dec z).2.inner := by
  have same := decode_chunk_same dec z self
  refine ⟨?_, same.encoding, same.maxMessageSize⟩
  rintro (taken | failed)
  · exact .inl (decode_chunk_taken dec z self taken)
  · rw [running] at failed
    cases failed

theorem keeps_settings_trans {a b c : StreamingInner} (first : KeepsSettings a b)
    (second : KeepsSettings b c) : KeepsSettings a c :=
  ⟨second.checked ∘ first.checked, second.encoding.trans first.encoding,
    second.maxMessageSize.trans first.maxMessageSize⟩

section Exits
variable {self t : Streaming δ} {inner answered : StreamingInner}

theorem attempt_keeps {result : Except Status (Option T)}
    (running : self.inner.state.isError = false) (attempt : self.decodeChunk dec z = (result, t)) :
    KeepsSettings self.inner t.inner := by
  have kept := decode_chunk_keeps dec z self running
  rw [attempt] at kept
  exact kept

theorem fetch_keeps {frame : Poll (Except Status (Option Unit))}
    (running : self.inner.state.isError = false) (attempt : self.decodeChunk dec z = (.ok none, t))
    (fetched : t.inner.pollFrame = (frame, inner)) : KeepsSettings self.inner inner := by
  have later := poll_frame_keeps t.inner
  rw [fetched] at later
  exact keeps_settings_trans (attempt_keeps dec z running attempt) later

theorem answer_keeps {frame : Poll (Except Status (Option Unit))} {good : Except Status Unit}
    (running : self.inner.state.isError = false) (attempt : self.decodeChunk dec z = (.ok none, t))
    (fetched : t.inner.pollFrame = (frame, inner)) (answer : inner.response = (good, answered)) :
    KeepsSettings self.inner answered := by
  have last := response_keeps inner
  rw [answer] at last
  exact keeps_settings_trans (fetch_keeps dec z running attempt fetched) last

end Exits

/-- One turn calls the decoder at most once, in its attempt to decode. -/
theorem turn_decoder (self : Streaming δ) :
    KeepsSettings self.inner (self.turn dec z).state.inner ∧
      (self.turn dec z).state.decoder =
        if self.inner.state.isError then self.decoder else (self.decodeChunk dec z).2.decoder := by
  have exit := turned dec z self
  generalize self.turn dec z = turn at exit ⊢
  cases exit with
  | errored state =>
    refine ⟨⟨fun _ => .inr rfl, rfl, rfl⟩, ?_⟩
    simp [state, State.isError, Turn.state]
  | rejected running attempt =>
    exact ⟨attempt_keeps dec z running attempt, by simp [running, attempt, Turn.state]⟩
  | decoded running attempt =>
    exact ⟨attempt_keeps dec z running attempt, by simp [running, attempt, Turn.state]⟩
  | waits running attempt frame =>
    exact ⟨fetch_keeps dec z running attempt frame, by simp [running, attempt, Turn.state]⟩
  | fails running attempt frame =>
    exact ⟨fetch_keeps dec z running attempt frame, by simp [running, attempt, Turn.state]⟩
  | feeds running attempt frame =>
    exact ⟨fetch_keeps dec z running attempt frame, by simp [running, attempt, Turn.state]⟩
  | ends running attempt frame answer =>
    exact ⟨answer_keeps dec z running attempt frame answer, by simp [running, attempt, Turn.state]⟩
  | @refused t inner err answered running attempt frame answer =>
    have kept := answer_keeps dec z running attempt frame answer
    have closed : KeepsSettings answered { answered with state := .error (some err) } :=
      ⟨fun _ => .inr rfl, rfl, rfl⟩
    exact ⟨keeps_settings_trans kept closed, by simp [running, attempt, Turn.state]⟩

end DecoderCalls
