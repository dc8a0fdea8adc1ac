import PureGrpc.GrpcCodec
import PureGrpc.HttpBodies

/-!
The receiving side: a stream of messages over an HTTP body. The state says
whether a frame header or the payload of a header already taken is next. A poll
is a loop that tries to decode, then asks the body for more; each further turn
uses up a data frame of the body or enters the error state, so a poll ends.
-/
namespace StreamingDecode
open KeyedMultimap LengthFraming GrpcMetadata GrpcStatus GrpcCompression GrpcCodec PolledMachines
open HttpBodies

inductive State where
  | readHeader
  | readBody (compression : Option CompressionEncoding) (len : Nat)
  | error (status : Option Status)
  deriving DecidableEq, Repr

inductive Direction where
  | request
  | response (statusCode : Nat)
  | emptyResponse
  deriving DecidableEq, Repr

/-- Errors of the body are statuses: they are mapped when the stream is made. -/
structure StreamingInner where
  body : Body Status
  state : State
  direction : Direction
  buf : Bytes
  trailers : Option HeaderMap
  encoding : Option CompressionEncoding
  maxMessageSize : Option Nat

structure Streaming (δ : Type) where
  decoder : δ
  inner : StreamingInner

variable {δ T : Type}

def Streaming.new (decoder : δ) (body : Body Status) (direction : Direction)
    (encoding : Option CompressionEncoding) (maxMessageSize : Option Nat) : Streaming δ :=
  ⟨decoder, ⟨body, .readHeader, direction, [], none, encoding, maxMessageSize⟩⟩

def Streaming.newResponse (decoder : δ) (body : Body Status) (statusCode : Nat)
    (encoding : Option CompressionEncoding) (maxMessageSize : Option Nat) : Streaming δ :=
  .new decoder body (.response statusCode) encoding maxMessageSize

def Streaming.newEmpty (decoder : δ) (body : Body Status) : Streaming δ :=
  .new decoder body .emptyResponse none none

def Streaming.newRequest (decoder : δ) (body : Body Status)
    (encoding : Option CompressionEncoding) (maxMessageSize : Option Nat) : Streaming δ :=
  .new decoder body .request encoding maxMessageSize

/-- Where the bytes of a decode buffer lie: at the front of the stream's own
    buffer, or in the buffer the payload was decompressed into. -/
inductive Lease where
  | shared (len : Nat)
  | decompressed (bytes : Bytes)

def Lease.view (buf : Bytes) : Lease → Bytes
  | .shared len => decodeBuf buf len
  | .decompressed bytes => bytes

def Lease.remaining (buf : Bytes) (consumed : Nat) : Lease → Bytes
  | .shared _ => buf.drop consumed
  | .decompressed _ => buf

def compressionOf (encoding : Option CompressionEncoding) (compressionFlag : UInt8) :
    Except Status (Option CompressionEncoding) :=
  if compressionFlag = 0 then .ok none
  else if compressionFlag = 1 then
    match encoding with
    | some encoding => .ok (some encoding)
    | none => .error
        (.internal "compressed message received but no grpc-encoding was specified")
  else .error (.internal
    ("invalid compression flag: " ++ toString compressionFlag.toNat ++ " (valid: 0 or 1)"))

def lengthWithin (maxMessageSize : Option Nat) (len : Nat) : Except Status Unit :=
  let limit := maxMessageSize.getD defaultMaxRecvMessageSize
  if limit < len then
    .error (.outOfRange ("Error, decoded message length too large: found " ++ toString len ++
      " bytes, the limit is: " ++ toString limit ++ " bytes"))
  else .ok ()

theorem length_within_iff (maxMessageSize : Option Nat) (len : Nat) :
    lengthWithin maxMessageSize len = .ok () ↔
      len ≤ maxMessageSize.getD defaultMaxRecvMessageSize := by
  unfold lengthWithin
  dsimp only
  split
  · simp only [reduceCtorEq, false_iff]
    omega
  · simp only [true_iff]
    omega

theorem length_within_ok {maxMessageSize : Option Nat} {len : Nat}
    (fits : len ≤ maxMessageSize.getD defaultMaxRecvMessageSize) :
    lengthWithin maxMessageSize len = .ok () :=
  (length_within_iff maxMessageSize len).mpr fits

section Inner
variable (z : Compressors)

def StreamingInner.decodeBody (self : StreamingInner) (compression : Option CompressionEncoding)
    (len : Nat) : Except Status (Option Lease) × StreamingInner :=
  if self.buf.length < len then (.ok none, self)
  else
    match compression with
    | none => (.ok (some (.shared len)), self)
    | some encoding =>
      match z.decompress encoding (self.buf.take len) with
      | .error err => (.error (.internal ("decompression error: " ++ err)), self)
      | .ok bytes => (.ok (some (.decompressed bytes)), { self with buf := self.buf.drop len })

/-- A bad flag has cost the flag byte when the error is returned, a length over the
    limit the whole header; the state stays as it was. -/
def StreamingInner.decodeChunk (self : StreamingInner) :
    Except Status (Option Lease) × StreamingInner :=
  match self.state with
  | .error _ => (.ok none, self)
  | .readBody compression len => self.decodeBody z compression len
  | .readHeader =>
    match LengthFraming.readHeader self.buf with
    | none => (.ok none, self)
    | some (flag, len, rest) =>
      match compressionOf self.encoding flag with
      | .error status => (.error status, { self with buf := self.buf.drop 1 })
      | .ok compression =>
        match lengthWithin self.maxMessageSize len with
        | .error status => (.error status, { self with buf := rest })
        | .ok () => { self with buf := rest, state := .readBody compression len }.decodeBody z
            compression len

/-- More bytes, or none when the body is over. -/
def StreamingInner.pollFrame (self : StreamingInner) :
    Poll (Except Status (Option Unit)) × StreamingInner :=
  match self.body.pollFrame with
  | (.pending, body) => (.pending, { self with body })
  | (.ready (some (.ok (.data bytes))), body) =>
    (.ready (.ok (some ())), { self with body, buf := self.buf ++ bytes })
  | (.ready (some (.ok (.trailers map))), body) =>
    (.ready (.ok none), { self with
      body, trailers := some (match self.trailers with | some old => extend old map | none => map) })
  | (.ready (some (.error status)), body) =>
    if self.direction = .request ∧ status.code = .cancelled then
      (.ready (.ok none), { self with body })
    else (.ready (.error status), { self with body, state := .error (some status) })
  | (.ready none, body) =>
    if self.buf ≠ [] then
      (.ready (.error (.internal "Unexpected EOF decoding stream.")), { self with body })
    else (.ready (.ok none), { self with body })

def StreamingInner.response (self : StreamingInner) : Except Status Unit × StreamingInner :=
  match self.direction with
  | .response statusCode =>
    match inferGrpcStatus self.trailers statusCode with
    | .error (some e) => (.error e, { self with trailers := none })
    | _ => (.ok (), self)
  | _ => (.ok (), self)

end Inner

section Stream
variable (dec : Decoder δ T) (z : Compressors)

/-- The decoder runs on the view; a message makes the next header due. -/
def Streaming.decodeWith (self : Streaming δ) (lease : Lease) :
    Except Status (Option T) × Streaming δ :=
  let call := dec.decode self.decoder (lease.view self.inner.buf)
  let inner := { self.inner with buf := lease.remaining self.inner.buf call.consumed }
  match call.result with
  | .error status => (.error status, ⟨call.next, inner⟩)
  | .ok none => (.ok none, ⟨call.next, inner⟩)
  | .ok (some msg) => (.ok (some msg), ⟨call.next, { inner with state := .readHeader }⟩)

def Streaming.decodeChunk (self : Streaming δ) : Except Status (Option T) × Streaming δ :=
  match self.inner.decodeChunk z with
  | (.error status, inner) => (.error status, { self with inner })
  | (.ok none, inner) => (.ok none, { self with inner })
  | (.ok (some lease), inner) => { self with inner }.decodeWith dec lease

def Streaming.turn (self : Streaming δ) :
    Turn (Poll (Option (Except Status T))) (Streaming δ) :=
  match self.inner.state with
  | .error status =>
    .done (.ready (status.map .error)) { self with inner := { self.inner with state := .error none } }
  | _ =>
    match self.decodeChunk dec z with
    | (.error status, self) => .done (.ready (some (.error status))) self
    | (.ok (some item), self) => .done (.ready (some (.ok item))) self
    | (.ok none, self) =>
      match self.inner.pollFrame with
      | (.pending, inner) => .done .pending { self with inner }
      | (.ready (.error status), inner) =>
        .done (.ready (some (.error status))) { self with inner }
      | (.ready (.ok (some ())), inner) => .again { self with inner }
      | (.ready (.ok none), inner) =>
        match inner.response with
        | (.ok (), inner) => .done (.ready none) { self with inner }
        | (.error err, inner) =>
          .again { self with inner := { inner with state := .error (some err) } }

/-- What a decoding attempt cannot touch. -/
structure SameSource (before after : StreamingInner) : Prop where
  body : after.body = before.body
  direction : after.direction = before.direction
  trailers : after.trailers = before.trailers
  encoding : after.encoding = before.encoding
  maxMessageSize : after.maxMessageSize = before.maxMessageSize

theorem same_source_refl (self : StreamingInner) : SameSource self self :=
  ⟨rfl, rfl, rfl, rfl, rfl⟩

theorem decode_body_same (self : StreamingInner) (compression : Option CompressionEncoding)
    (len : Nat) : SameSource self (self.decodeBody z compression len).2 := by
  unfold StreamingInner.decodeBody
  repeat' split
  all_goals exact ⟨rfl, rfl, rfl, rfl, rfl⟩

inductive Attempted (self : StreamingInner) : Except Status (Option Lease) × StreamingInner → Prop where
  | closed {status} (state : self.state = .error status) : Attempted self (.ok none, self)
  | resumed {compression len} (state : self.state = .readBody compression len) :
      Attempted self (self.decodeBody z compression len)
  | short (state : self.state = .readHeader)
      (header : LengthFraming.readHeader self.buf = none) : Attempted self (.ok none, self)
  | badFlag {flag len rest status} (state : self.state = .readHeader)
      (header : LengthFraming.readHeader self.buf = some (flag, len, rest))
      (flagged : compressionOf self.encoding flag = .error status) :
      Attempted self (.error status, { self with buf := self.buf.drop 1 })
  | tooLong {flag len rest compression status} (state : self.state = .readHeader)
      (header : LengthFraming.readHeader self.buf = some (flag, len, rest))
      (flagged : compressionOf self.encoding flag = .ok compression)
      (within : lengthWithin self.maxMessageSize len = .error status) :
      Attempted self (.error status, { self with buf := rest })
  | entered {flag len rest compression} (state : self.state = .readHeader)
      (header : LengthFraming.readHeader self.buf = some (flag, len, rest))
      (flagged : compressionOf self.encoding flag = .ok compression)
      (within : lengthWithin self.maxMessageSize len = .ok ()) :
      Attempted self ({ self with buf := rest, state := .readBody compression len }.decodeBody z
        compression len)

theorem attempted (self : StreamingInner) : Attempted z self (self.decodeChunk z) := by
  unfold StreamingInner.decodeChunk
  split
  · exact .closed (by assumption)
  · exact .resumed (by assumption)
  · split
    · exact .short (by assumption) (by assumption)
    · split
      · exact .badFlag (by assumption) (by assumption) (by assumption)
      · split
        · exact .tooLong (by assumption) (by assumption) (by assumption) (by assumption)
        · exact .entered (by assumption) (by assumption) (by assumption) (by assumption)

theorem inner_decode_chunk_same (self : StreamingInner) :
    SameSource self (self.decodeChunk z).2 := by
  have exit := attempted z self
  generalize self.decodeChunk z = outcome at exit ⊢
  cases exit with
  | closed state => exact same_source_refl self
  | resumed state => exact decode_body_same z self _ _
  | short state header => exact same_source_refl self
  | badFlag state header flagged => exact ⟨rfl, rfl, rfl, rfl, rfl⟩
  | tooLong state header flagged within => exact ⟨rfl, rfl, rfl, rfl, rfl⟩
  | @entered flag len rest compression state header flagged within =>
    have taken := decode_body_same z
      { self with buf := rest, state := .readBody compression len } compression len
    exact ⟨taken.body, taken.direction, taken.trailers, taken.encoding, taken.maxMessageSize⟩

/-- How an attempt comes out for the decoder: it has not seen a payload, or it has
    and the next header is due only if it made a message. -/
inductive Decoded (self : Streaming δ) : Except Status (Option T) × Streaming δ → Prop where
  | refused {status inner} (attempt : self.inner.decodeChunk z = (.error status, inner)) :
      Decoded self (.error status, { self with inner })
  | short {inner} (attempt : self.inner.decodeChunk z = (.ok none, inner)) :
      Decoded self (.ok none, { self with inner })
  | failed {lease inner call status}
      (attempt : self.inner.decodeChunk z = (.ok (some lease), inner))
      (shown : dec.decode self.decoder (lease.view inner.buf) = call)
      (result : call.result = .error status) :
      Decoded self (.error status,
        ⟨call.next, { inner with buf := lease.remaining inner.buf call.consumed }⟩)
  | withheld {lease inner call}
      (attempt : self.inner.decodeChunk z = (.ok (some lease), inner))
      (shown : dec.decode self.decoder (lease.view inner.buf) = call)
      (result : call.result = .ok none) :
      Decoded self (.ok none,
        ⟨call.next, { inner with buf := lease.remaining inner.buf call.consumed }⟩)
  | made {lease inner call msg}
      (attempt : self.inner.decodeChunk z = (.ok (some lease), inner))
      (shown : dec.decode self.decoder (lease.view inner.buf) = call)
      (result : call.result = .ok (some msg)) :
      Decoded self (.ok (some msg), ⟨call.next,
        { inner with buf := lease.remaining inner.buf call.consumed, state := .readHeader }⟩)

theorem decoded (self : Streaming δ) : Decoded dec z self (self.decodeChunk dec z) := by
  unfold Streaming.decodeChunk
  split
  · exact .refused (by assumption)
  · exact .short (by assumption)
  · unfold Streaming.decodeWith
    dsimp only
    split
    · exact .failed (by assumption) rfl (by assumption)
    · exact .withheld (by assumption) rfl (by assumption)
    · exact .made (by assumption) rfl (by assumption)

theorem decode_chunk_same (self : Streaming δ) :
    SameSource self.inner (self.decodeChunk dec z).2.inner := by
  have same := inner_decode_chunk_same z self.inner
  have exit := decoded dec z self
  generalize self.decodeChunk dec z = outcome at exit ⊢
  cases exit with
  | refused attempt =>
    rw [attempt] at same
    exact same
  | short attempt =>
    rw [attempt] at same
    exact same
  | failed attempt result =>
    rw [attempt] at same
    exact ⟨same.body, same.direction, same.trailers, same.encoding, same.maxMessageSize⟩
  | withheld attempt result =>
    rw [attempt] at same
    exact ⟨same.body, same.direction, same.trailers, same.encoding, same.maxMessageSize⟩
  | made attempt result =>
    rw [attempt] at same
    exact ⟨same.body, same.direction, same.trailers, same.encoding, same.maxMessageSize⟩

def State.isError : State → Bool
  | .error _ => true
  | _ => false

inductive Turned (self : Streaming δ) :
    Turn (Poll (Option (Except Status T))) (Streaming δ) → Prop where
  | errored {status} (state : self.inner.state = .error status) :
      Turned self (.done (.ready (status.map .error))
        { self with inner := { self.inner with state := .error none } })
  | rejected {status t} (running : self.inner.state.isError = false)
      (attempt : self.decodeChunk dec z = (.error status, t)) :
      Turned self (.done (.ready (some (.error status))) t)
  | decoded {msg t} (running : self.inner.state.isError = false)
      (attempt : self.decodeChunk dec z = (.ok (some msg), t)) :
      Turned self (.done (.ready (some (.ok msg))) t)
  | waits {t inner} (running : self.inner.state.isError = false)
      (attempt : self.decodeChunk dec z = (.ok none, t))
      (frame : t.inner.pollFrame = (.pending, inner)) :
      Turned self (.done .pending { t with inner })
  | fails {t status inner} (running : self.inner.state.isError = false)
      (attempt : self.decodeChunk dec z = (.ok none, t))
      (frame : t.inner.pollFrame = (.ready (.error status), inner)) :
      Turned self (.done (.ready (some (.error status))) { t with inner })
  | feeds {t inner} (running : self.inner.state.isError = false)
      (attempt : self.decodeChunk dec z = (.ok none, t))
      (frame : t.inner.pollFrame = (.ready (.ok (some ())), inner)) :
      Turned self (.again { t with inner })
  | ends {t inner answered} (running : self.inner.state.isError = false)
      (attempt : self.decodeChunk dec z = (.ok none, t))
      (frame : t.inner.pollFrame = (.ready (.ok none), inner))
      (answer : inner.response = (.ok (), answered)) :
      Turned self (.done (.ready none) { t with inner := answered })
  | refused {t inner err answered} (running : self.inner.state.isError = false)
      (attempt : self.decodeChunk dec z = (.ok none, t))
      (frame : t.inner.pollFrame = (.ready (.ok none), inner))
      (answer : inner.response = (.error err, answered)) :
      Turned self (.again { t with inner := { answered with state := .error (some err) } })

theorem turned (self : Streaming δ) : Turned dec z self (self.turn dec z) := by
  unfold Streaming.turn
  split
  · rename_i state
    exact .errored state
  · rename_i alive
    have running : self.inner.state.isError = false := by
      cases state : self.inner.state with
      | error status => exact absurd state (alive status)
      | readHeader => rfl
      | readBody compression len => rfl
    split
    · exact .rejected running (by assumption)
    · exact .decoded running (by assumption)
    · split
      · exact .waits running (by assumption) (by assumption)
      · exact .fails running (by assumption) (by assumption)
      · exact .feeds running (by assumption) (by assumption)
      · split
        · exact .ends running (by assumption) (by assumption) (by assumption)
        · exact .refused running (by assumption) (by assumption) (by assumption)

/-- Data frames still to come, and whether the error state can still be entered. -/
def Streaming.budget (self : Streaming δ) : Nat :=
  2 * self.inner.body.chunks.length + (if self.inner.state.isError then 0 else 1)

theorem poll_frame_shrinks (self : StreamingInner) :
    self.pollFrame.2.body.chunks.length ≤ self.body.chunks.length ∧
      (self.pollFrame.1 = .ready (.ok (some ())) ∨ self.pollFrame.1 = .pending →
        self.pollFrame.2.body.chunks.length < self.body.chunks.length) := by
  obtain ⟨⟨chunks, tail⟩, state, direction, buf, trailers, encoding, size⟩ := self
  cases chunks with
  | cons chunk rest => cases chunk <;> simp [StreamingInner.pollFrame, Body.pollFrame]
  | nil =>
    cases tail with
    | eof =>
      simp only [StreamingInner.pollFrame, Body.pollFrame]
      split <;> simp
    | trailers map => simp [StreamingInner.pollFrame, Body.pollFrame]
    | error status =>
      simp only [StreamingInner.pollFrame, Body.pollFrame]
      split <;> simp

theorem response_same_body (self : StreamingInner) : self.response.2.body = self.body := by
  unfold StreamingInner.response
  repeat' split
  all_goals rfl

theorem turn_spends {self next : Streaming δ} (turn : self.turn dec z = .again next) :
    next.budget < self.budget := by
  have same := (decode_chunk_same dec z self).body
  have exit := turned dec z self
  rw [turn] at exit
  cases exit with
  | @feeds t inner running attempt frame =>
    have fewer := (poll_frame_shrinks t.inner).2
    rw [attempt] at same
    rw [frame, same] at fewer
    have less : inner.body.chunks.length < self.inner.body.chunks.length := fewer (.inl rfl)
    simp only [Streaming.budget, running]
    split <;> simp <;> omega
  | @refused t inner err answered running attempt frame answer =>
    have shorter := (poll_frame_shrinks t.inner).1
    have kept := response_same_body inner
    rw [attempt] at same
    rw [frame, same] at shorter
    rw [answer] at kept
    have fewer : answered.body.chunks.length ≤ self.inner.body.chunks.length := kept ▸ shorter
    simp only [Streaming.budget, running]
    simp [State.isError]
    omega

def Streaming.loop : Loop (Poll (Option (Except Status T))) (Streaming δ) :=
  ⟨Streaming.turn dec z, Streaming.budget, turn_spends dec z⟩

def Streaming.pollNext (self : Streaming δ) :
    Poll (Option (Except Status T)) × Streaming δ :=
  (Streaming.loop dec z).run self

theorem poll_errored {self : Streaming δ} {status : Option Status}
    (state : self.inner.state = .error status) :
    self.pollNext dec z = (.ready (status.map .error),
      { self with inner := { self.inner with state := .error none } }) := by
  apply run_done
  simp only [Streaming.loop, Streaming.turn, state]

section Running
variable {self decoded : Streaming δ} (running : self.inner.state.isError = false)
include running

theorem turn_running : self.turn dec z =
    match self.decodeChunk dec z with
    | (.error status, self) => .done (.ready (some (.error status))) self
    | (.ok (some item), self) => .done (.ready (some (.ok item))) self
    | (.ok none, self) =>
      match self.inner.pollFrame with
      | (.pending, inner) => .done .pending { self with inner }
      | (.ready (.error status), inner) =>
        .done (.ready (some (.error status))) { self with inner }
      | (.ready (.ok (some ())), inner) => .again { self with inner }
      | (.ready (.ok none), inner) =>
        match inner.response with
        | (.ok (), inner) => .done (.ready none) { self with inner }
        | (.error err, inner) =>
          .again { self with inner := { inner with state := .error (some err) } } := by
  cases state : self.inner.state with
  | error status => simp [State.isError, state] at running
  | readHeader => simp only [Streaming.turn, state]
  | readBody compression len => simp only [Streaming.turn, state]

theorem poll_decoded {item : T}
    (attempt : self.decodeChunk dec z = (.ok (some item), decoded)) :
    self.pollNext dec z = (.ready (some (.ok item)), decoded) := by
  apply run_done
  simp only [Streaming.loop, turn_running dec z running, attempt]

theorem poll_rejected {status : Status}
    (attempt : self.decodeChunk dec z = (.error status, decoded)) :
    self.pollNext dec z = (.ready (some (.error status)), decoded) := by
  apply run_done
  simp only [Streaming.loop, turn_running dec z running, attempt]

variable {inner answered : StreamingInner} (attempt : self.decodeChunk dec z = (.ok none, decoded))
include attempt

theorem poll_waits (frame : decoded.inner.pollFrame = (.pending, inner)) :
    self.pollNext dec z = (.pending, { decoded with inner }) := by
  apply run_done
  simp only [Streaming.loop, turn_running dec z running, attempt, frame]

theorem poll_feeds (frame : decoded.inner.pollFrame = (.ready (.ok (some ())), inner)) :
    self.pollNext dec z = Streaming.pollNext dec z { decoded with inner } := by
  apply run_again
  simp only [Streaming.loop, turn_running dec z running, attempt, frame]

theorem poll_fails {status : Status}
    (frame : decoded.inner.pollFrame = (.ready (.error status), inner)) :
    self.pollNext dec z = (.ready (some (.error status)), { decoded with inner }) := by
  apply run_done
  simp only [Streaming.loop, turn_running dec z running, attempt, frame]

theorem poll_ends (frame : decoded.inner.pollFrame = (.ready (.ok none), inner))
    (answer : inner.response = (.ok (), answered)) :
    self.pollNext dec z = (.ready none, { decoded with inner := answered }) := by
  apply run_done
  simp only [Streaming.loop, turn_running dec z running, attempt, frame, answer]

theorem poll_refused {err : Status}
    (frame : decoded.inner.pollFrame = (.ready (.ok none), inner))
    (answer : inner.response = (.error err, answered)) :
    self.pollNext dec z = (.ready (some (.error err)),
      { decoded with inner := { answered with state := .error none } }) := by
  have again : self.pollNext dec z = Streaming.pollNext dec z
      { decoded with inner := { answered with state := .error (some err) } } := by
    apply run_again
    simp only [Streaming.loop, turn_running dec z running, attempt, frame, answer]
  rw [again, poll_errored dec z rfl]
  rfl

end Running

end Stream

end StreamingDecode
