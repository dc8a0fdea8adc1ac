import PureGrpc.MessageEncoding
import PureGrpc.StreamingDecode

/-!
What a stream reads is what scanning the bytes it receives gives, one frame at
a time. The bytes a stream has not used are its buffer, with the header put back
in front while a payload is awaited. With a decoder that does not withhold a
message from a complete payload it does not matter how the bytes are cut; one
that does is asked again whenever the body has been polled.
-/
namespace StreamingScan
open LengthFraming GrpcMetadata GrpcStatus GrpcCompression GrpcCodec PolledMachines HttpBodies
open MessageEncoding StreamingDecode

variable {δ T : Type} (dec : Decoder δ T) (z : Compressors)
  (encoding : Option CompressionEncoding) (maxMessageSize : Option Nat)

/-- The front of a byte string: no complete frame, one that is rejected, one the
    decoder makes nothing of, or one that gives a message; with the bytes that
    are then left behind the header. -/
inductive Scan (δ T : Type) where
  | short
  | bad (status : Status)
  | stall (next : δ) (rest : Bytes)
  | message (msg : T) (next : δ) (rest : Bytes)

def Scan.extend (more : Bytes) : Scan δ T → Scan δ T
  | .message msg next rest => .message msg next (rest ++ more)
  | .stall next rest => .stall next (rest ++ more)
  | scan => scan

def scanPayload (decoder : δ) (view : Bytes) (rest : Nat → Bytes) : Scan δ T :=
  match (dec.decode decoder view).result with
  | .error status => .bad status
  | .ok none => .stall (dec.decode decoder view).next (rest (dec.decode decoder view).consumed)
  | .ok (some msg) =>
    .message msg (dec.decode decoder view).next (rest (dec.decode decoder view).consumed)

def scanBody (decoder : δ) (compression : Option CompressionEncoding) (len : Nat)
    (bytes : Bytes) : Scan δ T :=
  if bytes.length < len then .short
  else match compression with
    | none => scanPayload dec decoder (bytes.take len) bytes.drop
    | some encoding =>
      match z.decompress encoding (bytes.take len) with
      | .error err => .bad (.internal ("decompression error: " ++ err))
      | .ok plain => scanPayload dec decoder plain fun _ => bytes.drop len

def scanFrame (decoder : δ) (bytes : Bytes) : Scan δ T :=
  match LengthFraming.readHeader bytes with
  | none => .short
  | some (flag, len, rest) =>
    match compressionOf encoding flag with
    | .error status => .bad status
    | .ok compression =>
      match lengthWithin maxMessageSize len with
      | .error status => .bad status
      | .ok () => scanBody dec z decoder compression len rest

/-- Where scanning stops: the bytes that hold no complete frame, or a rejection. -/
inductive Outcome where
  | short (rest : Bytes)
  | bad (status : Status)

inductive Scanned : δ → Bytes → List T → Outcome → Prop where
  | short {d bytes} (h : scanFrame dec z encoding maxMessageSize d bytes = .short) :
      Scanned d bytes [] (.short bytes)
  | bad {d bytes status} (h : scanFrame dec z encoding maxMessageSize d bytes = .bad status) :
      Scanned d bytes [] (.bad status)
  | message {d bytes msg next rest msgs o}
      (h : scanFrame dec z encoding maxMessageSize d bytes = .message msg next rest)
      (later : Scanned next rest msgs o) : Scanned d bytes (msg :: msgs) o

/-- What of the unread bytes lies in the buffer once a header has been taken. -/
def held (bytes : Bytes) : Bytes := if bytes.length < 5 then bytes else bytes.drop 5

/-- Decoder, unread bytes and buffer of a stream that turns to its body for more. -/
def idle (decoder : δ) (bytes : Bytes) : Option (δ × Bytes × Bytes) :=
  match scanFrame dec z encoding maxMessageSize decoder bytes with
  | .short => some (decoder, bytes, held bytes)
  | .stall next rest => some (next, bytes.take 5 ++ rest, rest)
  | _ => none

theorem idle_short {d : δ} {bytes : Bytes}
    (scan : scanFrame dec z encoding maxMessageSize d bytes = .short) :
    idle dec z encoding maxMessageSize d bytes = some (d, bytes, held bytes) := by
  simp only [idle, scan]

theorem idle_stall {d next : δ} {bytes rest : Bytes}
    (scan : scanFrame dec z encoding maxMessageSize d bytes = .stall next rest) :
    idle dec z encoding maxMessageSize d bytes = some (next, bytes.take 5 ++ rest, rest) := by
  simp only [idle, scan]

theorem idle_cases {d next : δ} {bytes kept left : Bytes}
    (idles : idle dec z encoding maxMessageSize d bytes = some (next, kept, left)) :
    (scanFrame dec z encoding maxMessageSize d bytes = .short ∧
      next = d ∧ kept = bytes ∧ left = held bytes) ∨
    (scanFrame dec z encoding maxMessageSize d bytes = .stall next left ∧
      kept = bytes.take 5 ++ left) := by
  unfold idle at idles
  split at idles
  · rename_i scan
    cases idles
    exact .inl ⟨scan, rfl, rfl, rfl⟩
  · rename_i scan
    cases idles
    exact .inr ⟨scan, rfl⟩
  · cases idles

/-- What comes of a stream: a rejection, or the body is over with these bytes in the buffer. -/
inductive Fate where
  | bad (status : Status)
  | finished (left : Bytes)

/-- Scanning bytes and what arrives behind them. -/
inductive Received : δ → Bytes → List Chunk → List T → Fate → Prop where
  | bad {d bytes chunks status} (h : scanFrame dec z encoding maxMessageSize d bytes = .bad status) :
      Received d bytes chunks [] (.bad status)
  | message {d bytes chunks msg next rest msgs fate}
      (h : scanFrame dec z encoding maxMessageSize d bytes = .message msg next rest)
      (later : Received next rest chunks msgs fate) : Received d bytes chunks (msg :: msgs) fate
  | finished {d bytes next kept left}
      (h : idle dec z encoding maxMessageSize d bytes = some (next, kept, left)) :
      Received d bytes [] [] (.finished left)
  | pending {d bytes next kept left rest msgs fate}
      (h : idle dec z encoding maxMessageSize d bytes = some (next, kept, left))
      (later : Received next kept rest msgs fate) : Received d bytes (.pending :: rest) msgs fate
  | data {d bytes next kept left data rest msgs fate}
      (h : idle dec z encoding maxMessageSize d bytes = some (next, kept, left))
      (later : Received next (kept ++ data) rest msgs fate) :
      Received d bytes (.data data :: rest) msgs fate

def Outcome.fate : Outcome → Fate
  | .bad status => .bad status
  | .short rest => .finished (held rest)

def Taken (inner : StreamingInner) : Prop :=
  match inner.state with
  | .readHeader => True
  | .readBody compression len =>
    compressionOf inner.encoding (compressionFlag compression) = .ok compression ∧
      lengthWithin inner.maxMessageSize len = .ok () ∧ len < 2 ^ 32
  | .error _ => False

def unread (inner : StreamingInner) : Bytes :=
  match inner.state with
  | .readBody compression len => compressionFlag compression :: (beBytes len ++ inner.buf)
  | _ => inner.buf

theorem held_header (flag : UInt8) (len : Nat) (rest : Bytes) :
    held (flag :: (beBytes len ++ rest)) = rest := by
  have long : ¬ (flag :: (beBytes len ++ rest)).length < 5 := by
    simp only [List.length_cons, List.length_append, be_bytes_length]
    omega
  rw [held, if_neg long]
  rfl

theorem take_header (flag : UInt8) (len : Nat) (rest : Bytes) :
    (flag :: (beBytes len ++ rest)).take 5 = flag :: beBytes len := rfl

theorem compression_flag_of {flag : UInt8} {compression : Option CompressionEncoding}
    (h : compressionOf encoding flag = .ok compression) : compressionFlag compression = flag := by
  unfold compressionOf at h
  split at h
  · rename_i zero
    cases h
    exact zero.symm
  · split at h
    · rename_i one
      split at h
      · cases h
        exact one.symm
      · cases h
    · cases h

theorem scan_payload_append (decoder : δ) (view : Bytes) (rest : Nat → Bytes) (more : Bytes)
    (later : Nat → Bytes)
    (same : later (dec.decode decoder view).consumed =
      rest (dec.decode decoder view).consumed ++ more) :
    scanPayload dec decoder view later = (scanPayload dec decoder view rest).extend more := by
  unfold scanPayload
  rw [same]
  cases (dec.decode decoder view).result with
  | error status => rfl
  | ok msg => cases msg <;> rfl

theorem scan_body_append (decoder : δ) (compression : Option CompressionEncoding) (len : Nat)
    (bytes more : Bytes) (enough : len ≤ bytes.length) :
    scanBody dec z decoder compression len (bytes ++ more) =
      (scanBody dec z decoder compression len bytes).extend more := by
  have still : ¬ (bytes ++ more).length < len := by simp only [List.length_append]; omega
  have front : (bytes ++ more).take len = bytes.take len := List.take_append_of_le_length enough
  simp only [scanBody, still, Nat.not_lt.mpr enough, if_false, front]
  cases compression with
  | none =>
    apply scan_payload_append
    have bound := dec.bounded decoder (bytes.take len)
    rw [List.length_take] at bound
    exact List.drop_append_of_le_length (by omega)
  | some encoding =>
    simp only
    cases z.decompress encoding (bytes.take len) with
    | error err => rfl
    | ok plain =>
      apply scan_payload_append
      exact List.drop_append_of_le_length enough

/-- More bytes change nothing about a frame that is already complete. -/
theorem scan_frame_append (decoder : δ) (bytes more : Bytes)
    (complete : scanFrame dec z encoding maxMessageSize decoder bytes ≠ .short) :
    scanFrame dec z encoding maxMessageSize decoder (bytes ++ more) =
      (scanFrame dec z encoding maxMessageSize decoder bytes).extend more := by
  unfold scanFrame at complete ⊢
  cases header : LengthFraming.readHeader bytes with
  | none => simp [header] at complete
  | some triple =>
    obtain ⟨flag, len, rest⟩ := triple
    simp only [header, read_header_append header] at complete ⊢
    cases flagged : compressionOf encoding flag with
    | error status => rfl
    | ok compression =>
      cases within : lengthWithin maxMessageSize len with
      | error status => rfl
      | ok _ =>
        simp only [flagged, within] at complete
        apply scan_body_append
        by_contra fewer
        exact complete (by simp only [scanBody, Nat.not_le.mp fewer, if_true])

/-- What an attempt to decode does when the scan of the front says so; the stream
    has this inner state once it has looked at the header. -/
inductive Answers (decoder : δ) (inner : StreamingInner) :
    Scan δ T → Except Status (Option T) × Streaming δ → Prop where
  | short : Answers decoder inner .short (.ok none, ⟨decoder, inner⟩)
  | bad {status t} : Answers decoder inner (.bad status) (.error status, t)
  | stall {next rest} : Answers decoder inner (.stall next rest)
      (.ok none, ⟨next, { inner with buf := rest }⟩)
  | message {msg next rest} : Answers decoder inner (.message msg next rest)
      (.ok (some msg), ⟨next, { inner with buf := rest, state := .readHeader }⟩)

theorem decode_with_answers (self : Streaming δ) (inner : StreamingInner) (lease : Lease)
    (view : Bytes) (rest : Nat → Bytes) (same : { self.inner with buf := inner.buf } = inner)
    (shown : lease.view self.inner.buf = view)
    (left : ∀ n, lease.remaining self.inner.buf n = rest n) :
    Answers self.decoder inner (scanPayload dec self.decoder view rest)
      (self.decodeWith dec lease) := by
  simp only [Streaming.decodeWith, scanPayload, shown, left]
  cases (dec.decode self.decoder view).result with
  | error status => exact .bad
  | ok msg =>
    cases msg with
    | none =>
      rw [← same]
      exact .stall
    | some msg =>
      rw [← same]
      exact .message

theorem decode_body_answers (self : Streaming δ) (inner : StreamingInner)
    (compression : Option CompressionEncoding) (len : Nat)
    (attempt : self.inner.decodeChunk z = inner.decodeBody z compression len) :
    Answers self.decoder inner (scanBody dec z self.decoder compression len inner.buf)
      (self.decodeChunk dec z) := by
  simp only [Streaming.decodeChunk, attempt, StreamingInner.decodeBody, scanBody]
  by_cases fewer : inner.buf.length < len
  · simp only [fewer, if_true]
    exact .short
  · simp only [fewer, if_false]
    cases compression with
    | none =>
      exact decode_with_answers dec { self with inner } inner (.shared len) _ _ rfl rfl
        (fun _ => rfl)
    | some encoding =>
      simp only
      cases z.decompress encoding (inner.buf.take len) with
      | error err => exact .bad
      | ok plain =>
        exact decode_with_answers dec ⟨self.decoder, { inner with buf := inner.buf.drop len }⟩
          inner (.decompressed plain) _ _ rfl rfl (fun _ => rfl)

/-- An attempt does what scanning the unread bytes says; the stream has this inner
    state once it has looked at their header. -/
structure AsScanned (stream : Streaming δ) (inner : StreamingInner) : Prop where
  taken : Taken inner
  bytes : unread inner = unread stream.inner
  same : SameSource stream.inner inner
  short : scanFrame dec z stream.inner.encoding stream.inner.maxMessageSize stream.decoder
    (unread stream.inner) = .short → inner.buf = held (unread stream.inner)
  stall : ∀ next rest, scanFrame dec z stream.inner.encoding stream.inner.maxMessageSize
      stream.decoder (unread stream.inner) = .stall next rest →
    unread { inner with buf := rest } = (unread stream.inner).take 5 ++ rest
  answers : Answers stream.decoder inner
    (scanFrame dec z stream.inner.encoding stream.inner.maxMessageSize stream.decoder
      (unread stream.inner)) (stream.decodeChunk dec z)

theorem body_as_scanned (self : Streaming δ) {inner : StreamingInner}
    {compression : Option CompressionEncoding} {len : Nat}
    (taken : Taken inner) (state : inner.state = .readBody compression len)
    (bytes : unread inner = unread self.inner) (same : SameSource self.inner inner)
    (attempt : self.inner.decodeChunk z = inner.decodeBody z compression len) :
    AsScanned dec z self inner := by
  have checked := taken
  simp only [Taken, state, same.encoding, same.maxMessageSize] at checked
  obtain ⟨flagged, within, fits⟩ := checked
  have front : unread self.inner = compressionFlag compression :: (beBytes len ++ inner.buf) := by
    rw [← bytes]
    simp [unread, state]
  have scan : scanFrame dec z self.inner.encoding self.inner.maxMessageSize self.decoder
      (unread self.inner) = scanBody dec z self.decoder compression len inner.buf := by
    simp only [scanFrame, front, read_header_write _ _ fits, flagged, within]
  refine ⟨taken, bytes, same, ?_, ?_, ?_⟩
  · intro _
    rw [front, held_header]
  · intro next rest _
    rw [front, take_header]
    simp only [unread, state, List.cons_append]
  · rw [scan]
    exact decode_body_answers dec z self inner compression len attempt

theorem rejection_as_scanned (self : Streaming δ) {status : Status} {next : StreamingInner}
    (taken : Taken self.inner)
    (scan : scanFrame dec z self.inner.encoding self.inner.maxMessageSize self.decoder
      (unread self.inner) = .bad status)
    (attempt : self.inner.decodeChunk z = (.error status, next)) :
    AsScanned dec z self self.inner := by
  refine ⟨taken, rfl, same_source_refl _, by simp [scan], by simp [scan], ?_⟩
  rw [scan, Streaming.decodeChunk, attempt]
  exact .bad

theorem decode_chunk_answers (self : Streaming δ) (taken : Taken self.inner) :
    ∃ inner, AsScanned dec z self inner := by
  have exit := attempted z self.inner
  generalize attempt : self.inner.decodeChunk z = outcome at exit
  cases exit with
  | closed state => simp [Taken, state] at taken
  | resumed state =>
    exact ⟨self.inner, body_as_scanned dec z self taken state rfl (same_source_refl _) attempt⟩
  | short state header =>
    have scan : scanFrame dec z self.inner.encoding self.inner.maxMessageSize self.decoder
        (unread self.inner) = .short := by simp only [scanFrame, unread, state, header]
    refine ⟨self.inner, taken, rfl, same_source_refl _, ?_, by simp [scan], ?_⟩
    · intro _
      simp [held, unread, state, (read_header_none_iff _).mp header]
    · rw [scan, Streaming.decodeChunk, attempt]
      exact .short
  | badFlag state header flagged =>
    refine ⟨self.inner, rejection_as_scanned dec z self taken ?_ attempt⟩
    simp only [scanFrame, unread, state, header, flagged]
  | tooLong state header flagged within =>
    refine ⟨self.inner, rejection_as_scanned dec z self taken ?_ attempt⟩
    simp only [scanFrame, unread, state, header, flagged, within]
  | @entered flag len rest compression state header flagged within =>
    obtain ⟨fits, front⟩ := read_header_some header
    have same := compression_flag_of _ flagged
    let inner := { self.inner with buf := rest, state := .readBody compression len }
    have taken' : Taken inner := by
      simp only [inner, Taken, same]
      exact ⟨flagged, within, fits⟩
    have bytes : unread inner = unread self.inner := by simp [inner, unread, same, state, front]
    exact ⟨inner, body_as_scanned dec z self taken' rfl bytes ⟨rfl, rfl, rfl, rfl, rfl⟩ attempt⟩

/-- The status a finished response is turned into, if it is not a good end. -/
def inferred (direction : Direction) (trailers : Option HeaderMap) : Option Status :=
  match direction with
  | .response statusCode =>
    match inferGrpcStatus trailers statusCode with
    | .error (some e) => some e
    | _ => none
  | _ => none

/-- How a stream ends when its body does, with these bytes left in the buffer. -/
def ending (direction : Direction) (tail : Tail Status) (left : Bytes) : Option Status :=
  match tail with
  | .eof =>
    if left ≠ [] then some (.internal "Unexpected EOF decoding stream.")
    else inferred direction none
  | .trailers map => inferred direction (some map)
  | .error status =>
    if direction = .request ∧ status.code = .cancelled then none else some status

def Fate.verdict (direction : Direction) (tail : Tail Status) : Fate → Option Status
  | .bad status => some status
  | .finished left => ending direction tail left

def Outcome.verdict (direction : Direction) (tail : Tail Status) : Outcome → Option Status
  | .bad status => some status
  | .short rest => ending direction tail (held rest)

def Closes (tail : Tail Status) (o : Option Status) (t : Streaming δ) : Prop :=
  ∀ map, tail = .trailers map → o ≠ none → t.inner.state = .error none

theorem response_inferred (inner : StreamingInner) :
    match inferred inner.direction inner.trailers with
    | none => inner.response = (.ok (), inner)
    | some e => inner.response = (.error e, { inner with trailers := none }) := by
  unfold inferred StreamingInner.response
  cases inner.direction with
  | response statusCode =>
    dsimp only
    rcases inferGrpcStatus inner.trailers statusCode with (_ | e) | _ <;> rfl
  | request => rfl
  | emptyResponse => rfl

theorem poll_body_over {self decoded : Streaming δ} {left : Bytes}
    (running : self.inner.state.isError = false)
    (attempt : self.decodeChunk dec z = (.ok none, decoded))
    (noChunks : decoded.inner.body.chunks = []) (noTrailers : decoded.inner.trailers = none)
    (buf : decoded.inner.buf = left) :
    ∃ t, Reads (Streaming.pollNext dec z) self []
        (ending decoded.inner.direction decoded.inner.body.tail left) t ∧
      Closes decoded.inner.body.tail
        (ending decoded.inner.direction decoded.inner.body.tail left) t ∧
      t.decoder = decoded.decoder := by
  obtain ⟨d, ⟨⟨chunks, tail⟩, state, direction, buf', trailers, encoding, size⟩⟩ := decoded
  simp only at noChunks noTrailers buf
  subst noChunks noTrailers buf
  -- the body is over: what the trailers say, once they are in place
  have decided (body : Body Status) (trailers : Option HeaderMap)
      (frame : StreamingInner.pollFrame
        ⟨⟨[], tail⟩, state, direction, buf', none, encoding, size⟩ =
          (.ready (.ok none), ⟨body, state, direction, buf', trailers, encoding, size⟩)) :
      ∃ t, Reads (Streaming.pollNext dec z) self [] (inferred direction trailers) t ∧
        (inferred direction trailers ≠ none → t.inner.state = .error none) ∧ t.decoder = d := by
    have answer := response_inferred
      ⟨body, state, direction, buf', trailers, encoding, size⟩
    dsimp only at answer
    cases verdict : inferred direction trailers with
    | none =>
      rw [verdict] at answer
      exact ⟨_, .stop (poll_ends dec z running attempt frame answer), fun h => absurd rfl h, rfl⟩
    | some e =>
      rw [verdict] at answer
      exact ⟨_, .fail (poll_refused dec z running attempt frame answer), fun _ => rfl, rfl⟩
  have fails (status : Status) (inner : StreamingInner)
      (frame : StreamingInner.pollFrame
        ⟨⟨[], tail⟩, state, direction, buf', none, encoding, size⟩ =
          (.ready (.error status), inner)) :
      ∃ t, Reads (Streaming.pollNext dec z) self [] (some status) t ∧ t.decoder = d :=
    ⟨_, .fail (poll_fails dec z running attempt frame), rfl⟩
  cases tail with
  | eof =>
    by_cases empty : buf' = []
    · obtain ⟨t, reads, _, same⟩ := decided ⟨[], .eof⟩ none
        (by simp [StreamingInner.pollFrame, Body.pollFrame, empty])
      exact ⟨t, by simpa [ending, empty] using reads, by simp [Closes], same⟩
    · obtain ⟨t, reads, same⟩ := fails (.internal "Unexpected EOF decoding stream.")
        ⟨⟨[], .eof⟩, state, direction, buf', none, encoding, size⟩
        (by simp [StreamingInner.pollFrame, Body.pollFrame, empty])
      exact ⟨t, by simpa [ending, empty] using reads, by simp [Closes], same⟩
  | trailers map =>
    obtain ⟨t, reads, closed, same⟩ := decided ⟨[], .eof⟩ (some map) rfl
    exact ⟨t, reads, fun _ _ => closed, same⟩
  | error status =>
    by_cases cancelled : direction = .request ∧ status.code = .cancelled
    · obtain ⟨t, reads, _, same⟩ := decided ⟨[], .eof⟩ none
        (by simp [StreamingInner.pollFrame, Body.pollFrame, cancelled])
      exact ⟨t, by simpa [ending, inferred, cancelled] using reads, by simp [Closes], same⟩
    · obtain ⟨t, reads, same⟩ := fails status
        ⟨⟨[], .eof⟩, .error (some status), direction, buf', none, encoding, size⟩
        (by simp only [StreamingInner.pollFrame, Body.pollFrame, cancelled, if_false])
      exact ⟨t, by simpa only [ending, cancelled, if_false] using reads, by simp [Closes], same⟩

theorem taken_running {inner : StreamingInner} (taken : Taken inner) :
    inner.state.isError = false := by
  cases state : inner.state with
  | error status => simp [Taken, state] at taken
  | _ => rfl

theorem unread_feed (inner : StreamingInner) (body : Body Status) (bytes : Bytes) :
    unread { inner with body, buf := inner.buf ++ bytes } = unread inner ++ bytes := by
  unfold unread
  cases inner.state <;> simp

def Scan.rest : Scan δ T → Option Bytes
  | .message _ _ rest => some rest
  | .stall _ rest => some rest
  | _ => none

theorem scan_frame_rest {d : δ} {bytes rest : Bytes}
    (h : (scanFrame dec z encoding maxMessageSize d bytes).rest = some rest) :
    rest.length + 5 ≤ bytes.length := by
  have payload {view : Bytes} {left : Nat → Bytes} {limit : Nat}
      (bound : ∀ n, (left n).length ≤ limit)
      (h : (scanPayload dec d view left).rest = some rest) : rest.length ≤ limit := by
    unfold scanPayload at h
    split at h
    · cases h
    · cases h
      exact bound _
    · cases h
      exact bound _
  unfold scanFrame at h
  split at h
  · cases h
  · rename_i flag len after header
    have front : after.length + 5 = bytes.length := by
      rw [(read_header_some header).2]
      simp only [List.length_cons, List.length_append, be_bytes_length]
      omega
    split at h
    · cases h
    · split at h
      · cases h
      · have shorter : rest.length ≤ after.length := by
          unfold scanBody at h
          split at h
          · cases h
          · split at h
            · exact payload (fun n => by simp) h
            · split at h
              · cases h
              · exact payload (fun _ => by simp) h
        omega

theorem attempt_idle (self : Streaming δ) (taken : Taken self.inner) {next : δ} {kept left : Bytes}
    (idles : idle dec z self.inner.encoding self.inner.maxMessageSize self.decoder
      (unread self.inner) = some (next, kept, left)) :
    ∃ inner, self.decodeChunk dec z = (.ok none, ⟨next, inner⟩) ∧ Taken inner ∧
      unread inner = kept ∧ inner.buf = left ∧ SameSource self.inner inner := by
  obtain ⟨inner, taken', bytes, same, inBuffer, header, answers⟩ :=
    decode_chunk_answers dec z self taken
  generalize self.decodeChunk dec z = answer at answers
  rcases idle_cases dec z _ _ idles with ⟨scan, rfl, rfl, rfl⟩ | ⟨scan, rfl⟩
  · rw [scan] at answers
    cases answers
    exact ⟨inner, rfl, taken', bytes, inBuffer scan, same⟩
  · have kept := header _ _ scan
    rw [scan] at answers
    cases answers
    exact ⟨_, rfl, taken', kept, rfl,
      ⟨same.body, same.direction, same.trailers, same.encoding, same.maxMessageSize⟩⟩

/-- A stream on its way through a body, with these bytes of it unread and these chunks
    of it to come. -/
structure Receiving (direction : Direction) (tail : Tail Status) (bytes : Bytes)
    (chunks : List Chunk) (inner : StreamingInner) : Prop where
  taken : Taken inner
  start : unread inner = bytes
  body : inner.body = ⟨chunks, tail⟩
  direction : inner.direction = direction
  trailers : inner.trailers = none
  accepts : inner.encoding = encoding
  limit : inner.maxMessageSize = maxMessageSize

section Receiving
variable {direction : Direction} {tail : Tail Status} {d next : δ} {bytes kept left rest : Bytes}
  {chunks more : List Chunk} {inner : StreamingInner}

theorem receiving_same {u : StreamingInner}
    (receiving : Receiving encoding maxMessageSize direction tail bytes chunks inner)
    (same : SameSource inner u) (taken : Taken u) (unused : unread u = kept) :
    Receiving encoding maxMessageSize direction tail kept chunks u :=
  ⟨taken, unused, same.body.trans receiving.body, same.direction.trans receiving.direction,
    same.trailers.trans receiving.trailers, same.encoding.trans receiving.accepts,
    same.maxMessageSize.trans receiving.limit⟩

theorem receiving_bad {status : Status}
    (receiving : Receiving encoding maxMessageSize direction tail bytes chunks inner)
    (bad : scanFrame dec z encoding maxMessageSize d bytes = .bad status) :
    Streaming.pollNext dec z ⟨d, inner⟩ =
      (.ready (some (.error status)), (Streaming.decodeChunk dec z ⟨d, inner⟩).2) := by
  obtain ⟨_, _, _, _, _, _, answers⟩ := decode_chunk_answers dec z ⟨d, inner⟩ receiving.taken
  generalize attempt : Streaming.decodeChunk dec z ⟨d, inner⟩ = answer at answers ⊢
  simp only [receiving.accepts, receiving.limit, receiving.start, bad] at answers
  cases answers
  exact poll_rejected dec z (taken_running receiving.taken) attempt

theorem receiving_message {msg : T}
    (receiving : Receiving encoding maxMessageSize direction tail bytes chunks inner)
    (front : scanFrame dec z encoding maxMessageSize d bytes = .message msg next rest) :
    ∃ u, Streaming.pollNext dec z ⟨d, inner⟩ = (.ready (some (.ok msg)), ⟨next, u⟩) ∧
      Receiving encoding maxMessageSize direction tail rest chunks u := by
  obtain ⟨u, _, _, same, _, _, answers⟩ := decode_chunk_answers dec z ⟨d, inner⟩ receiving.taken
  generalize attempt : Streaming.decodeChunk dec z ⟨d, inner⟩ = answer at answers
  simp only [receiving.accepts, receiving.limit, receiving.start, front] at answers
  cases answers
  refine ⟨_, poll_decoded dec z (taken_running receiving.taken) attempt, ?_⟩
  exact receiving_same encoding maxMessageSize receiving
    ⟨same.body, same.direction, same.trailers, same.encoding, same.maxMessageSize⟩ trivial rfl

theorem receiving_idle
    (receiving : Receiving encoding maxMessageSize direction tail bytes chunks inner)
    (idles : idle dec z encoding maxMessageSize d bytes = some (next, kept, left)) :
    ∃ u, Streaming.decodeChunk dec z ⟨d, inner⟩ = (.ok none, ⟨next, u⟩) ∧ u.buf = left ∧
      Receiving encoding maxMessageSize direction tail kept chunks u := by
  obtain ⟨u, attempt, taken, unused, buf, same⟩ := attempt_idle dec z ⟨d, inner⟩ receiving.taken
    (by rw [receiving.accepts, receiving.limit, receiving.start]; exact idles)
  exact ⟨u, attempt, buf, receiving_same encoding maxMessageSize receiving same taken unused⟩

theorem receiving_over
    (receiving : Receiving encoding maxMessageSize direction tail bytes [] inner)
    (idles : idle dec z encoding maxMessageSize d bytes = some (next, kept, left)) :
    ∃ t, Reads (Streaming.pollNext dec z) ⟨d, inner⟩ [] (ending direction tail left) t ∧
      Closes tail (ending direction tail left) t ∧ t.decoder = next := by
  obtain ⟨u, attempt, buf, later⟩ := receiving_idle dec z encoding maxMessageSize receiving idles
  have polled := poll_body_over dec z (taken_running receiving.taken) attempt
    (by simp [later.body]) later.trailers buf
  simpa only [later.body, later.direction] using polled

theorem receiving_pending
    (receiving : Receiving encoding maxMessageSize direction tail bytes (.pending :: more) inner)
    (idles : idle dec z encoding maxMessageSize d bytes = some (next, kept, left)) :
    ∃ u, Streaming.pollNext dec z ⟨d, inner⟩ = (.pending, ⟨next, u⟩) ∧
      Receiving encoding maxMessageSize direction tail kept more u := by
  obtain ⟨u, attempt, _, later⟩ := receiving_idle dec z encoding maxMessageSize receiving idles
  have frame : u.pollFrame = (.pending, { u with body := ⟨more, tail⟩ }) := by
    simp only [StreamingInner.pollFrame, later.body, Body.pollFrame]
  refine ⟨_, poll_waits dec z (taken_running receiving.taken) attempt frame, ?_⟩
  exact ⟨later.taken, later.start, rfl, later.direction, later.trailers, later.accepts, later.limit⟩

theorem receiving_data {data : Bytes}
    (receiving : Receiving encoding maxMessageSize direction tail bytes (.data data :: more) inner)
    (idles : idle dec z encoding maxMessageSize d bytes = some (next, kept, left)) :
    ∃ u, Streaming.pollNext dec z ⟨d, inner⟩ = Streaming.pollNext dec z ⟨next, u⟩ ∧
      Receiving encoding maxMessageSize direction tail (kept ++ data) more u := by
  obtain ⟨u, attempt, _, later⟩ := receiving_idle dec z encoding maxMessageSize receiving idles
  have frame : u.pollFrame =
      (.ready (.ok (some ())), { u with body := ⟨more, tail⟩, buf := u.buf ++ data }) := by
    simp only [StreamingInner.pollFrame, later.body, Body.pollFrame]
  refine ⟨_, poll_feeds dec z (taken_running receiving.taken) attempt frame, ?_⟩
  exact ⟨later.taken, by rw [unread_feed, later.start], rfl, later.direction, later.trailers,
    later.accepts, later.limit⟩

theorem new_receiving (body : Body Status) (direction : Direction) :
    Receiving encoding maxMessageSize direction body.tail [] body.chunks
      ⟨body, .readHeader, direction, [], none, encoding, maxMessageSize⟩ :=
  ⟨trivial, rfl, rfl, rfl, rfl, rfl, rfl⟩

end Receiving

theorem reads_received {direction : Direction} {tail : Tail Status} {msgs : List T} {fate : Fate}
    {d : δ} {bytes : Bytes} {chunks : List Chunk}
    (received : Received dec z encoding maxMessageSize d bytes chunks msgs fate)
    (inner : StreamingInner)
    (receiving : Receiving encoding maxMessageSize direction tail bytes chunks inner) :
    ∃ t, Reads (Streaming.pollNext dec z) ⟨d, inner⟩ msgs (fate.verdict direction tail) t ∧
      ∀ left, fate = .finished left → Closes tail (fate.verdict direction tail) t := by
  induction received generalizing inner with
  | bad h =>
    have poll := receiving_bad dec z encoding maxMessageSize receiving h
    exact ⟨_, .fail poll, by simp⟩
  | message h _ ih =>
    obtain ⟨u, poll, later⟩ := receiving_message dec z encoding maxMessageSize receiving h
    obtain ⟨t, reads, closes⟩ := ih u later
    exact ⟨t, .item poll reads, closes⟩
  | finished h =>
    obtain ⟨t, reads, closes, _⟩ := receiving_over dec z encoding maxMessageSize receiving h
    exact ⟨t, reads, fun _ _ => closes⟩
  | pending h _ ih =>
    obtain ⟨u, poll, later⟩ := receiving_pending dec z encoding maxMessageSize receiving h
    obtain ⟨t, reads, closes⟩ := ih u later
    exact ⟨t, .wait poll reads, closes⟩
  | data h _ ih =>
    obtain ⟨u, poll, later⟩ := receiving_data dec z encoding maxMessageSize receiving h
    obtain ⟨t, reads, closes⟩ := ih u later
    exact ⟨t, reads_same_poll _ poll reads, closes⟩

theorem new_received {msgs : List T} {fate : Fate} (decoder : δ) (body : Body Status)
    (direction : Direction)
    (received : Received dec z encoding maxMessageSize decoder [] body.chunks msgs fate) :
    ∃ t, Reads (Streaming.pollNext dec z)
        (.new decoder body direction encoding maxMessageSize) msgs
        (fate.verdict direction body.tail) t ∧
      ∀ left, fate = .finished left → Closes body.tail (fate.verdict direction body.tail) t :=
  reads_received dec z encoding maxMessageSize received _
    (new_receiving encoding maxMessageSize body direction)

/-- Bytes that can be scanned to an outcome are received to it however they are cut. -/
theorem received_scanned {d : δ} {bytes : Bytes} {chunks : List Chunk} {tail : Tail Status}
    {msgs : List T} {o : Outcome} (scanned : Scanned dec z encoding maxMessageSize d
      (bytes ++ (Body.mk chunks tail).data) msgs o) :
    Received dec z encoding maxMessageSize d bytes chunks msgs o.fate := by
  induction size : bytes.length + (Body.mk chunks tail).data.length + chunks.length
    using Nat.strongRecOn generalizing d bytes chunks msgs with
  | ind n ih =>
    have append := scan_frame_append dec z encoding maxMessageSize d bytes (Body.mk chunks tail).data
    cases front : scanFrame dec z encoding maxMessageSize d bytes with
    | bad status =>
      rw [front] at append
      have all := append (by simp)
      cases scanned with
      | short h => simp [all, Scan.extend] at h
      | message h _ => simp [all, Scan.extend] at h
      | bad h =>
        simp only [all, Scan.extend, Scan.bad.injEq] at h
        subst h
        exact .bad front
    | stall next rest =>
      rw [front] at append
      have all := append (by simp)
      cases scanned with
      | short h => simp [all, Scan.extend] at h
      | bad h => simp [all, Scan.extend] at h
      | message h _ => simp [all, Scan.extend] at h
    | message msg next rest =>
      rw [front] at append
      have all := append (by simp)
      cases scanned with
      | short h => simp [all, Scan.extend] at h
      | bad h => simp [all, Scan.extend] at h
      | message h later =>
        simp only [all, Scan.extend, Scan.message.injEq] at h
        obtain ⟨rfl, rfl, rfl⟩ := h
        have shorter : rest.length + 5 ≤ bytes.length :=
          scan_frame_rest dec z encoding maxMessageSize (by rw [front]; rfl)
        exact .message front (ih (rest.length + (Body.mk chunks tail).data.length + chunks.length)
          (by omega) later rfl)
    | short =>
      have idles := idle_short dec z encoding maxMessageSize front
      match chunks with
      | [] =>
        rw [body_data_nil, List.append_nil] at scanned
        cases scanned with
        | bad h => simp [front] at h
        | message h _ => simp [front] at h
        | short _ => exact .finished idles
      | .pending :: more =>
        rw [body_data_pending] at scanned size
        exact .pending idles (ih (bytes.length + (Body.mk more tail).data.length + more.length)
          (by simp only [List.length_cons] at size; omega) scanned rfl)
      | .data chunk :: more =>
        rw [body_data_cons, ← List.append_assoc] at scanned
        rw [body_data_cons] at size
        exact .data idles (ih ((bytes ++ chunk).length + (Body.mk more tail).data.length +
          more.length) (by simp only [List.length_cons, List.length_append] at size ⊢; omega)
          scanned rfl)

/-- Reading a stream gives what scanning all the bytes of its body says. -/
theorem new_reads {msgs : List T} {o : Outcome} (decoder : δ) (body : Body Status)
    (direction : Direction)
    (scanned : Scanned dec z encoding maxMessageSize decoder body.data msgs o) :
    ∃ t, Reads (Streaming.pollNext dec z)
        (.new decoder body direction encoding maxMessageSize) msgs
        (o.verdict direction body.tail) t ∧
      ∀ rest, o = .short rest → Closes body.tail (o.verdict direction body.tail) t := by
  have verdict : o.fate.verdict direction body.tail = o.verdict direction body.tail := by
    cases o <;> rfl
  have all : Scanned dec z encoding maxMessageSize decoder
      ([] ++ (Body.mk body.chunks body.tail).data) msgs o := scanned
  obtain ⟨t, reads, closes⟩ := new_received dec z encoding maxMessageSize decoder body direction
    (received_scanned dec z encoding maxMessageSize all)
  rw [verdict] at reads closes
  refine ⟨t, reads, ?_⟩
  rintro rest rfl
  exact closes _ rfl

end StreamingScan
