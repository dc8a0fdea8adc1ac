import PureGrpc.DecoderCalls
import PureGrpc.EncodeOrder
import PureGrpc.TruncationDetection

/-!
What a decoder can do to the frames behind the one it is given. `Calls` lists the
buffers it is handed as bytes arrive, up to the first error or the end. A frame is
over when the decoder returns a message, and an uncompressed one only as far as the
decoder has read it: a message withheld, or some bytes left, and the next frame is
not presented as it was sent.
-/
namespace FrameIsolation
open LengthFraming GrpcMetadata GrpcStatus GrpcCompression GrpcCodec PolledMachines HttpBodies
open EncodeOrder StreamingDecode StreamingScan DecoderCalls TruncationDetection

variable {δ T : Type} (dec : Decoder δ T) (z : Compressors)
  (encoding : Option CompressionEncoding) (maxMessageSize : Option Nat)

def noted (log : List Bytes) : Scan δ T → Scan (δ × List Bytes) T
  | .short => .short
  | .bad status => .bad status
  | .stall next rest => .stall (next, log) rest
  | .message msg next rest => .message msg (next, log) rest

/-- Keeping the list changes nothing about a scan but the list. -/
theorem scan_noted (d : δ) (log : List Bytes) (bytes : Bytes) :
    scanFrame (noting dec) z encoding maxMessageSize (d, log) bytes =
      noted (log ++ (handed z encoding maxMessageSize bytes).toList)
        (scanFrame dec z encoding maxMessageSize d bytes) := by
  cases hands : handed z encoding maxMessageSize bytes with
  | none =>
    rcases scan_unhanded z encoding maxMessageSize hands with scan | ⟨status, scan⟩
    · rw [scan, scan]
      rfl
    · rw [scan, scan]
      rfl
  | some view =>
    obtain ⟨rest, scan⟩ := scan_handed z encoding maxMessageSize hands
    rw [scan, scan]
    simp only [scanPayload, noting, Option.toList_some]
    cases (dec.decode d view).result with
    | error status => rfl
    | ok item => cases item <;> rfl

theorem idle_noted {d next : δ} {bytes kept left : Bytes} (log : List Bytes)
    (idles : idle dec z encoding maxMessageSize d bytes = some (next, kept, left)) :
    idle (noting dec) z encoding maxMessageSize (d, log) bytes =
      some ((next, log ++ (handed z encoding maxMessageSize bytes).toList), kept, left) := by
  have scan := scan_noted dec z encoding maxMessageSize d log bytes
  rcases idle_cases dec z encoding maxMessageSize idles with ⟨short, rfl, rfl, rfl⟩ | ⟨stall, rfl⟩
  · rw [short] at scan
    cases hands : handed z encoding maxMessageSize kept with
    | none =>
      rw [idle_short _ z encoding maxMessageSize scan]
      simp
    | some view =>
      obtain ⟨rest, shown⟩ := scan_handed z encoding maxMessageSize hands
      rw [shown, scanPayload] at short
      split at short <;> cases short
  · rw [stall] at scan
    exact idle_stall _ z encoding maxMessageSize scan

inductive Calls : δ → Bytes → List Chunk → List Bytes → Prop where
  | bad {d bytes chunks status}
      (h : scanFrame dec z encoding maxMessageSize d bytes = .bad status) :
      Calls d bytes chunks (handed z encoding maxMessageSize bytes).toList
  | message {d bytes chunks msg next rest views}
      (h : scanFrame dec z encoding maxMessageSize d bytes = .message msg next rest)
      (later : Calls next rest chunks views) :
      Calls d bytes chunks ((handed z encoding maxMessageSize bytes).toList ++ views)
  | finished {d bytes next kept left}
      (h : idle dec z encoding maxMessageSize d bytes = some (next, kept, left)) :
      Calls d bytes [] (handed z encoding maxMessageSize bytes).toList
  | pending {d bytes next kept left rest views}
      (h : idle dec z encoding maxMessageSize d bytes = some (next, kept, left))
      (later : Calls next kept rest views) :
      Calls d bytes (.pending :: rest) ((handed z encoding maxMessageSize bytes).toList ++ views)
  | data {d bytes next kept left data rest views}
      (h : idle dec z encoding maxMessageSize d bytes = some (next, kept, left))
      (later : Calls next (kept ++ data) rest views) :
      Calls d bytes (.data data :: rest) ((handed z encoding maxMessageSize bytes).toList ++ views)

theorem calls_total (d : δ) (bytes : Bytes) (chunks : List Chunk) :
    ∃ views, Calls dec z encoding maxMessageSize d bytes chunks views := by
  obtain ⟨msgs, fate, received⟩ := received_total dec z encoding maxMessageSize d bytes chunks
  induction received with
  | bad h => exact ⟨_, .bad h⟩
  | finished h => exact ⟨_, .finished h⟩
  | message h _ ih =>
    obtain ⟨views, later⟩ := ih
    exact ⟨_, .message h later⟩
  | pending h _ ih =>
    obtain ⟨views, later⟩ := ih
    exact ⟨_, .pending h later⟩
  | data h _ ih =>
    obtain ⟨views, later⟩ := ih
    exact ⟨_, .data h later⟩

theorem reads_calls {direction : Direction} {tail : Tail Status} {d : δ} {bytes : Bytes}
    {chunks : List Chunk} {views : List Bytes}
    (calls : Calls dec z encoding maxMessageSize d bytes chunks views) (log : List Bytes)
    (inner : StreamingInner)
    (receiving : Receiving encoding maxMessageSize direction tail bytes chunks inner) :
    ∃ msgs o t, Reads (Streaming.pollNext (noting dec) z) ⟨(d, log), inner⟩ msgs o t ∧
      t.decoder.2 = log ++ views := by
  induction calls generalizing inner log with
  | @bad d bytes chunks status h =>
    have scan := scan_noted dec z encoding maxMessageSize d log bytes
    rw [h] at scan
    have poll := receiving_bad (noting dec) z encoding maxMessageSize receiving scan
    refine ⟨_, _, _, .fail poll, ?_⟩
    rw [decode_chunk_decoder (noting dec) z ⟨(d, log), inner⟩ receiving.taken, receiving.accepts,
      receiving.limit, receiving.start]
    cases handed z encoding maxMessageSize bytes <;> simp [after, noting]
  | @message d bytes chunks msg next rest views h later ih =>
    have scan := scan_noted dec z encoding maxMessageSize d log bytes
    rw [h] at scan
    obtain ⟨u, poll, later⟩ := receiving_message (noting dec) z encoding maxMessageSize receiving scan
    obtain ⟨msgs, o, t, reads, logged⟩ := ih _ u later
    refine ⟨_, o, t, .item poll reads, ?_⟩
    rw [logged, List.append_assoc]
  | finished h =>
    obtain ⟨t, reads, _, decoder⟩ := receiving_over (noting dec) z encoding maxMessageSize receiving
      (idle_noted dec z encoding maxMessageSize log h)
    exact ⟨_, _, t, reads, by rw [decoder]⟩
  | pending h later ih =>
    obtain ⟨u, poll, later⟩ := receiving_pending (noting dec) z encoding maxMessageSize receiving
      (idle_noted dec z encoding maxMessageSize log h)
    obtain ⟨msgs, o, t, reads, logged⟩ := ih _ u later
    refine ⟨msgs, o, t, .wait poll reads, ?_⟩
    rw [logged, List.append_assoc]
  | data h later ih =>
    obtain ⟨u, poll, later⟩ := receiving_data (noting dec) z encoding maxMessageSize receiving
      (idle_noted dec z encoding maxMessageSize log h)
    obtain ⟨msgs, o, t, reads, logged⟩ := ih _ u later
    refine ⟨msgs, o, t, reads_same_poll _ poll reads, ?_⟩
    rw [logged, List.append_assoc]

/-- A well-formed frame the stream accepts, plain or compressed, and its message bytes. -/
def Delivers (f : Framed) (payload : Bytes) : Prop :=
  f.payload.length < 2 ^ 32 ∧ lengthWithin maxMessageSize f.payload.length = .ok () ∧
    (f.flag = 0 ∧ f.payload = payload ∨
      f.flag = 1 ∧ ∃ e, encoding = some e ∧ z.decompress e f.payload = .ok payload)

def FitsPlain (payload : Bytes) : Prop :=
  payload.length < 2 ^ 32 ∧ lengthWithin maxMessageSize payload.length = .ok ()

section Frames
variable {f : Framed} {payload : Bytes}

theorem fits_plain_delivers (fits : FitsPlain maxMessageSize payload) :
    Delivers z encoding maxMessageSize ⟨0, payload⟩ payload :=
  ⟨fits.1, fits.2, .inl ⟨rfl, rfl⟩⟩

theorem delivers_flag (delivers : Delivers z encoding maxMessageSize f payload) :
    ∃ compression, compressionOf encoding f.flag = .ok compression := by
  rcases delivers.2.2 with ⟨flag, _⟩ | ⟨flag, e, known, _⟩
  · exact ⟨none, by simp [compressionOf, flag]⟩
  · exact ⟨some e, by simp [compressionOf, flag, known]⟩

def leftAfter (f : Framed) (more : Bytes) (consumed : Nat) : Bytes :=
  if f.flag = 0 then (f.payload ++ more).drop consumed else more

theorem delivered_frame (delivers : Delivers z encoding maxMessageSize f payload) (more : Bytes) :
    handed z encoding maxMessageSize (f.write ++ more) = some payload ∧
      ∀ d, scanFrame dec z encoding maxMessageSize d (f.write ++ more) =
        scanPayload dec d payload (leftAfter f more) := by
  obtain ⟨fits, within, carried⟩ := delivers
  have header := read_header_frame f fits more
  have enough : ¬ (f.payload ++ more).length < f.payload.length := by
    rw [List.length_append]
    omega
  rcases carried with ⟨flag, rfl⟩ | ⟨flag, e, known, unpacked⟩
  · have flagged : compressionOf encoding f.flag = .ok none := by simp [compressionOf, flag]
    have left : leftAfter f more = (f.payload ++ more).drop := by
      funext consumed
      simp [leftAfter, flag]
    constructor
    · simp [handed, header, flagged, within, handedBody]
    · intro d
      simp only [scanFrame, header, flagged, within, scanBody, enough, if_false, List.take_left,
        left]
  · have flagged : compressionOf encoding f.flag = .ok (some e) := by
      simp [compressionOf, flag, known]
    have left : leftAfter f more = fun _ => more := by
      funext consumed
      simp [leftAfter, flag]
    constructor
    · simp [handed, header, flagged, within, handedBody, unpacked, Except.toOption]
    · intro d
      simp only [scanFrame, header, flagged, within, scanBody, enough, if_false, List.take_left,
        unpacked, List.drop_left, left]

theorem partial_frame (delivers : Delivers z encoding maxMessageSize f payload)
    {bytes rest more : Bytes} (front : bytes ++ rest = f.write ++ more)
    (partly : bytes.length < f.write.length) (d : δ) :
    handed z encoding maxMessageSize bytes = none ∧
      scanFrame dec z encoding maxMessageSize d bytes = .short := by
  cases header : LengthFraming.readHeader bytes with
  | none => simp only [handed, scanFrame, header, and_self]
  | some triple =>
    obtain ⟨flag, len, after⟩ := triple
    have extended := read_header_append header rest
    rw [front, read_header_frame f delivers.1 more] at extended
    simp only [Option.some.injEq, Prod.mk.injEq] at extended
    obtain ⟨rfl, rfl, _⟩ := extended
    have size : bytes.length = after.length + 5 := by
      rw [(read_header_some header).2]
      simp only [List.length_cons, List.length_append, be_bytes_length]
      omega
    have fewer : after.length < f.payload.length := by
      rw [write_length] at partly
      omega
    obtain ⟨compression, flagged⟩ := delivers_flag z encoding maxMessageSize delivers
    simp only [handed, scanFrame, header, flagged, delivers.2.1, handedBody, scanBody, fewer,
      if_true, and_self]

end Frames

/-- Each payload is answered with a message, and one that may come uncompressed is read
    to its end. -/
def Takes : δ → List Bytes → Prop
  | _, [] => True
  | d, payload :: rest =>
    (∃ msg, (dec.decode d payload).result = .ok (some msg)) ∧
      (FitsPlain maxMessageSize payload → (dec.decode d payload).consumed = payload.length) ∧
      Takes (dec.decode d payload).next rest

theorem taken_frame {f : Framed} {payload : Bytes} {d : δ} {msg : T}
    (delivers : Delivers z encoding maxMessageSize f payload)
    (answer : (dec.decode d payload).result = .ok (some msg))
    (whole : FitsPlain maxMessageSize payload →
      (dec.decode d payload).consumed = payload.length) (more : Bytes) :
    scanFrame dec z encoding maxMessageSize d (f.write ++ more) =
      .message msg (dec.decode d payload).next more := by
  have left : leftAfter f more (dec.decode d payload).consumed = more := by
    unfold leftAfter
    rcases delivers.2.2 with ⟨flag, same⟩ | ⟨flag, _⟩
    · have fits : FitsPlain maxMessageSize payload :=
        ⟨same ▸ delivers.1, same ▸ delivers.2.1⟩
      rw [if_pos flag, whole fits, same, List.drop_left]
    · rw [if_neg (by simp [flag])]
  rw [(delivered_frame dec z encoding maxMessageSize delivers more).2, scanPayload]
  simp only [answer, left]

theorem frame_arrives {f : Framed} {payload : Bytes}
    (delivers : Delivers z encoding maxMessageSize f payload) (such : List Bytes → Prop) {d : δ}
    {more : Bytes} {tail : Tail Status}
    (whole : ∀ rest chunks, rest ++ (Body.mk chunks tail).data = more →
      ∃ views, Calls dec z encoding maxMessageSize d (f.write ++ rest) chunks views ∧ such views)
    (bytes : Bytes) (chunks : List Chunk)
    (all : bytes ++ (Body.mk chunks tail).data = f.write ++ more) :
    ∃ views, Calls dec z encoding maxMessageSize d bytes chunks views ∧ such views := by
  induction chunks generalizing bytes with
  | nil =>
    rw [body_data_nil, List.append_nil] at all
    subst all
    exact whole more [] (List.append_nil more)
  | cons chunk chunks ih =>
    by_cases enough : f.write.length ≤ bytes.length
    · have front : f.write <+: bytes :=
        List.prefix_of_prefix_length_le ⟨_, all.symm⟩ (List.prefix_append bytes _) enough
      obtain ⟨rest, rfl⟩ := front
      rw [List.append_assoc, List.append_right_inj] at all
      exact whole rest _ all
    · obtain ⟨hides, short⟩ := partial_frame dec z encoding maxMessageSize delivers all
        (by omega) d
      have waits := idle_short dec z encoding maxMessageSize short
      cases chunk with
      | pending =>
        obtain ⟨views, calls, holds⟩ := ih bytes all
        have later := Calls.pending waits calls
        rw [hides] at later
        exact ⟨views, later, holds⟩
      | data data =>
        rw [body_data_cons, ← List.append_assoc] at all
        obtain ⟨views, calls, holds⟩ := ih (bytes ++ data) all
        have later := Calls.data waits calls
        rw [hides] at later
        exact ⟨views, later, holds⟩

/-- Payloads that are taken are handed over one by one, whatever the cut; what follows
    them goes on as if it came first. -/
theorem takes_calls (ends : List Bytes → Prop) {more : Bytes} {tail : Tail Status}
    (later : ∀ d bytes chunks, bytes ++ (Body.mk chunks tail).data = more →
      ∃ views, Calls dec z encoding maxMessageSize d bytes chunks views ∧ ends views)
    {frames : List Framed} {payloads : List Bytes}
    (sent : List.Forall₂ (Delivers z encoding maxMessageSize) frames payloads) (d : δ)
    (bytes : Bytes) (chunks : List Chunk) (takes : Takes dec maxMessageSize d payloads)
    (all : bytes ++ (Body.mk chunks tail).data = writeAll frames ++ more) :
    ∃ views, Calls dec z encoding maxMessageSize d bytes chunks views ∧
      ∃ rest, views = payloads ++ rest ∧ ends rest := by
  induction sent generalizing d bytes chunks with
  | nil =>
    obtain ⟨views, calls, holds⟩ := later d bytes chunks all
    exact ⟨views, calls, views, rfl, holds⟩
  | @cons f payload frames payloads delivers sent ih =>
    obtain ⟨⟨msg, answer⟩, whole, takes⟩ := takes
    rw [writeAll, List.flatMap_cons, List.append_assoc, ← writeAll] at all
    apply frame_arrives dec z encoding maxMessageSize delivers _ _ bytes chunks all
    intro rest chunks all
    obtain ⟨views, calls, others, rfl, holds⟩ := ih _ rest chunks takes all
    have first := Calls.message
      (taken_frame dec z encoding maxMessageSize delivers answer whole rest) calls
    rw [(delivered_frame dec z encoding maxMessageSize delivers rest).1] at first
    exact ⟨_, first, others, rfl, holds⟩

theorem nothing_calls {tail : Tail Status} (d : δ) (bytes : Bytes) (chunks : List Chunk)
    (all : bytes ++ (Body.mk chunks tail).data = []) :
    Calls dec z encoding maxMessageSize d bytes chunks [] := by
  obtain ⟨rfl, rest⟩ := List.append_eq_nil_iff.mp all
  have waits : idle dec z encoding maxMessageSize d [] = some (d, [], []) := rfl
  induction chunks with
  | nil => exact .finished waits
  | cons chunk chunks ih =>
    cases chunk with
    | pending => exact .pending waits (ih rest rest)
    | data data =>
      rw [body_data_cons] at rest
      obtain ⟨rfl, later⟩ := List.append_eq_nil_iff.mp rest
      exact .data waits (ih later later)

theorem calls_first {d : δ} {bytes view : Bytes} {chunks : List Chunk} {views : List Bytes}
    (calls : Calls dec z encoding maxMessageSize d bytes chunks views)
    (hands : handed z encoding maxMessageSize bytes = some view) : [view] <+: views := by
  cases calls <;> simp [hands]

theorem calls_at_end {d : δ} {bytes view : Bytes} {views : List Bytes}
    (calls : Calls dec z encoding maxMessageSize d bytes [] views) (first : [view] <+: views) :
    handed z encoding maxMessageSize bytes = some view := by
  have hides (none : handed z encoding maxMessageSize bytes = none) : views = [] := by
    cases calls with
    | bad _ => rw [none]; rfl
    | finished _ => rw [none]; rfl
    | message h _ =>
      rcases scan_unhanded z encoding maxMessageSize none with scan | ⟨status, scan⟩
      · rw [scan] at h
        cases h
      · rw [scan] at h
        cases h
  cases hands : handed z encoding maxMessageSize bytes with
  | none =>
    rw [hides hands] at first
    simp at first
  | some shown =>
    obtain ⟨rest, rfl⟩ := calls_first dec z encoding maxMessageSize calls hands
    obtain ⟨rest', same⟩ := first
    simp only [List.cons_append, List.cons.injEq] at same
    rw [same.1]

theorem next_calls {tail : Tail Status} {f : Framed} {payload : Bytes}
    (delivers : Delivers z encoding maxMessageSize f payload) (d : δ) (bytes : Bytes)
    (chunks : List Chunk) (all : bytes ++ (Body.mk chunks tail).data = f.write) :
    ∃ views, Calls dec z encoding maxMessageSize d bytes chunks views ∧ [payload] <+: views := by
  rw [← List.append_nil f.write] at all
  apply frame_arrives dec z encoding maxMessageSize delivers _ _ bytes chunks all
  intro rest chunks _
  obtain ⟨views, calls⟩ := calls_total dec z encoding maxMessageSize d (f.write ++ rest) chunks
  exact ⟨views, calls, calls_first dec z encoding maxMessageSize calls
    (delivered_frame dec z encoding maxMessageSize delivers rest).1⟩

/-- Read to its first error or end, the stream has handed over such buffers. -/
def Hands (d : δ) (body : Body Status) (direction : Direction) (such : List Bytes → Prop) : Prop :=
  ∃ msgs o t, Reads (Streaming.pollNext (noting dec) z)
    (.new (d, []) body direction encoding maxMessageSize) msgs o t ∧ such t.decoder.2

theorem hands_iff {d : δ} {body : Body Status} {direction : Direction} {views : List Bytes}
    (calls : Calls dec z encoding maxMessageSize d [] body.chunks views)
    (such : List Bytes → Prop) :
    Hands dec z encoding maxMessageSize d body direction such ↔ such views := by
  obtain ⟨msgs, o, t, reads, logged⟩ := reads_calls dec z encoding maxMessageSize calls [] _
    (new_receiving encoding maxMessageSize body direction)
  rw [List.nil_append] at logged
  constructor
  · rintro ⟨msgs', o', u, other, holds⟩
    have same := (reads_unique _ reads other).2.2
    rw [← logged, same]
    exact holds
  · intro holds
    exact ⟨msgs, o, t, reads, logged ▸ holds⟩

/-- However the first of these payloads are sent, compressed or not, and cut: the decoder
    is handed each of them once, and then the payload of whatever frame comes next. -/
def Undisturbed (d : δ) (payloads : List Bytes) : Prop :=
  ∀ frames front, front <+: payloads →
    List.Forall₂ (Delivers z encoding maxMessageSize) frames front →
    (∀ body direction, body.data = writeAll frames →
      Hands dec z encoding maxMessageSize d body direction (· = front)) ∧
    ∀ next payload, Delivers z encoding maxMessageSize next payload → ∀ body direction,
      body.data = writeAll frames ++ next.write →
        Hands dec z encoding maxMessageSize d body direction (front ++ [payload] <+: ·)

theorem takes_front {d : δ} {front payloads : List Bytes} (part : front <+: payloads)
    (takes : Takes dec maxMessageSize d payloads) : Takes dec maxMessageSize d front := by
  induction front generalizing d payloads with
  | nil => trivial
  | cons payload front ih =>
    obtain ⟨rest, rfl⟩ := part
    exact ⟨takes.1, takes.2.1, ih (List.prefix_append front rest) takes.2.2⟩

theorem takes_undisturbed {d : δ} {payloads : List Bytes}
    (takes : Takes dec maxMessageSize d payloads) :
    Undisturbed dec z encoding maxMessageSize d payloads := by
  intro frames front part sent
  have taken := takes_front dec maxMessageSize part takes
  constructor
  · intro body direction data
    have all : [] ++ (Body.mk body.chunks body.tail).data = writeAll frames ++ [] := by
      rw [List.append_nil]
      exact data
    obtain ⟨views, calls, rest, split, none⟩ := takes_calls dec z encoding maxMessageSize (· = [])
      (fun d bytes chunks all => ⟨[], nothing_calls dec z encoding maxMessageSize d bytes chunks all,
        rfl⟩) sent d [] body.chunks taken all
    rw [hands_iff dec z encoding maxMessageSize calls, split, none, List.append_nil]
  · intro next payload delivers body direction data
    have all : [] ++ (Body.mk body.chunks body.tail).data = writeAll frames ++ next.write := data
    obtain ⟨views, calls, rest, split, first⟩ := takes_calls dec z encoding maxMessageSize
      ([payload] <+: ·) (fun d bytes chunks all => next_calls dec z encoding maxMessageSize delivers d
        bytes chunks all) sent d [] body.chunks taken all
    rw [hands_iff dec z encoding maxMessageSize calls, split]
    exact (List.prefix_append_right_inj front).mpr first

section Disturbed
variable {d : δ} {payload : Bytes} {payloads : List Bytes}

theorem chunk_calls {bytes : Bytes} {chunks : List Chunk} {views : List Bytes}
    (calls : Calls dec z encoding maxMessageSize d bytes chunks views) :
    Calls dec z encoding maxMessageSize d [] (.data bytes :: chunks) views := by
  have waits : idle dec z encoding maxMessageSize d [] = some (d, [], []) := rfl
  exact .data waits calls

theorem undisturbed_next (undisturbed : Undisturbed dec z encoding maxMessageSize d
      (payload :: payloads)) {f next : Framed} {message : Bytes} {views : List Bytes}
    (delivers : Delivers z encoding maxMessageSize f payload)
    (follows : Delivers z encoding maxMessageSize next message)
    (calls : Calls dec z encoding maxMessageSize d (f.write ++ next.write) [] views) :
    [payload, message] <+: views := by
  have part : [payload] <+: payload :: payloads := List.prefix_append [payload] payloads
  have both := (undisturbed [f] [payload] part (.cons delivers .nil)).2 next message follows
    ⟨[.data (f.write ++ next.write)], .eof⟩ .request (by simp [writeAll])
  exact (hands_iff dec z encoding maxMessageSize
    (chunk_calls dec z encoding maxMessageSize calls) _).mp both

theorem empty_delivers : Delivers z encoding maxMessageSize ⟨0, []⟩ [] :=
  fits_plain_delivers z encoding maxMessageSize
    ⟨by decide, length_within_ok (Nat.zero_le _)⟩

theorem undisturbed_answer {f : Framed} (delivers : Delivers z encoding maxMessageSize f payload)
    (undisturbed : Undisturbed dec z encoding maxMessageSize d (payload :: payloads)) :
    ∃ msg, (dec.decode d payload).result = .ok (some msg) := by
  obtain ⟨hands, scan⟩ := delivered_frame dec z encoding maxMessageSize delivers
    (Framed.write ⟨0, []⟩)
  have scan := scan d
  have alone (calls : Calls dec z encoding maxMessageSize d (f.write ++ Framed.write ⟨0, []⟩) []
      [payload]) : False := by
    have both := undisturbed_next dec z encoding maxMessageSize undisturbed delivers
      (empty_delivers z encoding maxMessageSize) calls
    simpa using both.length_le
  rw [scanPayload] at scan
  cases answer : (dec.decode d payload).result with
  | error status =>
    rw [answer] at scan
    have calls : Calls dec z encoding maxMessageSize d (f.write ++ Framed.write ⟨0, []⟩) [] _ :=
      .bad scan
    rw [hands] at calls
    exact (alone calls).elim
  | ok item =>
    rw [answer] at scan
    cases item with
    | some msg => exact ⟨msg, rfl⟩
    | none =>
      have calls := Calls.finished (idle_stall dec z encoding maxMessageSize scan)
      rw [hands] at calls
      exact (alone calls).elim

/-- Bytes left in front of a frame take at least one of its header bytes for their own
    header, which cannot then tell two payloads of one byte apart. -/
theorem left_behind {left : Bytes} (some_left : left ≠ [])
    (none : handed z encoding maxMessageSize (left ++ Framed.write ⟨0, []⟩) = some [])
    (zero : handed z encoding maxMessageSize (left ++ Framed.write ⟨0, [0]⟩) = some [0])
    (one : handed z encoding maxMessageSize (left ++ Framed.write ⟨0, [1]⟩) = some [1]) : False := by
  have apart (tail : Bytes) : left ++ ([0, 0, 0, 0] ++ tail) = (left ++ [0, 0, 0, 0]) ++ tail :=
    (List.append_assoc _ _ _).symm
  have none : handed z encoding maxMessageSize (left ++ [0, 0, 0, 0] ++ [0]) = some [] :=
    apart [0] ▸ none
  have zero : handed z encoding maxMessageSize (left ++ [0, 0, 0, 0] ++ [1, 0]) = some [0] :=
    apart [1, 0] ▸ zero
  have one : handed z encoding maxMessageSize (left ++ [0, 0, 0, 0] ++ [1, 1]) = some [1] :=
    apart [1, 1] ▸ one
  cases header : LengthFraming.readHeader (left ++ [0, 0, 0, 0]) with
  | none =>
    have short := (read_header_none_iff _).mp header
    have long := List.length_pos_iff.mpr some_left
    simp only [List.length_append, List.length_cons, List.length_nil] at short
    omega
  | some triple =>
    obtain ⟨flag, len, rest⟩ := triple
    simp only [handed, read_header_append header] at none zero one
    split at none
    · cases none
    · rename_i compression flagged
      simp only [flagged] at zero one
      split at none
      · cases none
      · rename_i within
        simp only [within] at zero one
        have enough : len ≤ rest.length + 1 := by
          by_contra fewer
          simp [handedBody, Nat.not_le.mp fewer] at none
        have long : ∀ byte : UInt8, ¬ (rest ++ [1, byte]).length < len := by
          intro byte
          simp only [List.length_append, List.length_cons, List.length_nil]
          omega
        have same : ∀ byte : UInt8, (rest ++ [1, byte]).take len = (rest ++ [1]).take len := by
          intro byte
          have split : rest ++ [1, byte] = rest ++ [1] ++ [byte] := by simp
          rw [split, List.take_append_of_le_length (by simpa using enough)]
        simp only [handedBody, long, same, if_false] at zero one
        rw [zero] at one
        cases one

/-- A decoder that leaves bytes of an uncompressed payload keeps the next one from itself. -/
theorem undisturbed_whole {msg : T} (fits : FitsPlain maxMessageSize payload)
    (answer : (dec.decode d payload).result = .ok (some msg))
    (undisturbed : Undisturbed dec z encoding maxMessageSize d (payload :: payloads)) :
    (dec.decode d payload).consumed = payload.length := by
  by_contra partly
  have bounded := dec.bounded d payload
  have delivers := fits_plain_delivers z encoding maxMessageSize fits
  have some_left : payload.drop (dec.decode d payload).consumed ≠ [] := by
    rw [ne_eq, List.drop_eq_nil_iff]
    omega
  have next {byte : Bytes} (follows : Delivers z encoding maxMessageSize ⟨0, byte⟩ byte) :
      handed z encoding maxMessageSize
        (payload.drop (dec.decode d payload).consumed ++ Framed.write ⟨0, byte⟩) = some byte := by
    obtain ⟨hands, scan⟩ := delivered_frame dec z encoding maxMessageSize delivers
      (Framed.write ⟨0, byte⟩)
    have scan := scan d
    simp only [scanPayload, answer, leftAfter, if_true,
      List.drop_append_of_le_length bounded] at scan
    obtain ⟨views, later⟩ := calls_total dec z encoding maxMessageSize (dec.decode d payload).next
      (payload.drop (dec.decode d payload).consumed ++ Framed.write ⟨0, byte⟩) []
    have calls := Calls.message scan later
    rw [hands] at calls
    have both := undisturbed_next dec z encoding maxMessageSize undisturbed delivers follows calls
    apply calls_at_end dec z encoding maxMessageSize later
    simpa using both
  have single (byte : UInt8) : Delivers z encoding maxMessageSize ⟨0, [byte]⟩ [byte] := by
    apply fits_plain_delivers
    refine ⟨by simp, length_within_ok ?_⟩
    have small := (length_within_iff _ _).mp fits.2
    simp only [List.length_singleton]
    omega
  exact left_behind z encoding maxMessageSize some_left
    (next (empty_delivers z encoding maxMessageSize)) (next (single 0)) (next (single 1))

theorem undisturbed_later {f : Framed} {msg : T}
    (delivers : Delivers z encoding maxMessageSize f payload)
    (answer : (dec.decode d payload).result = .ok (some msg))
    (whole : FitsPlain maxMessageSize payload →
      (dec.decode d payload).consumed = payload.length)
    (undisturbed : Undisturbed dec z encoding maxMessageSize d (payload :: payloads)) :
    Undisturbed dec z encoding maxMessageSize (dec.decode d payload).next payloads := by
  intro frames front part sent
  obtain ⟨exact_part, next_part⟩ := undisturbed (f :: frames) (payload :: front)
    (by simpa using part) (.cons delivers sent)
  have behind (body : Body Status) {views : List Bytes}
      (calls : Calls dec z encoding maxMessageSize (dec.decode d payload).next [] body.chunks
        views) :
      Calls dec z encoding maxMessageSize d [] (.data f.write :: body.chunks)
        (payload :: views) := by
    have scan := taken_frame dec z encoding maxMessageSize delivers answer whole []
    have hands := (delivered_frame dec z encoding maxMessageSize delivers []).1
    rw [List.append_nil] at scan hands
    have first := Calls.message scan calls
    rw [hands] at first
    exact chunk_calls dec z encoding maxMessageSize first
  constructor
  · intro body direction data
    obtain ⟨views, calls⟩ := calls_total dec z encoding maxMessageSize (dec.decode d payload).next []
      body.chunks
    have all : (Body.mk (.data f.write :: body.chunks) body.tail).data =
        writeAll (f :: frames) := by
      rw [body_data_cons, writeAll, List.flatMap_cons, ← writeAll, ← data]
    have longer := exact_part ⟨.data f.write :: body.chunks, body.tail⟩ direction all
    rw [hands_iff dec z encoding maxMessageSize (behind body calls)] at longer
    rw [hands_iff dec z encoding maxMessageSize calls]
    simpa using longer
  · intro next message follows body direction data
    obtain ⟨views, calls⟩ := calls_total dec z encoding maxMessageSize (dec.decode d payload).next []
      body.chunks
    have all : (Body.mk (.data f.write :: body.chunks) body.tail).data =
        writeAll (f :: frames) ++ next.write := by
      rw [body_data_cons, writeAll, List.flatMap_cons, ← writeAll, List.append_assoc, ← data]
    have longer := next_part next message follows ⟨.data f.write :: body.chunks, body.tail⟩
      direction all
    rw [hands_iff dec z encoding maxMessageSize (behind body calls)] at longer
    rw [hands_iff dec z encoding maxMessageSize calls]
    simpa using longer

end Disturbed

/-- A decoder leaves the framing alone exactly when it makes a message of each payload
    and reads those that may come uncompressed to their end. -/
theorem frames_undisturbed_iff (d : δ) {frames : List Framed} {payloads : List Bytes}
    (sent : List.Forall₂ (Delivers z encoding maxMessageSize) frames payloads) :
    Undisturbed dec z encoding maxMessageSize d payloads ↔ Takes dec maxMessageSize d payloads := by
  constructor
  · intro undisturbed
    induction sent generalizing d with
    | nil => trivial
    | cons delivers _ ih =>
      obtain ⟨msg, answer⟩ := undisturbed_answer dec z encoding maxMessageSize delivers undisturbed
      have whole fits := undisturbed_whole dec z encoding maxMessageSize fits answer undisturbed
      exact ⟨⟨msg, answer⟩, whole, ih _ (undisturbed_later dec z encoding maxMessageSize delivers
        answer whole undisturbed)⟩
  · exact takes_undisturbed dec z encoding maxMessageSize

/-- One byte in a stored deflate block, decompressed. -/
def storedBlock : Bytes := [1, 1, 0, 254, 255, 7]

def storedOnly : Compressors :=
  ⟨fun _ _ => .ok storedBlock, fun _ packed =>
    if packed = storedBlock then .ok [7] else .error "corrupt deflate stream"⟩

theorem frames_undisturbed_two :
    let dec := plainDecoder fun bytes : Bytes => (.ok bytes : Except Status Bytes)
    List.Forall₂ (Delivers storedOnly (some .deflate) (some 64)) [⟨0, [9, 9]⟩, ⟨1, storedBlock⟩]
        [[9, 9], [7]] ∧
      (Undisturbed dec storedOnly (some .deflate) (some 64) () [[9, 9], [7]] ↔
        Takes dec (some 64) () [[9, 9], [7]]) := by
  intro dec
  have plain : Delivers storedOnly (some .deflate) (some 64) ⟨0, [9, 9]⟩ [9, 9] :=
    ⟨by decide, length_within_ok (by decide), .inl ⟨rfl, rfl⟩⟩
  have packed : Delivers storedOnly (some .deflate) (some 64) ⟨1, storedBlock⟩ [7] :=
    ⟨by decide, length_within_ok (by decide), .inr ⟨rfl, .deflate, rfl, by simp [storedOnly]⟩⟩
  have sent := List.Forall₂.cons plain (List.Forall₂.cons packed List.Forall₂.nil)
  exact ⟨sent, frames_undisturbed_iff dec storedOnly (some .deflate) (some 64) () sent⟩

def firstByte : Decoder Unit Bytes where
  decode _ view := ⟨.ok (some (view.take 1)), (view.take 1).length, ()⟩
  bounded _ view := List.length_take_le' 1 view

/-- Three bytes of a payload are left, and read as the next header together with the
    first of it; and an empty message ends the calls where one more is sent. -/
theorem leftover_read_as_header :
    (∀ d view, ∃ item, (firstByte.decode d view).result = .ok item) ∧
      Hands firstByte storedOnly none (some 64) ()
        ⟨[.data (writeAll [⟨0, [9, 0, 0, 0]⟩, ⟨0, [7]⟩])], .eof⟩ .request
        (· = [[9, 0, 0, 0], []]) ∧
      ¬ Undisturbed firstByte storedOnly none (some 64) () [[9, 0, 0, 0]] ∧
      (∀ d view, ∃ item, (testDecoder.decode d view).result = .ok item) ∧
      Hands testDecoder storedOnly none (some 64) ()
        ⟨[.data (writeAll [⟨0, []⟩, ⟨0, [7]⟩])], .eof⟩ .request (· = [[]]) ∧
      ¬ Undisturbed testDecoder storedOnly none (some 64) () [[]] := by
  have plain {payload : Bytes} (small : payload.length ≤ 64) :
      Delivers storedOnly none (some 64) ⟨0, payload⟩ payload :=
    fits_plain_delivers storedOnly none (some 64) ⟨by omega, length_within_ok small⟩
  have first : Calls firstByte storedOnly none (some 64) ()
      (Framed.write ⟨0, [9, 0, 0, 0]⟩ ++ Framed.write ⟨0, [7]⟩) [] [[9, 0, 0, 0], []] := by
    obtain ⟨hands, scan⟩ := delivered_frame firstByte storedOnly none (some 64)
      (plain (by decide) : Delivers _ _ _ ⟨0, [9, 0, 0, 0]⟩ _) (Framed.write ⟨0, [7]⟩)
    obtain ⟨empty, again⟩ := delivered_frame firstByte storedOnly none (some 64)
      (plain (by decide) : Delivers _ _ _ ⟨0, []⟩ _) [0, 0, 1, 7]
    have short : scanFrame firstByte storedOnly none (some 64) () [0, 0, 1, 7] = .short := rfl
    have last := Calls.message (again ())
      (.finished (idle_short firstByte storedOnly none (some 64) short))
    rw [empty] at last
    have calls := Calls.message (scan ()) last
    rw [hands] at calls
    exact calls
  have withheld : Calls testDecoder storedOnly none (some 64) ()
      (Framed.write ⟨0, []⟩ ++ Framed.write ⟨0, [7]⟩) [] [[]] := by
    obtain ⟨hands, scan⟩ := delivered_frame testDecoder storedOnly none (some 64)
      (plain (by decide) : Delivers _ _ _ ⟨0, []⟩ _) (Framed.write ⟨0, [7]⟩)
    have calls := Calls.finished (idle_stall testDecoder storedOnly none (some 64) (scan ()))
    rw [hands] at calls
    exact calls
  refine ⟨fun _ _ => ⟨_, rfl⟩, ?_, ?_, ?_, ?_, ?_⟩
  · exact (hands_iff firstByte storedOnly none (some 64)
      (chunk_calls firstByte storedOnly none (some 64) first) _).mpr rfl
  · intro undisturbed
    have both := undisturbed_next firstByte storedOnly none (some 64) undisturbed
      (plain (by decide)) (plain (by decide)) first
    simp at both
  · intro d view
    by_cases nothing : view = []
    · exact ⟨none, by simp [testDecoder, nothing]⟩
    · exact ⟨some view, by simp [testDecoder, nothing]⟩
  · exact (hands_iff testDecoder storedOnly none (some 64)
      (chunk_calls testDecoder storedOnly none (some 64) withheld) _).mpr rfl
  · intro undisturbed
    have both := undisturbed_next testDecoder storedOnly none (some 64) undisturbed
      (plain (by decide)) (plain (by decide)) withheld
    simp at both

end FrameIsolation
