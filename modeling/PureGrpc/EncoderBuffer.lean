import PureGrpc.EncodeOrder

/-!
The buffer of the sending side. An item adds its whole frame or nothing, so at every
poll the buffer and the chunks given so far are together the frames of the messages
accepted so far.
-/
namespace EncoderBuffer
open LengthFraming GrpcStatus GrpcCompression GrpcCodec PolledMachines MessageEncoding EncodeOrder

variable {σ T : Type} (enc : Encoder σ T) (z : Compressors)
  (compressionEncoding : Option CompressionEncoding) (maxMessageSize : Option Nat)

def payloadOf (written : Bytes) : Except String Bytes :=
  match compressionEncoding with
  | none => .ok written
  | some encoding => z.compress encoding written

/-- An accepted item: its payload behind a header that announces its length. -/
structure Appended (encoder : σ) (buf : Bytes) (item : T) (payload after : Bytes) : Prop where
  encoded : (enc.encode encoder item).result = .ok ()
  packed : payloadOf z compressionEncoding (enc.encode encoder item).written = .ok payload
  fits : payload.length < 2 ^ 32
  after_eq : after =
    buf ++ compressionFlag compressionEncoding :: (beBytes payload.length ++ payload)

theorem frame_of_payload {encoder : σ} {item : T} {frame : Framed}
    (framed : frameOf enc z compressionEncoding maxMessageSize encoder item = .ok frame)
    (buf : Bytes) :
    Appended enc z compressionEncoding encoder buf item frame.payload (buf ++ frame.write) := by
  cases result : (enc.encode encoder item).result with
  | error err => simp [frameOf, result] at framed
  | ok _ =>
    cases compressionEncoding with
    | none =>
      simp only [frameOf, result] at framed
      obtain ⟨fits, rfl⟩ := seal_payload_fits _ _ framed
      exact ⟨result, rfl, fits, rfl⟩
    | some encoding =>
      cases packing : z.compress encoding (enc.encode encoder item).written with
      | error err => simp [frameOf, result, packing] at framed
      | ok packed =>
        simp only [frameOf, result, packing] at framed
        obtain ⟨fits, rfl⟩ := seal_payload_fits _ _ framed
        exact ⟨result, packing, fits, rfl⟩

theorem encode_item_atomic (encoder : σ) (buf : Bytes) (item : T) :
    (∃ payload after next, encodeItem enc z compressionEncoding maxMessageSize encoder buf item =
        (.ok (), after, next) ∧
      Appended enc z compressionEncoding encoder buf item payload after) ∨
    ∃ status next, encodeItem enc z compressionEncoding maxMessageSize encoder buf item =
      (.error status, buf, next) := by
  rw [encode_item_spec]
  cases framed : frameOf enc z compressionEncoding maxMessageSize encoder item with
  | error status => exact .inr ⟨status, _, rfl⟩
  | ok frame => exact .inl ⟨frame.payload, _, _, rfl, frame_of_payload enc z _ _ framed buf⟩

def accepted : List (SourceEvent T) → σ → List Framed
  | [], _ => []
  | .item (.ok item) :: rest, encoder =>
    (frameOf enc z compressionEncoding maxMessageSize encoder item).toOption.toList ++
      accepted rest (enc.encode encoder item).next
  | _ :: rest, encoder => accepted rest encoder

def encoderAfter : List (SourceEvent T) → σ → σ
  | [], encoder => encoder
  | .item (.ok item) :: rest, encoder => encoderAfter rest (enc.encode encoder item).next
  | _ :: rest, encoder => encoderAfter rest encoder

theorem accepted_append (taken rest : List (SourceEvent T)) (encoder : σ) :
    accepted enc z compressionEncoding maxMessageSize (taken ++ rest) encoder =
      accepted enc z compressionEncoding maxMessageSize taken encoder ++
        accepted enc z compressionEncoding maxMessageSize rest (encoderAfter enc taken encoder) ∧
    encoderAfter enc (taken ++ rest) encoder =
      encoderAfter enc rest (encoderAfter enc taken encoder) := by
  induction taken generalizing encoder with
  | nil => exact ⟨rfl, rfl⟩
  | cons event taken ih =>
    match event with
    | .pending => exact ih encoder
    | .item (.error _) => exact ih encoder
    | .item (.ok item) =>
      obtain ⟨frames, last⟩ := ih (enc.encode encoder item).next
      refine ⟨?_, last⟩
      simp only [List.cons_append, accepted, encoderAfter, frames, List.append_assoc]

theorem accepted_fit (events : List (SourceEvent T)) (encoder : σ) :
    ∀ frame ∈ accepted enc z compressionEncoding maxMessageSize events encoder,
      frame.payload.length < 2 ^ 32 := by
  induction events generalizing encoder with
  | nil => simp [accepted]
  | cons event rest ih =>
    match event with
    | .pending => exact ih encoder
    | .item (.error _) => exact ih encoder
    | .item (.ok item) =>
      intro frame mem
      rw [accepted, List.mem_append] at mem
      cases mem with
      | inl here =>
        cases framed : frameOf enc z compressionEncoding maxMessageSize encoder item with
        | error status => simp [framed, Except.toOption] at here
        | ok held =>
          simp only [framed, Except.toOption, Option.toList_some, List.mem_singleton] at here
          exact here ▸ frame_fits enc z _ _ framed
      | inr later => exact ih _ frame later

/-- Where the sending side is after taking these events: the frames sent in chunks and the
frames held in the buffer are those accepted, in order. -/
structure Sound (source : List (SourceEvent T)) (encoder : σ) (taken : List (SourceEvent T))
    (sent : List (List Framed)) (held : List Framed) (s : EncodedBytes σ T) : Prop where
  rest : source = taken ++ s.source
  encoder_eq : s.encoder = encoderAfter enc taken encoder
  encoding : s.compressionEncoding = compressionEncoding
  limit : s.maxMessageSize = maxMessageSize
  buffer : s.buf = writeAll held
  account : sent.flatten ++ held =
    accepted enc z compressionEncoding maxMessageSize taken encoder
  filled : ∀ frames ∈ sent, frames ≠ []

def okChunks (items : List (Except Status Bytes)) : List Bytes :=
  items.filterMap (·.toOption)

/-- A state and the items given so far, with the frames behind both. -/
def Accounted (source : List (SourceEvent T)) (encoder : σ) (items : List (Except Status Bytes))
    (s : EncodedBytes σ T) : Prop :=
  ∃ taken sent held,
    Sound enc z compressionEncoding maxMessageSize source encoder taken sent held s ∧
      okChunks items = sent.map writeAll

section Steps
variable {source rest : List (SourceEvent T)} {encoder : σ} {taken : List (SourceEvent T)}
  {sent : List (List Framed)} {held : List Framed} {s : EncodedBytes σ T}
  {items : List (Except Status Bytes)}

theorem sound_skip {event : SourceEvent T} (other : ∀ item, event ≠ .item (.ok item))
    (sound : Sound enc z compressionEncoding maxMessageSize source encoder taken sent held
      { s with source := event :: rest }) :
    Sound enc z compressionEncoding maxMessageSize source encoder (taken ++ [event]) sent held
      { s with source := rest } := by
  have skipped (e : σ) : accepted enc z compressionEncoding maxMessageSize [event] e = [] ∧
      encoderAfter enc [event] e = e := by
    match event with
    | .pending => exact ⟨rfl, rfl⟩
    | .item (.error _) => exact ⟨rfl, rfl⟩
    | .item (.ok item) => exact absurd rfl (other item)
  obtain ⟨frames, last⟩ :=
    accepted_append enc z compressionEncoding maxMessageSize taken [event] encoder
  exact
    { sound with
      rest := by rw [sound.rest, List.append_assoc, List.singleton_append]
      encoder_eq := by rw [last, (skipped _).2]; exact sound.encoder_eq
      account := by rw [frames, (skipped _).1, List.append_nil]; exact sound.account }

theorem sound_item {item : T} (buf : Bytes)
    (sound : Sound enc z compressionEncoding maxMessageSize source encoder taken sent held
      { s with source := .item (.ok item) :: rest })
    (filled : buf = s.buf ++ writeAll
      (frameOf enc z compressionEncoding maxMessageSize s.encoder item).toOption.toList) :
    Sound enc z compressionEncoding maxMessageSize source encoder (taken ++ [.item (.ok item)])
      sent
      (held ++ (frameOf enc z compressionEncoding maxMessageSize s.encoder item).toOption.toList)
      { s with source := rest, buf := buf, encoder := (enc.encode s.encoder item).next } := by
  obtain ⟨frames, last⟩ := accepted_append enc z compressionEncoding maxMessageSize taken
    [.item (.ok item)] encoder
  have here : s.encoder = encoderAfter enc taken encoder := sound.encoder_eq
  exact
    { sound with
      rest := by rw [sound.rest, List.append_assoc, List.singleton_append]
      encoder_eq := by rw [last, ← here]; rfl
      buffer := by
        have before : s.buf = writeAll held := sound.buffer
        rw [filled, before, write_all_append]
      account := by
        rw [frames, ← sound.account, ← here, accepted, accepted, List.append_nil,
          List.append_assoc] }

theorem sound_flush (some_held : held ≠ [])
    (sound : Sound enc z compressionEncoding maxMessageSize source encoder taken sent held s) :
    Sound enc z compressionEncoding maxMessageSize source encoder taken (sent ++ [held]) []
      { s with buf := [] } :=
  { sound with
    buffer := rfl
    account := by
      rw [List.flatten_append, List.flatten_singleton, List.append_nil]
      exact sound.account
    filled := by
      intro frames mem
      rcases List.mem_append.mp mem with old | new
      · exact sound.filled frames old
      · exact List.mem_singleton.mp new ▸ some_held }

theorem accounted_silent {answer : Poll (Option (Except Status Bytes))}
    (silent : ∀ chunk, answer ≠ .ready (some (.ok chunk)))
    (sound : Sound enc z compressionEncoding maxMessageSize source encoder taken sent held s)
    (chunks : okChunks items = sent.map writeAll) :
    Accounted enc z compressionEncoding maxMessageSize source encoder
      (items ++ itemsOf answer) s := by
  have none : okChunks (itemsOf answer) = [] := by
    rcases answer with _ | _ | status | chunk
    · rfl
    · rfl
    · rfl
    · exact absurd rfl (silent chunk)
  refine ⟨taken, sent, held, sound, ?_⟩
  rw [okChunks, List.filterMap_append]
  exact (congrArg (_ ++ ·) none).trans ((List.append_nil _).trans chunks)

theorem accounted_flush (filled : s.buf ≠ [])
    (sound : Sound enc z compressionEncoding maxMessageSize source encoder taken sent held s)
    (chunks : okChunks items = sent.map writeAll) :
    Accounted enc z compressionEncoding maxMessageSize source encoder
      (items ++ itemsOf s.flush.1) s.flush.2 := by
  have frames : held ≠ [] := by
    intro empty
    exact filled (sound.buffer.trans ((write_all_eq_nil held).mpr empty))
  refine ⟨taken, sent ++ [held], [], sound_flush enc z _ _ frames sound, ?_⟩
  rw [okChunks, List.filterMap_append, List.map_append, ← chunks]
  exact congrArg (_ ++ [·]) sound.buffer

theorem poll_source_accounted (yieldThreshold : Nat) (events : List (SourceEvent T))
    (sound : Sound enc z compressionEncoding maxMessageSize source encoder taken sent held
      { s with source := events })
    (chunks : okChunks items = sent.map writeAll) :
    Accounted enc z compressionEncoding maxMessageSize source encoder
      (items ++ itemsOf (s.pollSource enc z yieldThreshold events).1)
      (s.pollSource enc z yieldThreshold events).2 := by
  have run := polled enc z yieldThreshold events s
  generalize s.pollSource enc z yieldThreshold events = result at run ⊢
  induction run generalizing taken held with
  | ends empty => exact accounted_silent enc z _ _ (by simp) sound chunks
  | endsLater filled => exact accounted_flush enc z _ _ filled sound chunks
  | waits empty =>
    exact accounted_silent enc z _ _ (by simp) (sound_skip enc z _ _ (by simp) sound) chunks
  | waitsLater filled =>
    exact accounted_flush enc z _ _ filled (sound_skip enc z _ _ (by simp) sound) chunks
  | fails empty =>
    exact accounted_silent enc z _ _ (by simp) (sound_skip enc z _ _ (by simp) sound) chunks
  | @failsLater s status rest filled =>
    have skipped := sound_skip enc z _ _ (by simp) sound
    exact accounted_flush (s := { s with source := rest, error := some status }) enc z _ _ filled
      { skipped with } chunks
  | @refused s item status rest framed =>
    obtain rfl : s.compressionEncoding = compressionEncoding := sound.encoding
    obtain rfl : s.maxMessageSize = maxMessageSize := sound.limit
    have item_sound := sound_item enc z _ _ s.buf sound
    rw [framed] at item_sound
    exact accounted_silent enc z _ _ (by simp) (item_sound (List.append_nil _).symm) chunks
  | @full s item frame rest framed enough =>
    obtain rfl : s.compressionEncoding = compressionEncoding := sound.encoding
    obtain rfl : s.maxMessageSize = maxMessageSize := sound.limit
    have grown := sound_item enc z _ _ (s.buf ++ frame.write) sound
      (by rw [framed, Except.toOption, Option.toList_some, write_all_single])
    rw [framed] at grown
    exact accounted_flush enc z _ _ (by simp [Framed.write]) grown chunks
  | @buffers s item frame rest result framed _ ih =>
    obtain rfl : s.compressionEncoding = compressionEncoding := sound.encoding
    obtain rfl : s.maxMessageSize = maxMessageSize := sound.limit
    have grown := sound_item enc z _ _ (s.buf ++ frame.write) sound
      (by rw [framed, Except.toOption, Option.toList_some, write_all_single])
    exact ih grown

theorem poll_next_accounted
    (accounted : Accounted enc z compressionEncoding maxMessageSize source encoder items s) :
    Accounted enc z compressionEncoding maxMessageSize source encoder
      (items ++ itemsOf (s.pollNext enc z).1) (s.pollNext enc z).2 := by
  obtain ⟨taken, sent, held, sound, chunks⟩ := accounted
  rw [EncodedBytes.pollNext]
  split
  · exact accounted_silent enc z _ _ (by simp) { sound with } chunks
  · exact poll_source_accounted enc z _ _ _ s.source sound chunks

end Steps

theorem new_accounted (encoder : σ) (source : List (SourceEvent T)) (n : Nat) :
    let s := EncodedBytes.new encoder source compressionEncoding maxMessageSize
    Accounted enc z compressionEncoding maxMessageSize source encoder
      (given (EncodedBytes.pollNext enc z) s n) (stateAt (EncodedBytes.pollNext enc z) s n) := by
  intro s
  apply polls_account
  · intro items s accounted
    exact poll_next_accounted enc z _ _ accounted
  · exact ⟨[], [], [], ⟨rfl, rfl, rfl, rfl, rfl, rfl, by simp⟩, rfl⟩

theorem write_all_whole {frames : List Framed}
    (fit : ∀ frame ∈ frames, frame.payload.length < 2 ^ 32) : Whole (writeAll frames) := by
  have run := split_writes frames fit []
  rw [List.append_nil] at run
  rw [Whole, writeAll, run, split_nil]

/-- Encoding one item appends one whole frame or nothing; so in every state the buffer is
whole frames of accepted messages, and so is every chunk, which is never empty. -/
theorem encoder_keeps_frames :
    (∀ encoder buf item,
      (∃ payload after next, encodeItem enc z compressionEncoding maxMessageSize encoder buf item =
          (.ok (), after, next) ∧
        Appended enc z compressionEncoding encoder buf item payload after) ∨
      ∃ status next, encodeItem enc z compressionEncoding maxMessageSize encoder buf item =
        (.error status, buf, next)) ∧
    ∀ encoder source n,
      let poll := EncodedBytes.pollNext enc z
      let start := EncodedBytes.new encoder source compressionEncoding maxMessageSize
      ∃ (taken : List (SourceEvent T)) (sent : List (List Framed)) (held : List Framed),
        source = taken ++ (stateAt poll start n).source ∧
        (stateAt poll start n).buf = writeAll held ∧ Whole (writeAll held) ∧
        okChunks (given poll start n) = sent.map writeAll ∧
        (∀ frames ∈ sent, writeAll frames ≠ [] ∧ Whole (writeAll frames)) ∧
        sent.flatten ++ held =
          accepted enc z compressionEncoding maxMessageSize taken encoder := by
  refine ⟨encode_item_atomic enc z compressionEncoding maxMessageSize, ?_⟩
  intro encoder source n
  obtain ⟨taken, sent, held, sound, chunks⟩ :=
    new_accounted enc z compressionEncoding maxMessageSize encoder source n
  have fit : ∀ frame ∈ sent.flatten ++ held, frame.payload.length < 2 ^ 32 := by
    rw [sound.account]
    exact accepted_fit enc z compressionEncoding maxMessageSize taken encoder
  refine ⟨taken, sent, held, sound.rest, sound.buffer, ?_, chunks, ?_, sound.account⟩
  · exact write_all_whole fun frame mem => fit frame (List.mem_append_right _ mem)
  · intro frames mem
    constructor
    · intro empty
      exact sound.filled frames mem ((write_all_eq_nil frames).mp empty)
    · apply write_all_whole
      intro frame inside
      exact fit frame (List.mem_append_left _ (List.mem_flatten.mpr ⟨frames, mem, inside⟩))

end EncoderBuffer
