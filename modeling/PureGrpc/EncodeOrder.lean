import PureGrpc.MessageEncoding

/-!
What the sending side emits over all its polls. `emitted` is the whole run as a
recursion over the source, with frames in place of bytes; polling produces
exactly it. From it follow what a source of good messages puts on the wire,
and when the output keeps the order of the source.
-/
namespace EncodeOrder
open LengthFraming GrpcStatus GrpcCompression GrpcCodec PolledMachines HttpBodies MessageEncoding

variable {σ T : Type} (enc : Encoder σ T) (z : Compressors)
  (compressionEncoding : Option CompressionEncoding) (maxMessageSize : Option Nat)

def writeAll (frames : List Framed) : Bytes := frames.flatMap Framed.write

@[simp] theorem write_all_nil : writeAll [] = [] := rfl

@[simp] theorem write_all_append (fs gs : List Framed) :
    writeAll (fs ++ gs) = writeAll fs ++ writeAll gs := by simp [writeAll]

theorem write_all_single (f : Framed) : writeAll [f] = f.write := by simp [writeAll]

theorem write_all_eq_nil (frames : List Framed) : writeAll frames = [] ↔ frames = [] := by
  cases frames with
  | nil => simp
  | cons f fs => simp [writeAll, Framed.write]

def flushed (held : List Framed) : List (Except Status (List Framed)) :=
  if held = [] then [] else [.ok held]

/-- Every item the sending side yields, from a poll that has read its threshold
    and holds these frames in its buffer. -/
def emitted (yieldThreshold : Nat) :
    List (SourceEvent T) → σ → List Framed → List (Except Status (List Framed))
  | [], _, held => flushed held
  | .pending :: rest, encoder, held =>
    flushed held ++ emitted (enc.bufferSettings encoder).yieldThreshold rest encoder []
  | .item (.ok item) :: rest, encoder, held =>
    let next := (enc.encode encoder item).next
    match frameOf enc z compressionEncoding maxMessageSize encoder item with
    | .error status =>
      .error status :: emitted (enc.bufferSettings next).yieldThreshold rest next held
    | .ok frame =>
      if yieldThreshold ≤ (writeAll (held ++ [frame])).length then
        .ok (held ++ [frame]) :: emitted (enc.bufferSettings next).yieldThreshold rest next []
      else emitted yieldThreshold rest next (held ++ [frame])
  | .item (.error status) :: rest, encoder, held =>
    flushed held ++
      .error status :: emitted (enc.bufferSettings encoder).yieldThreshold rest encoder []

def onWire (items : List (Except Status (List Framed))) : List (Except Status Bytes) :=
  items.map (·.map writeAll)

/-- The state between polls: these frames are in the buffer, no error is held back. -/
def holding (source : List (SourceEvent T)) (encoder : σ) (held : List Framed) :
    EncodedBytes σ T :=
  ⟨source, encoder, compressionEncoding, maxMessageSize, writeAll held, none⟩

theorem poll_source_follows (events source : List (SourceEvent T)) (yieldThreshold : Nat)
    (encoder : σ) (held : List Framed) :
    ∃ t, Follows (EncodedBytes.pollNext enc z)
      ((holding compressionEncoding maxMessageSize source encoder held).pollSource enc z
        yieldThreshold events)
      (onWire (emitted enc z compressionEncoding maxMessageSize yieldThreshold events
        encoder held)) t := by
  induction events generalizing yieldThreshold source encoder held with
  | nil =>
    simp only [EncodedBytes.pollSource, emitted, flushed, holding, write_all_eq_nil]
    split
    · exact ⟨_, rfl, rfl⟩
    · refine ⟨_, _, rfl, .stop
        (t := holding compressionEncoding maxMessageSize [] encoder []) ?_⟩
      rfl
  | cons event rest ih =>
    -- the polls after this one, from a state that has taken the event
    have later (encoder : σ) (held : List Framed) :
        ∃ t, Drains (EncodedBytes.pollNext enc z)
          (holding compressionEncoding maxMessageSize rest encoder held)
          (onWire (emitted enc z compressionEncoding maxMessageSize
            (enc.bufferSettings encoder).yieldThreshold rest encoder held)) t := by
      obtain ⟨t, run⟩ := ih rest (enc.bufferSettings encoder).yieldThreshold encoder held
      exact ⟨t, drains_of_follows _ run⟩
    cases event with
    | pending =>
      obtain ⟨t, run⟩ := later encoder []
      simp only [EncodedBytes.pollSource, emitted, flushed, holding, write_all_eq_nil]
      split
      · rename_i empty
        subst empty
        exact ⟨t, run⟩
      · exact ⟨t, _, rfl, run⟩
    | item result =>
      cases result with
      | error status =>
        obtain ⟨t, run⟩ := later encoder []
        simp only [EncodedBytes.pollSource, emitted, flushed, holding, write_all_eq_nil]
        split
        · rename_i empty
          subst empty
          exact ⟨t, _, rfl, run⟩
        · exact ⟨t, _, rfl, .item
            (t := holding compressionEncoding maxMessageSize rest encoder []) rfl run⟩
      | ok item =>
        simp only [EncodedBytes.pollSource, emitted, encode_item_spec, holding]
        cases frameOf enc z compressionEncoding maxMessageSize encoder item with
        | error status =>
          obtain ⟨t, run⟩ := later (enc.encode encoder item).next held
          exact ⟨t, _, rfl, run⟩
        | ok frame =>
          have more : writeAll held ++ frame.write = writeAll (held ++ [frame]) := by
            simp [write_all_single]
          simp only [more]
          split
          · obtain ⟨t, run⟩ := later (enc.encode encoder item).next []
            exact ⟨t, _, rfl, run⟩
          · exact ih source yieldThreshold (enc.encode encoder item).next (held ++ [frame])

theorem encoded_bytes_drains (encoder : σ) (events : List (SourceEvent T)) :
    ∃ t, Drains (EncodedBytes.pollNext enc z)
      (.new encoder events compressionEncoding maxMessageSize)
      (onWire (emitted enc z compressionEncoding maxMessageSize
        (enc.bufferSettings encoder).yieldThreshold events encoder [])) t := by
  obtain ⟨t, run⟩ := poll_source_follows enc z compressionEncoding maxMessageSize events events
    (enc.bufferSettings encoder).yieldThreshold encoder []
  exact ⟨t, drains_of_follows _ run⟩

/-- The source items in order, each message as its frame or its encoding error. -/
def image : List (SourceEvent T) → σ → List (Except Status Framed)
  | [], _ => []
  | .pending :: rest, encoder => image rest encoder
  | .item (.ok item) :: rest, encoder =>
    frameOf enc z compressionEncoding maxMessageSize encoder item ::
      image rest (enc.encode encoder item).next
  | .item (.error status) :: rest, encoder => .error status :: image rest encoder

/-- The frames inside the chunks, and the errors between them. -/
def unframed (items : List (Except Status Bytes)) : List (Except Status Framed) :=
  items.flatMap fun item =>
    match item with
    | .ok chunk => (splitFrames chunk).1.map .ok
    | .error status => [.error status]

/-- Every message that cannot be encoded comes when no bytes are buffered: since
    the last Pending, Err or reached threshold no frame has been written. -/
def FailsClear (yieldThreshold : Nat) : List (SourceEvent T) → σ → Nat → Prop
  | [], _, _ => True
  | .pending :: rest, encoder, _ =>
    FailsClear (enc.bufferSettings encoder).yieldThreshold rest encoder 0
  | .item (.ok item) :: rest, encoder, buffered =>
    let next := (enc.encode encoder item).next
    match frameOf enc z compressionEncoding maxMessageSize encoder item with
    | .error _ => buffered = 0 ∧
      FailsClear (enc.bufferSettings next).yieldThreshold rest next 0
    | .ok frame =>
      if yieldThreshold ≤ buffered + frame.write.length then
        FailsClear (enc.bufferSettings next).yieldThreshold rest next 0
      else FailsClear yieldThreshold rest next (buffered + frame.write.length)
  | .item (.error _) :: rest, encoder, _ =>
    FailsClear (enc.bufferSettings encoder).yieldThreshold rest encoder 0

def spread (items : List (Except Status (List Framed))) : List (Except Status Framed) :=
  items.flatMap fun item =>
    match item with
    | .ok frames => frames.map .ok
    | .error status => [.error status]

@[simp] theorem spread_nil : spread [] = [] := rfl

@[simp] theorem spread_error (status : Status) (rest : List (Except Status (List Framed))) :
    spread (.error status :: rest) = .error status :: spread rest := rfl

@[simp] theorem spread_ok (frames : List Framed) (rest : List (Except Status (List Framed))) :
    spread (.ok frames :: rest) = frames.map .ok ++ spread rest := rfl

theorem spread_flushed (held : List Framed) (rest : List (Except Status (List Framed))) :
    spread (flushed held ++ rest) = held.map .ok ++ spread rest := by
  unfold flushed
  split
  · rename_i empty
    simp [empty]
  · simp

theorem good_items_spread (items : List (Except Status (List Framed))) :
    goodItems (spread items) = (goodItems items).flatten ∧
      firstError (spread items) = firstError items := by
  induction items with
  | nil => exact ⟨rfl, rfl⟩
  | cons item items ih =>
    cases item with
    | error status => exact ⟨rfl, rfl⟩
    | ok frames =>
      obtain ⟨good, bad⟩ := good_items_append frames (spread items)
      simp only [spread_ok, good, bad, ih, goodItems, firstError, List.flatten_cons, and_self]

theorem good_items_on_wire (items : List (Except Status (List Framed))) :
    (goodItems (onWire items)).flatten = writeAll (goodItems items).flatten ∧
      firstError (onWire items) = firstError items := by
  induction items with
  | nil => exact ⟨rfl, rfl⟩
  | cons item items ih =>
    cases item with
    | error status => exact ⟨rfl, rfl⟩
    | ok frames =>
      obtain ⟨bytes, error⟩ := ih
      refine ⟨?_, error⟩
      simp only [onWire, List.map_cons, Except.map, goodItems, List.flatten_cons,
        write_all_append] at bytes ⊢
      rw [bytes]

def Fit (items : List (Except Status (List Framed))) : Prop :=
  ∀ frames, .ok frames ∈ items → ∀ f ∈ frames, f.payload.length < 2 ^ 32

theorem flushed_fit {held : List Framed} (fit : ∀ f ∈ held, f.payload.length < 2 ^ 32) :
    Fit (flushed held) := by
  intro frames mem
  unfold flushed at mem
  split at mem
  · cases mem
  · simp only [List.mem_singleton, Except.ok.injEq] at mem
    exact mem ▸ fit

theorem emitted_fit (events : List (SourceEvent T)) (yieldThreshold : Nat) (encoder : σ)
    (held : List Framed) (fit : ∀ f ∈ held, f.payload.length < 2 ^ 32) :
    Fit (emitted enc z compressionEncoding maxMessageSize yieldThreshold events encoder held) := by
  have none : ∀ f ∈ ([] : List Framed), f.payload.length < 2 ^ 32 := by simp
  induction events generalizing yieldThreshold encoder held with
  | nil => exact flushed_fit fit
  | cons event rest ih =>
    intro frames mem
    match event with
    | .pending =>
      rcases List.mem_append.mp mem with here | later
      · exact flushed_fit fit frames here
      · exact ih _ encoder [] none frames later
    | .item (.error status) =>
      rcases List.mem_append.mp mem with here | later
      · exact flushed_fit fit frames here
      · simp only [List.mem_cons, reduceCtorEq, false_or] at later
        exact ih _ encoder [] none frames later
    | .item (.ok item) =>
      simp only [emitted] at mem
      split at mem
      · simp only [List.mem_cons, reduceCtorEq, false_or] at mem
        exact ih _ _ held fit frames mem
      · rename_i frame framed
        have fits := frame_fits enc z compressionEncoding maxMessageSize framed
        have more : ∀ f ∈ held ++ [frame], f.payload.length < 2 ^ 32 := by
          intro f mem
          rcases List.mem_append.mp mem with old | new
          · exact fit f old
          · exact List.mem_singleton.mp new ▸ fits
        split at mem
        · rcases List.mem_cons.mp mem with here | later
          · simp only [Except.ok.injEq] at here
            exact here ▸ more
          · exact ih _ _ [] none frames later
        · exact ih _ _ (held ++ [frame]) more frames mem

theorem unframed_on_wire {items : List (Except Status (List Framed))} (fit : Fit items) :
    unframed (onWire items) = spread items ∧
      ∀ chunk, .ok chunk ∈ onWire items → Whole chunk := by
  have split (frames : List Framed) (fits : ∀ f ∈ frames, f.payload.length < 2 ^ 32) :
      splitFrames (writeAll frames) = (frames, []) := by
    have run := split_writes frames fits []
    rwa [List.append_nil, split_nil, List.append_nil] at run
  constructor
  · induction items with
    | nil => rfl
    | cons item items ih =>
      have rest := ih fun frames mem => fit frames (List.mem_cons_of_mem item mem)
      simp only [unframed, onWire, spread, List.map_cons, List.flatMap_cons] at rest ⊢
      rw [rest]
      cases item with
      | error status => rfl
      | ok frames => simp only [Except.map, split frames (fit frames (by simp))]
  · intro chunk mem
    obtain ⟨item, held, eq⟩ := List.mem_map.mp mem
    cases item with
    | error status => cases eq
    | ok frames =>
      cases eq
      rw [Whole, split frames (fit frames held)]

/-- The output is the image of the source exactly when failures come clear. -/
theorem spread_emitted_iff (events : List (SourceEvent T)) (yieldThreshold : Nat) (encoder : σ)
    (held : List Framed) :
    spread (emitted enc z compressionEncoding maxMessageSize yieldThreshold events encoder held) =
        held.map .ok ++ image enc z compressionEncoding maxMessageSize events encoder ↔
      FailsClear enc z compressionEncoding maxMessageSize yieldThreshold events encoder
        (writeAll held).length := by
  induction events generalizing yieldThreshold encoder held with
  | nil =>
    have last := spread_flushed held []
    simp only [List.append_nil, spread_nil] at last
    simp [emitted, image, FailsClear, last]
  | cons event rest ih =>
    match event with
    | .pending =>
      have tail := ih (enc.bufferSettings encoder).yieldThreshold encoder []
      simpa [emitted, image, FailsClear, spread_flushed] using tail
    | .item (.error status) =>
      have tail := ih (enc.bufferSettings encoder).yieldThreshold encoder []
      simpa [emitted, image, FailsClear, spread_flushed] using tail
    | .item (.ok item) =>
      simp only [emitted, image, FailsClear]
      cases frameOf enc z compressionEncoding maxMessageSize encoder item with
      | error status =>
        have tail := ih (enc.bufferSettings (enc.encode encoder item).next).yieldThreshold
          (enc.encode encoder item).next held
        cases held with
        | nil => simpa using tail
        | cons f fs => simp [writeAll, Framed.write]
      | ok frame =>
        have size : (writeAll (held ++ [frame])).length =
            (writeAll held).length + frame.write.length := by simp [write_all_single]
        simp only [size]
        split
        · have tail := ih (enc.bufferSettings (enc.encode encoder item).next).yieldThreshold
            (enc.encode encoder item).next []
          simpa using tail
        · have tail := ih yieldThreshold (enc.encode encoder item).next (held ++ [frame])
          rw [size] at tail
          simpa using tail

/-- The chunks are whole frames, frames and errors come in source order, and the
    body of a response delivers every frame before the first error ahead of the
    trailers with that error. -/
structure KeepsOrder (encoder : σ) (events : List (SourceEvent T))
    (items : List (Except Status Bytes)) : Prop where
  whole : ∀ chunk, .ok chunk ∈ items → Whole chunk
  order : unframed items = image enc z compressionEncoding maxMessageSize events encoder
  delivered : ∃ trailers,
    ((firstError (image enc z compressionEncoding maxMessageSize events encoder)).getD
      (.ok "")).toHeaderMap = .ok trailers ∧
    Carries (EncodeBody.pollFrame enc z)
      (.newServer encoder events compressionEncoding maxMessageSize)
      (writeAll (goodItems (image enc z compressionEncoding maxMessageSize events encoder)))
      (.trailers trailers)

theorem emitted_delivered (encoder : σ) (events : List (SourceEvent T))
    {items : List (Except Status (List Framed))} {t : EncodedBytes σ T}
    (run : Drains (EncodedBytes.pollNext enc z)
      (.new encoder events compressionEncoding maxMessageSize) (onWire items) t) :
    ∃ trailers, ((firstError (spread items)).getD (.ok "")).toHeaderMap = .ok trailers ∧
      Carries (EncodeBody.pollFrame enc z)
        (.newServer encoder events compressionEncoding maxMessageSize)
        (writeAll (goodItems (spread items))) (.trailers trailers) := by
  obtain ⟨bytes, error⟩ := good_items_on_wire items
  obtain ⟨good, bad⟩ := good_items_spread items
  obtain ⟨u, reads⟩ := reads_of_drains _ run
  obtain ⟨trailers, written, carries⟩ := server_carries enc z reads
  rw [good, bad]
  rw [error] at written
  rw [bytes] at carries
  exact ⟨trailers, written, carries⟩

theorem keeps_order_iff (encoder : σ) (events : List (SourceEvent T)) :
    ∃ items t, Drains (EncodedBytes.pollNext enc z)
        (.new encoder events compressionEncoding maxMessageSize) items t ∧
      (KeepsOrder enc z compressionEncoding maxMessageSize encoder events items ↔
        FailsClear enc z compressionEncoding maxMessageSize
          (enc.bufferSettings encoder).yieldThreshold events encoder 0) := by
  obtain ⟨t, run⟩ :=
    encoded_bytes_drains enc z compressionEncoding maxMessageSize encoder events
  have fit := emitted_fit enc z compressionEncoding maxMessageSize events
    (enc.bufferSettings encoder).yieldThreshold encoder [] (by simp)
  obtain ⟨frames, whole⟩ := unframed_on_wire fit
  have exact_order := spread_emitted_iff enc z compressionEncoding maxMessageSize events
    (enc.bufferSettings encoder).yieldThreshold encoder []
  simp only [List.map_nil, List.nil_append, write_all_nil, List.length_nil] at exact_order
  refine ⟨_, t, run, ?_⟩
  constructor
  · intro kept
    exact exact_order.mp (frames.symm.trans kept.order)
  · intro clear
    have same := exact_order.mpr clear
    have delivered := emitted_delivered enc z compressionEncoding maxMessageSize encoder events run
    rw [same] at delivered
    exact ⟨whole, frames.trans same, delivered⟩

/-- A message over the limit overtakes the frame that was encoded before it. -/
theorem failing_message_overtakes :
    let enc := plainEncoder (fun m : Bytes => m) .default
    let z : Compressors := ⟨fun _ plain => .ok plain, fun _ packed => .ok packed⟩
    let events : List (SourceEvent Bytes) := [.item (.ok [7]), .item (.ok [7, 7, 7])]
    ∃ items t, Drains (EncodedBytes.pollNext enc z) (.new () events none (some 2)) items t ∧
      ¬ KeepsOrder enc z none (some 2) () events items ∧
      ∃ trailers, Carries (EncodeBody.pollFrame enc z) (.newServer () events none (some 2)) []
        (.trailers trailers) := by
  intro enc z events
  refine ⟨_, _, .item rfl (.item rfl (.stop rfl)), ?_, _, .trailers rfl⟩
  intro kept
  cases (List.cons.inj kept.order).1

end EncodeOrder
