import PureGrpc.CheckedBytes
import PureGrpc.GrpcCodec

/-!
Decode buffers. A decode buffer borrows a byte buffer and counts down how much
of it the decoder may still have; the two lengths are updated apart, and a call
that breaks an assertion panics. What a decoder does is a session of calls, each
of which may depend on the answers before it. Seen from a session there is only
the window: the unread bytes of the frame. What lies behind it never shows.
-/
namespace DecodeBuffers
open LengthFraming GrpcStatus GrpcCodec

structure DecodeBuf where
  buf : Bytes
  len : Nat
  deriving DecidableEq, Repr

def DecodeBuf.new (buf : Bytes) (len : Nat) : DecodeBuf := ⟨buf, len⟩

def DecodeBuf.remaining (self : DecodeBuf) : Nat := self.len

def DecodeBuf.chunk (self : DecodeBuf) : Bytes :=
  if self.len < self.buf.length then self.buf.take self.len else self.buf

/-- Two assertions: the buffer's own, and the one of the bytes behind it. -/
def DecodeBuf.advance (self : DecodeBuf) (cnt : Nat) : Option DecodeBuf :=
  if cnt ≤ self.len then
    (CheckedBytes.advance self.buf cnt).map fun buf => ⟨buf, self.len - cnt⟩
  else none

def DecodeBuf.copyToBytes (self : DecodeBuf) (len : Nat) : Option (Bytes × DecodeBuf) :=
  if len ≤ self.len then
    (CheckedBytes.splitTo self.buf len).map fun (bytes, buf) => (bytes, ⟨buf, self.len - len⟩)
  else none

/-- The buffer is as long as it says. -/
def DecodeBuf.Backed (self : DecodeBuf) : Prop := self.len ≤ self.buf.length

/-- A backed decode buffer, by what it may still hand out and what it must not. -/
structure Window where
  unread : Bytes
  behind : Bytes

def Window.decodeBuf (w : Window) : DecodeBuf := ⟨w.unread ++ w.behind, w.unread.length⟩

def Window.skip (w : Window) (cnt : Nat) : Window := ⟨w.unread.drop cnt, w.behind⟩

theorem window_backed (w : Window) : w.decodeBuf.Backed := by
  simp [DecodeBuf.Backed, Window.decodeBuf]

theorem backed_window {d : DecodeBuf} (backed : d.Backed) :
    (Window.mk (d.buf.take d.len) (d.buf.drop d.len)).decodeBuf = d := by
  obtain ⟨buf, len⟩ := d
  have size : (buf.take len).length = len := List.length_take_of_le backed
  simp only [Window.decodeBuf, size, List.take_append_drop]

@[simp] theorem window_remaining (w : Window) : w.decodeBuf.remaining = w.unread.length := rfl

@[simp] theorem window_chunk (w : Window) : w.decodeBuf.chunk = w.unread := by
  unfold DecodeBuf.chunk Window.decodeBuf
  dsimp only
  split
  · exact List.take_left
  · rename_i whole
    rw [List.length_append] at whole
    have none_behind : w.behind = [] := List.eq_nil_of_length_eq_zero (by omega)
    rw [none_behind, List.append_nil]

theorem window_advance (w : Window) {cnt : Nat} (allowed : cnt ≤ w.unread.length) :
    w.decodeBuf.advance cnt = some (w.skip cnt).decodeBuf := by
  have within : cnt ≤ (w.unread ++ w.behind).length := by
    rw [List.length_append]
    omega
  simp only [DecodeBuf.advance, Window.decodeBuf, Window.skip, if_pos allowed,
    CheckedBytes.advance_within within, Option.map_some, List.drop_append_of_le_length allowed,
    List.length_drop]

theorem window_copy (w : Window) {len : Nat} (allowed : len ≤ w.unread.length) :
    w.decodeBuf.copyToBytes len = some (w.unread.take len, (w.skip len).decodeBuf) := by
  have within : len ≤ (w.unread ++ w.behind).length := by
    rw [List.length_append]
    omega
  simp only [DecodeBuf.copyToBytes, Window.decodeBuf, Window.skip, if_pos allowed,
    CheckedBytes.split_to_within within, Option.map_some, List.drop_append_of_le_length allowed,
    List.take_append_of_le_length allowed, List.length_drop]

/-- What a decoder does with a decode buffer, up to its result. -/
inductive Session (α : Type) where
  | finish (result : α)
  | remaining (next : Nat → Session α)
  | chunk (next : Bytes → Session α)
  | advance (cnt : Nat) (next : Session α)
  | copyToBytes (len : Nat) (next : Bytes → Session α)

variable {α : Type}

def Session.run : Session α → DecodeBuf → Option (α × DecodeBuf)
  | .finish result, d => some (result, d)
  | .remaining next, d => (next d.remaining).run d
  | .chunk next, d => (next d.chunk).run d
  | .advance cnt next, d =>
    match d.advance cnt with
    | none => none
    | some d => next.run d
  | .copyToBytes len next, d =>
    match d.copyToBytes len with
    | none => none
    | some (bytes, d) => (next bytes).run d

/-- No call of the session asks for more than `remaining` tells at that point. -/
def Session.Modest : Session α → DecodeBuf → Prop
  | .finish _, _ => True
  | .remaining next, d => (next d.remaining).Modest d
  | .chunk next, d => (next d.chunk).Modest d
  | .advance cnt next, d => cnt ≤ d.remaining ∧ ∀ d', d.advance cnt = some d' → next.Modest d'
  | .copyToBytes len next, d =>
    len ≤ d.remaining ∧ ∀ bytes d', d.copyToBytes len = some (bytes, d') → (next bytes).Modest d'

def Session.StaysBacked : Session α → DecodeBuf → Prop
  | .finish _, d => d.Backed
  | .remaining next, d => d.Backed ∧ (next d.remaining).StaysBacked d
  | .chunk next, d => d.Backed ∧ (next d.chunk).StaysBacked d
  | .advance cnt next, d => d.Backed ∧ ∀ d', d.advance cnt = some d' → next.StaysBacked d'
  | .copyToBytes len next, d =>
    d.Backed ∧ ∀ bytes d', d.copyToBytes len = some (bytes, d') → (next bytes).StaysBacked d'

/-- The same session on a plain byte string: its result and how many bytes it took. -/
def Session.read : Session α → Bytes → α × Nat
  | .finish result, _ => (result, 0)
  | .remaining next, view => (next view.length).read view
  | .chunk next, view => (next view).read view
  | .advance cnt next, view =>
    let (result, more) := next.read (view.drop cnt)
    (result, cnt + more)
  | .copyToBytes len next, view =>
    let (result, more) := (next (view.take len)).read (view.drop len)
    (result, len + more)

theorem skip_skip (w : Window) (m n : Nat) : (w.skip m).skip n = w.skip (m + n) := by
  simp only [Window.skip, List.drop_drop]

theorem session_window (s : Session α) (w : Window) (modest : s.Modest w.decodeBuf) :
    s.run w.decodeBuf = some ((s.read w.unread).1, (w.skip (s.read w.unread).2).decodeBuf) ∧
      (s.read w.unread).2 ≤ w.unread.length := by
  induction s generalizing w with
  | finish result => exact ⟨rfl, Nat.zero_le _⟩
  | remaining next ih => exact ih _ w modest
  | chunk next ih =>
    simp only [Session.Modest, Session.run, Session.read, window_chunk] at modest ⊢
    exact ih _ w modest
  | advance cnt next ih =>
    obtain ⟨allowed, later⟩ := modest
    have moved := window_advance w allowed
    obtain ⟨rest, within⟩ := ih (w.skip cnt) (later _ moved)
    simp only [Session.run, Session.read, moved]
    rw [rest, skip_skip]
    refine ⟨rfl, ?_⟩
    simp only [Window.skip, List.length_drop] at within
    have bound : cnt ≤ w.unread.length := allowed
    omega
  | copyToBytes len next ih =>
    obtain ⟨allowed, later⟩ := modest
    have moved := window_copy w allowed
    obtain ⟨rest, within⟩ := ih (w.unread.take len) (w.skip len) (later _ _ moved)
    simp only [Session.run, Session.read, moved]
    rw [rest, skip_skip]
    refine ⟨rfl, ?_⟩
    simp only [Window.skip, List.length_drop] at within
    have bound : len ≤ w.unread.length := allowed
    omega

theorem session_stays_backed (s : Session α) (w : Window) (modest : s.Modest w.decodeBuf) :
    s.StaysBacked w.decodeBuf := by
  induction s generalizing w with
  | finish result => exact window_backed w
  | remaining next ih => exact ⟨window_backed w, ih _ w modest⟩
  | chunk next ih =>
    simp only [Session.Modest, Session.StaysBacked, window_chunk] at modest ⊢
    exact ⟨window_backed w, ih _ w modest⟩
  | advance cnt next ih =>
    obtain ⟨allowed, later⟩ := modest
    refine ⟨window_backed w, ?_⟩
    intro d moved
    have kept := later d moved
    rw [window_advance w allowed] at moved
    cases moved
    exact ih _ kept
  | copyToBytes len next ih =>
    obtain ⟨allowed, later⟩ := modest
    refine ⟨window_backed w, ?_⟩
    intro bytes d moved
    have kept := later bytes d moved
    rw [window_copy w allowed] at moved
    cases moved
    exact ih _ _ kept

theorem modest_same_unread (s : Session α) (w v : Window) (same : v.unread = w.unread)
    (modest : s.Modest w.decodeBuf) : s.Modest v.decodeBuf := by
  induction s generalizing w v with
  | finish result => trivial
  | remaining next ih =>
    simp only [Session.Modest, window_remaining, same] at modest ⊢
    exact ih _ w v same modest
  | chunk next ih =>
    simp only [Session.Modest, window_chunk, same] at modest ⊢
    exact ih _ w v same modest
  | advance cnt next ih =>
    obtain ⟨allowed, later⟩ := modest
    have may : cnt ≤ v.unread.length := same ▸ allowed
    refine ⟨may, ?_⟩
    intro d moved
    rw [window_advance v may] at moved
    cases moved
    exact ih (w.skip cnt) (v.skip cnt) (by simp only [Window.skip, same])
      (later _ (window_advance w allowed))
  | copyToBytes len next ih =>
    obtain ⟨allowed, later⟩ := modest
    have may : len ≤ v.unread.length := same ▸ allowed
    refine ⟨may, ?_⟩
    intro bytes d moved
    rw [window_copy v may] at moved
    cases moved
    rw [same]
    exact ih _ (w.skip len) (v.skip len) (by simp only [Window.skip, same])
      (later _ _ (window_copy w allowed))

theorem session_chunk_left (b : Bytes) (len taken : Nat) :
    (DecodeBuf.mk (b.drop taken) (len - taken)).chunk = (b.take len).drop taken := by
  unfold DecodeBuf.chunk
  dsimp only
  rw [List.drop_take]
  split
  · rfl
  · rename_i whole
    rw [List.length_drop] at whole
    exact (List.take_of_length_le (by rw [List.length_drop]; omega)).symm

section Frames
variable {b : Bytes} {len : Nat} (within : len ≤ b.length)
include within

theorem new_window : (Window.mk (b.take len) (b.drop len)).decodeBuf = DecodeBuf.new b len :=
  backed_window (d := DecodeBuf.new b len) within

theorem session_new (s : Session α) (modest : s.Modest (DecodeBuf.new b len)) :
    s.run (DecodeBuf.new b len) = some ((s.read (b.take len)).1,
        ⟨b.drop (s.read (b.take len)).2, len - (s.read (b.take len)).2⟩) ∧
      (s.read (b.take len)).2 ≤ len := by
  have size : (b.take len).length = len := List.length_take_of_le within
  rw [← new_window within] at modest ⊢
  obtain ⟨run, bound⟩ := session_window s _ modest
  have taken : (s.read (b.take len)).2 ≤ (b.take len).length := bound
  refine ⟨?_, le_of_le_of_eq taken size⟩
  rw [run]
  simp only [Window.decodeBuf, Window.skip, List.length_drop, size]
  rw [← List.drop_append_of_le_length taken, List.take_append_drop]

end Frames

inductive Call where
  | remaining
  | chunk
  | advance (cnt : Nat)
  | copyToBytes (len : Nat)
  deriving DecidableEq, Repr

inductive Answer where
  | count (n : Nat)
  | bytes (b : Bytes)
  | nothing
  deriving DecidableEq, Repr

def Session.ofCalls (seen : List Answer) : List Call → Session (List Answer)
  | [] => .finish seen
  | .remaining :: rest => .remaining fun n => ofCalls (seen ++ [.count n]) rest
  | .chunk :: rest => .chunk fun b => ofCalls (seen ++ [.bytes b]) rest
  | .advance cnt :: rest => .advance cnt (ofCalls (seen ++ [.nothing]) rest)
  | .copyToBytes len :: rest => .copyToBytes len fun b => ofCalls (seen ++ [.bytes b]) rest

def Call.taken : Call → Nat
  | .remaining => 0
  | .chunk => 0
  | .advance cnt => cnt
  | .copyToBytes len => len

def consumed (calls : List Call) : Nat := calls.foldr (fun call later => call.taken + later) 0

def Call.answer (frame : Bytes) (start : Nat) : Call → Answer
  | .remaining => .count (frame.length - start)
  | .chunk => .bytes (frame.drop start)
  | .advance _ => .nothing
  | .copyToBytes len => .bytes ((frame.drop start).take len)

def answers (frame : Bytes) : Nat → List Call → List Answer
  | _, [] => []
  | start, call :: rest => call.answer frame start :: answers frame (start + call.taken) rest

theorem calls_read (frame : Bytes) (calls : List Call) (seen : List Answer) (start : Nat) :
    (Session.ofCalls seen calls).read (frame.drop start) =
      (seen ++ answers frame start calls, consumed calls) := by
  induction calls generalizing seen start with
  | nil => simp [Session.ofCalls, Session.read, answers, consumed]
  | cons call rest ih =>
    have sums : consumed (call :: rest) = call.taken + consumed rest := rfl
    rw [sums]
    cases call with
    | remaining =>
      have here := ih (seen ++ [.count (frame.length - start)]) start
      simpa [Session.ofCalls, Session.read, answers, Call.answer, Call.taken] using here
    | chunk =>
      have here := ih (seen ++ [.bytes (frame.drop start)]) start
      simpa [Session.ofCalls, Session.read, answers, Call.answer, Call.taken] using here
    | advance cnt =>
      have here := ih (seen ++ [.nothing]) (start + cnt)
      simp [Session.ofCalls, Session.read, answers, Call.answer, Call.taken, here]
    | copyToBytes len =>
      have here := ih (seen ++ [.bytes ((frame.drop start).take len)]) (start + len)
      simp [Session.ofCalls, Session.read, answers, Call.answer, Call.taken, here]

theorem answers_length (frame : Bytes) (start : Nat) (calls : List Call) :
    (answers frame start calls).length = calls.length := by
  induction calls generalizing start with
  | nil => rfl
  | cons call rest ih => simp only [answers, List.length_cons, ih]

theorem answers_at (frame : Bytes) (start : Nat) (earlier later : List Call) (call : Call) :
    (answers frame start (earlier ++ call :: later))[earlier.length]? =
      some (call.answer frame (start + consumed earlier)) := by
  induction earlier generalizing start with
  | nil => rfl
  | cons first rest ih =>
    have sums : consumed (first :: rest) = first.taken + consumed rest := rfl
    rw [sums, ← Nat.add_assoc, ← ih (start + first.taken)]
    rfl

/-- A decoder sees exactly its own frame, and no decoder can tell what follows it. -/
theorem decode_buffer_shows_its_own_frame (b : Bytes) (len : Nat) (within : len ≤ b.length) :
    (∀ calls, (Session.ofCalls [] calls).Modest (DecodeBuf.new b len) →
      ∃ seen d, (Session.ofCalls [] calls).run (DecodeBuf.new b len) = some (seen, d) ∧
        seen.length = calls.length ∧
        (∀ earlier call later, calls = earlier ++ call :: later →
          seen[earlier.length]? = some (call.answer (b.take len) (consumed earlier))) ∧
        consumed calls ≤ len ∧ d.chunk = (b.take len).drop (consumed calls) ∧
        d.remaining = len - consumed calls ∧ d.buf = b.drop (consumed calls)) ∧
    ∀ (α : Type) (s : Session α) (other : Bytes), len ≤ other.length →
      other.take len = b.take len → s.Modest (DecodeBuf.new b len) →
      ∃ result taken, taken ≤ len ∧
        s.run (DecodeBuf.new b len) = some (result, ⟨b.drop taken, len - taken⟩) ∧
        s.run (DecodeBuf.new other len) = some (result, ⟨other.drop taken, len - taken⟩) := by
  constructor
  · intro calls modest
    obtain ⟨run, bound⟩ := session_new within _ modest
    have read := calls_read (b.take len) calls [] 0
    rw [List.drop_zero, List.nil_append] at read
    rw [read] at run bound
    have rest := session_chunk_left b len (consumed calls)
    refine ⟨_, _, run, answers_length _ _ _, ?_, bound, rest, rfl, rfl⟩
    intro earlier call later eq
    subst eq
    rw [answers_at, Nat.zero_add]
  · intro α s other enough same modest
    obtain ⟨run, bound⟩ := session_new within s modest
    have moved : s.Modest (DecodeBuf.new other len) := by
      rw [← new_window within] at modest
      rw [← new_window enough]
      exact modest_same_unread s _ _ same modest
    obtain ⟨run', _⟩ := session_new enough s moved
    rw [same] at run'
    exact ⟨_, _, bound, run, run'⟩

theorem decode_buffer_shows_its_own_frame_at_two_of_three :
    (∀ calls, (Session.ofCalls [] calls).Modest (DecodeBuf.new [7, 8, 9] 2) →
      ∃ seen d, (Session.ofCalls [] calls).run (DecodeBuf.new [7, 8, 9] 2) = some (seen, d) ∧
        seen.length = calls.length ∧
        (∀ earlier call later, calls = earlier ++ call :: later →
          seen[earlier.length]? = some (call.answer [7, 8] (consumed earlier))) ∧
        consumed calls ≤ 2 ∧ d.chunk = [7, 8].drop (consumed calls) ∧
        d.remaining = 2 - consumed calls ∧ d.buf = [7, 8, 9].drop (consumed calls)) ∧
    ∀ (α : Type) (s : Session α) (other : Bytes), 2 ≤ other.length →
      other.take 2 = [7, 8] → s.Modest (DecodeBuf.new [7, 8, 9] 2) →
      ∃ result taken, taken ≤ 2 ∧
        s.run (DecodeBuf.new [7, 8, 9] 2) = some (result, ⟨[7, 8, 9].drop taken, 2 - taken⟩) ∧
        s.run (DecodeBuf.new other 2) = some (result, ⟨other.drop taken, 2 - taken⟩) :=
  decode_buffer_shows_its_own_frame [7, 8, 9] 2 (by decide)

section Decoders
variable {δ T : Type}

/-- A decoder by the sessions it holds, none of which asks for more than is there. -/
structure SessionDecoder (δ T : Type) where
  session : δ → Session (Except Status (Option T) × δ)
  modest : ∀ decoder (d : DecodeBuf), d.Backed → (session decoder).Modest d

def SessionDecoder.decoder (dec : SessionDecoder δ T) : Decoder δ T where
  decode decoder view :=
    let call := (dec.session decoder).read view
    ⟨call.1.1, call.2, call.1.2⟩
  bounded decoder view := by
    have modest := dec.modest decoder (Window.mk view []).decodeBuf (window_backed _)
    exact (session_window _ _ modest).2

theorem session_decoder_frame (dec : SessionDecoder δ T) (decoder : δ) {b : Bytes} {len : Nat}
    (within : len ≤ b.length) :
    (dec.session decoder).run (DecodeBuf.new b len) =
      let call := dec.decoder.decode decoder (decodeBuf b len)
      some ((call.result, call.next), ⟨b.drop call.consumed, len - call.consumed⟩) :=
  (session_new within _ (dec.modest decoder _ within)).1

/-- The whole frame is parsed where it lies, and dropped once that has worked. -/
def flatBuffersDecode (decodeFlatbuffer : Bytes → Except String T) :
    Session (Except Status (Option T) × Unit) :=
  .remaining fun len => .chunk fun data =>
    match decodeFlatbuffer data with
    | .error e => .finish (.error (.internal ("FlatBuffers decode error: " ++ e)), ())
    | .ok item => .advance len (.finish (.ok (some item), ()))

def flatBuffersDecoder (decodeFlatbuffer : Bytes → Except String T) : SessionDecoder Unit T where
  session _ := flatBuffersDecode decodeFlatbuffer
  modest _ d _ := by
    unfold flatBuffersDecode
    simp only [Session.Modest]
    split
    · trivial
    · exact ⟨Nat.le_refl _, fun _ _ => trivial⟩

theorem flat_buffers_whole (decodeFlatbuffer : Bytes → Except String T) :
    (flatBuffersDecoder decodeFlatbuffer).decoder.Whole := by
  intro decoder view
  cases read : decodeFlatbuffer view with
  | error e =>
    left
    simp [SessionDecoder.decoder, flatBuffersDecoder, flatBuffersDecode, Session.read, read]
  | ok item =>
    right
    simp [SessionDecoder.decoder, flatBuffersDecoder, flatBuffersDecode, Session.read, read]

def testDecode : Session (Except Status (Option Bytes) × Unit) :=
  .remaining fun len =>
    if len = 0 then .finish (.ok none, ())
    else .copyToBytes len fun data => .finish (.ok (some data), ())

def testSessionDecoder : SessionDecoder Unit Bytes where
  session _ := testDecode
  modest _ d _ := by
    unfold testDecode
    simp only [Session.Modest]
    split
    · trivial
    · exact ⟨Nat.le_refl _, fun _ _ _ => trivial⟩

theorem test_session_decoder : testSessionDecoder.decoder.decode = testDecoder.decode := by
  funext decoder view
  cases view with
  | nil => rfl
  | cons byte rest =>
    simp [SessionDecoder.decoder, testSessionDecoder, testDecode, Session.read, testDecoder]

end Decoders

end DecodeBuffers
