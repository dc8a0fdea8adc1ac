import Mathlib.Algebra.Group.Nat.Defs
import Mathlib.Data.List.Basic

/-!
Byte strings cut into frames by a flag byte and a 32-bit big-endian length.
`splitFrames` takes the complete frames off the front of a byte string; what stays
is a proper beginning of a frame. Lengths are unbounded Nat on the writing
side, so a frame round-trips only below 2^32 bytes.
-/
namespace LengthFraming

abbrev Bytes := List UInt8

def beBytes (n : Nat) : Bytes :=
  [UInt8.ofNat (n / 2 ^ 24), UInt8.ofNat (n / 2 ^ 16), UInt8.ofNat (n / 2 ^ 8), UInt8.ofNat n]

def beNat (a b c d : UInt8) : Nat :=
  a.toNat * 2 ^ 24 + b.toNat * 2 ^ 16 + c.toNat * 2 ^ 8 + d.toNat

structure Framed where
  flag : UInt8
  payload : Bytes
  deriving DecidableEq, Repr

def Framed.write (f : Framed) : Bytes := f.flag :: (beBytes f.payload.length ++ f.payload)

/-- Flag, announced length and the bytes after the five header bytes. -/
def readHeader : Bytes → Option (UInt8 × Nat × Bytes)
  | flag :: a :: b :: c :: d :: rest => some (flag, beNat a b c d, rest)
  | _ => none

def readFrame (bytes : Bytes) : Option (Framed × Bytes) :=
  match readHeader bytes with
  | none => none
  | some (flag, len, rest) =>
    if rest.length < len then none else some (⟨flag, rest.take len⟩, rest.drop len)

theorem be_nat_lt (a b c d : UInt8) : beNat a b c d < 2 ^ 32 := by
  have ha := a.toNat_lt; have hb := b.toNat_lt; have hc := c.toNat_lt; have hd := d.toNat_lt
  simp only [beNat]
  omega

theorem be_nat_low (n : Nat) :
    beNat (UInt8.ofNat (n / 2 ^ 24)) (UInt8.ofNat (n / 2 ^ 16)) (UInt8.ofNat (n / 2 ^ 8))
      (UInt8.ofNat n) = n % 2 ^ 32 := by
  simp only [beNat, UInt8.toNat_ofNat']
  omega

theorem be_bytes_of_nat (a b c d : UInt8) : beBytes (beNat a b c d) = [a, b, c, d] := by
  have ha := a.toNat_lt; have hb := b.toNat_lt; have hc := c.toNat_lt; have hd := d.toNat_lt
  simp only [beBytes, beNat, List.cons.injEq, and_true, ← UInt8.toNat_inj, UInt8.toNat_ofNat']
  omega

theorem be_bytes_length (n : Nat) : (beBytes n).length = 4 := rfl

theorem write_length (f : Framed) : f.write.length = f.payload.length + 5 := by
  simp only [Framed.write, List.length_cons, List.length_append, be_bytes_length]
  omega

theorem read_header_low (flag : UInt8) (n : Nat) (rest : Bytes) :
    readHeader (flag :: (beBytes n ++ rest)) = some (flag, n % 2 ^ 32, rest) := by
  simp only [beBytes, List.cons_append, List.nil_append, readHeader, be_nat_low]

theorem read_header_write (flag : UInt8) (n : Nat) (fits : n < 2 ^ 32) (rest : Bytes) :
    readHeader (flag :: (beBytes n ++ rest)) = some (flag, n, rest) := by
  rw [read_header_low, Nat.mod_eq_of_lt fits]

theorem read_header_frame (f : Framed) (fits : f.payload.length < 2 ^ 32) (rest : Bytes) :
    readHeader (f.write ++ rest) = some (f.flag, f.payload.length, f.payload ++ rest) := by
  simp only [Framed.write, List.cons_append, List.append_assoc, read_header_write _ _ fits]

theorem read_header_none_iff (bytes : Bytes) : readHeader bytes = none ↔ bytes.length < 5 := by
  unfold readHeader
  split
  · simp
  · rename_i short
    simp only [true_iff]
    match bytes, short with
    | [], _ => simp
    | [_], _ => simp
    | [_, _], _ => simp
    | [_, _, _], _ => simp
    | [_, _, _, _], _ => simp
    | flag :: a :: b :: c :: d :: rest, short => exact absurd rfl (short flag a b c d rest)

theorem read_header_some {bytes rest : Bytes} {flag : UInt8} {len : Nat}
    (h : readHeader bytes = some (flag, len, rest)) :
    len < 2 ^ 32 ∧ bytes = flag :: (beBytes len ++ rest) := by
  unfold readHeader at h
  split at h
  · rename_i f a b c d r
    simp only [Option.some.injEq, Prod.mk.injEq] at h
    obtain ⟨rfl, rfl, rfl⟩ := h
    exact ⟨be_nat_lt a b c d, by simp [be_bytes_of_nat]⟩
  · cases h

theorem read_header_append {bytes rest : Bytes} {flag : UInt8} {len : Nat}
    (h : readHeader bytes = some (flag, len, rest)) (more : Bytes) :
    readHeader (bytes ++ more) = some (flag, len, rest ++ more) := by
  obtain ⟨fits, eq⟩ := read_header_some h
  rw [eq, List.cons_append, List.append_assoc]
  exact read_header_write flag len fits _

theorem read_frame_write (f : Framed) (fits : f.payload.length < 2 ^ 32) (rest : Bytes) :
    readFrame (f.write ++ rest) = some (f, rest) := by
  simp only [readFrame, read_header_frame f fits]
  simp

theorem read_frame_some {bytes rest : Bytes} {f : Framed}
    (h : readFrame bytes = some (f, rest)) :
    f.payload.length < 2 ^ 32 ∧ bytes = f.write ++ rest := by
  unfold readFrame at h
  split at h
  · cases h
  · rename_i flag len tail header
    split at h
    · cases h
    · rename_i enough
      simp only [Option.some.injEq, Prod.mk.injEq] at h
      obtain ⟨rfl, rfl⟩ := h
      obtain ⟨fits, eq⟩ := read_header_some header
      have size : (tail.take len).length = len := by simp; omega
      refine ⟨by simpa only [size] using fits, ?_⟩
      simp only [Framed.write, size, List.cons_append, List.append_assoc,
        List.take_append_drop, eq]

theorem read_frame_shrinks {bytes rest : Bytes} {f : Framed}
    (h : readFrame bytes = some (f, rest)) : rest.length < bytes.length := by
  obtain ⟨_, rfl⟩ := read_frame_some h
  simp only [List.length_append, write_length]
  omega

def splitFrames (bytes : Bytes) : List Framed × Bytes :=
  match _h : readFrame bytes with
  | none => ([], bytes)
  | some (f, rest) => (f :: (splitFrames rest).1, (splitFrames rest).2)
termination_by bytes.length
decreasing_by all_goals exact read_frame_shrinks _h

theorem split_short {bytes : Bytes} (h : readFrame bytes = none) :
    splitFrames bytes = ([], bytes) := by
  rw [splitFrames]
  split
  · rfl
  · rename_i f rest h'
    rw [h] at h'
    cases h'

theorem split_cons {bytes rest : Bytes} {f : Framed} (h : readFrame bytes = some (f, rest)) :
    splitFrames bytes = (f :: (splitFrames rest).1, (splitFrames rest).2) := by
  rw [splitFrames]
  split
  · rename_i h'
    rw [h] at h'
    cases h'
  · rename_i f' rest' h'
    rw [h] at h'
    cases h'
    rfl

theorem split_write (f : Framed) (fits : f.payload.length < 2 ^ 32) (rest : Bytes) :
    splitFrames (f.write ++ rest) = (f :: (splitFrames rest).1, (splitFrames rest).2) :=
  split_cons (read_frame_write f fits rest)

theorem split_nil : splitFrames [] = ([], []) := split_short rfl

theorem split_writes (fs : List Framed) (fit : ∀ f ∈ fs, f.payload.length < 2 ^ 32)
    (rest : Bytes) :
    splitFrames (fs.flatMap Framed.write ++ rest) = (fs ++ (splitFrames rest).1, (splitFrames rest).2) := by
  induction fs with
  | nil => simp
  | cons f fs ih =>
    have tail := ih (fun g mem => fit g (List.mem_cons_of_mem f mem))
    rw [List.flatMap_cons, List.append_assoc, split_write f (fit f (by simp)), tail]
    simp

theorem split_sound (bytes : Bytes) :
    bytes = (splitFrames bytes).1.flatMap Framed.write ++ (splitFrames bytes).2 ∧
      (∀ f ∈ (splitFrames bytes).1, f.payload.length < 2 ^ 32) ∧
      readFrame (splitFrames bytes).2 = none := by
  induction h : bytes.length using Nat.strongRecOn generalizing bytes with
  | ind n ih =>
    cases first : readFrame bytes with
    | none => rw [split_short first]; exact ⟨rfl, by simp, first⟩
    | some pair =>
      obtain ⟨f, rest⟩ := pair
      obtain ⟨fits, eq⟩ := read_frame_some first
      obtain ⟨join, fit, stuck⟩ := ih rest.length (h ▸ read_frame_shrinks first) rest rfl
      rw [split_cons first]
      refine ⟨?_, ?_, stuck⟩
      · rw [List.flatMap_cons, List.append_assoc, ← join]
        exact eq
      · intro g mem
        rcases List.mem_cons.mp mem with same | mem
        · exact same ▸ fits
        · exact fit g mem

/-- A concatenation of complete frames. -/
def Whole (bytes : Bytes) : Prop := (splitFrames bytes).2 = []

instance (bytes : Bytes) : Decidable (Whole bytes) :=
  inferInstanceAs (Decidable ((splitFrames bytes).2 = []))

theorem whole_iff (bytes : Bytes) : Whole bytes ↔
    ∃ fs : List Framed, (∀ f ∈ fs, f.payload.length < 2 ^ 32) ∧
      bytes = fs.flatMap Framed.write := by
  constructor
  · intro whole
    obtain ⟨join, fit, _⟩ := split_sound bytes
    exact ⟨(splitFrames bytes).1, fit, by rw [whole, List.append_nil] at join; exact join⟩
  · rintro ⟨fs, fit, rfl⟩
    have run := split_writes fs fit []
    rw [List.append_nil, split_nil] at run
    rw [Whole, run]

end LengthFraming
