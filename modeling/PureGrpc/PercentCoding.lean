import PureGrpc.LengthFraming

/-!
Percent-encoding over byte strings with an arbitrary set of escaped bytes.
Decoding leaves a percent sign alone when no two hexadecimal digits follow it.
-/
namespace PercentCoding
open LengthFraming

def percent : UInt8 := 37

def hexDigit (n : Nat) : UInt8 := if n < 10 then UInt8.ofNat (48 + n) else UInt8.ofNat (55 + n)

def hexValue (c : UInt8) : Option Nat :=
  if 48 ≤ c ∧ c ≤ 57 then some (c.toNat - 48)
  else if 65 ≤ c ∧ c ≤ 70 then some (c.toNat - 55)
  else if 97 ≤ c ∧ c ≤ 102 then some (c.toNat - 87)
  else none

def escape (b : UInt8) : Bytes := [percent, hexDigit (b.toNat / 16), hexDigit (b.toNat % 16)]

def encode (escaped : UInt8 → Bool) (bytes : Bytes) : Bytes :=
  bytes.flatMap fun b => if escaped b then escape b else [b]

def readEscape : Bytes → Option (UInt8 × Bytes)
  | p :: h :: l :: rest =>
    if p = percent then do
      let x ← hexValue h
      let y ← hexValue l
      some (UInt8.ofNat (x * 16 + y), rest)
    else none
  | _ => none

theorem read_escape_shrinks {bytes rest : Bytes} {b : UInt8}
    (h : readEscape bytes = some (b, rest)) : rest.length < bytes.length := by
  unfold readEscape at h
  split at h
  · split at h
    · simp only [Option.bind_eq_bind, Option.bind_eq_some_iff, Option.some.injEq,
        Prod.mk.injEq] at h
      obtain ⟨_, _, _, _, _, rfl⟩ := h
      simp only [List.length_cons]
      omega
    · cases h
  · cases h

def decode : Bytes → Bytes
  | [] => []
  | b :: rest =>
    match _h : readEscape (b :: rest) with
    | some (c, after) => c :: decode after
    | none => b :: decode rest
termination_by bytes => bytes.length
decreasing_by
  · exact read_escape_shrinks _h
  · simp

theorem hex_value_digit (n : Nat) (small : n < 16) : hexValue (hexDigit n) = some n := by
  have table : ∀ k < 16, hexValue (hexDigit k) = some k := by decide
  exact table n small

theorem read_escape_escape (b : UInt8) (rest : Bytes) :
    readEscape (escape b ++ rest) = some (b, rest) := by
  have hb := b.toNat_lt
  simp only [escape, List.cons_append, List.nil_append, readEscape, if_true]
  rw [hex_value_digit _ (by omega), hex_value_digit _ (by omega)]
  simp only [Option.bind_eq_bind, Option.bind_some, Option.some.injEq, Prod.mk.injEq, and_true,
    ← UInt8.toNat_inj, UInt8.toNat_ofNat']
  omega

theorem read_escape_plain {b : UInt8} (plain : b ≠ percent) (rest : Bytes) :
    readEscape (b :: rest) = none := by
  unfold readEscape
  split <;> simp_all

theorem decode_nil : decode [] = [] := by rw [decode]

theorem decode_escape (b : UInt8) (rest : Bytes) :
    decode (escape b ++ rest) = b :: decode rest := by
  have front := read_escape_escape b rest
  rw [escape, List.cons_append] at front ⊢
  rw [decode]
  split
  · rename_i h
    rw [front] at h
    cases h
    rfl
  · rename_i h
    rw [front] at h
    cases h

theorem decode_plain {b : UInt8} (plain : b ≠ percent) (rest : Bytes) :
    decode (b :: rest) = b :: decode rest := by
  rw [decode]
  split
  · rename_i h
    rw [read_escape_plain plain] at h
    cases h
  · rfl

/-- Escaping the percent sign is all that decoding needs to invert encoding. -/
theorem decode_encode (escaped : UInt8 → Bool) (closed : escaped percent = true)
    (bytes : Bytes) : decode (encode escaped bytes) = bytes := by
  induction bytes with
  | nil =>
    rw [encode, List.flatMap_nil]
    exact decode_nil
  | cons b bytes ih =>
    rw [encode, List.flatMap_cons, ← encode]
    cases special : escaped b
    · have plain : b ≠ percent := by
        rintro rfl
        rw [closed] at special
        cases special
      simp only [Bool.false_eq_true, if_false, List.cons_append, List.nil_append,
        decode_plain plain, ih]
    · simp only [if_true, decode_escape, ih]

theorem encode_all (escaped : UInt8 → Bool) (good : UInt8 → Prop)
    (plain : ∀ b, escaped b = false → good b) (sign : good percent)
    (digits : ∀ n < 16, good (hexDigit n)) (bytes : Bytes) :
    ∀ b ∈ encode escaped bytes, good b := by
  intro b mem
  simp only [encode, List.mem_flatMap] at mem
  obtain ⟨source, _, here⟩ := mem
  have hs := source.toNat_lt
  cases special : escaped source <;> simp only [special, Bool.false_eq_true, if_false, if_true,
    escape, List.mem_cons, List.not_mem_nil, or_false] at here
  · exact here ▸ plain source special
  · rcases here with rfl | rfl | rfl
    · exact sign
    · exact digits _ (by omega)
    · exact digits _ (by omega)

end PercentCoding
