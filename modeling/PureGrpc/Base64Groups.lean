import PureGrpc.LengthFraming

/-!
Base64 with the standard alphabet. `decode` is an engine: it takes groups of
four symbols, allows padding in the last group only, and refuses padding bits
that are not zero. `groups` reads every aligned group on its own, so it also
inverts a concatenation of separately padded encodings.
-/
namespace Base64Groups
open LengthFraming

def pad : UInt8 := 61

def symbol (n : Nat) : UInt8 :=
  if n < 26 then UInt8.ofNat (65 + n)
  else if n < 52 then UInt8.ofNat (71 + n)
  else if n < 62 then UInt8.ofNat (n - 4)
  else if n = 62 then 43 else 47

def sextet (c : UInt8) : Option Nat :=
  if 65 ≤ c ∧ c ≤ 90 then some (c.toNat - 65)
  else if 97 ≤ c ∧ c ≤ 122 then some (c.toNat - 71)
  else if 48 ≤ c ∧ c ≤ 57 then some (c.toNat + 4)
  else if c = 43 then some 62
  else if c = 47 then some 63
  else none

inductive Padding where
  | canonical
  | indifferent
  deriving DecidableEq, Repr

def encode (padded : Bool) : Bytes → Bytes
  | [] => []
  | [a] =>
    symbol (a.toNat / 4) :: symbol (a.toNat % 4 * 16) :: if padded then [pad, pad] else []
  | [a, b] =>
    symbol (a.toNat / 4) :: symbol (a.toNat % 4 * 16 + b.toNat / 16) ::
      symbol (b.toNat % 16 * 4) :: if padded then [pad] else []
  | a :: b :: c :: rest =>
    symbol (a.toNat / 4) :: symbol (a.toNat % 4 * 16 + b.toNat / 16) ::
      symbol (b.toNat % 16 * 4 + c.toNat / 64) :: symbol (c.toNat % 64) :: encode padded rest

def threeBytes (a b c d : UInt8) : Option Bytes := do
  let w ← sextet a
  let x ← sextet b
  let y ← sextet c
  let z ← sextet d
  some [UInt8.ofNat (w * 4 + x / 16), UInt8.ofNat (x % 16 * 16 + y / 4),
    UInt8.ofNat (y % 4 * 64 + z)]

def twoBytes (a b c : UInt8) : Option Bytes := do
  let w ← sextet a
  let x ← sextet b
  let y ← sextet c
  if y % 4 = 0 then
    some [UInt8.ofNat (w * 4 + x / 16), UInt8.ofNat (x % 16 * 16 + y / 4)]
  else none

def oneByte (a b : UInt8) : Option Bytes := do
  let w ← sextet a
  let x ← sextet b
  if x % 16 = 0 then some [UInt8.ofNat (w * 4 + x / 16)] else none

def lastGroup (p : Padding) : Bytes → Option Bytes
  | [] => some []
  | [a, b] => if p = .indifferent then oneByte a b else none
  | [a, b, c] =>
    if p = .indifferent then (if c = pad then oneByte a b else twoBytes a b c) else none
  | [a, b, c, d] =>
    if d = pad then (if c = pad then oneByte a b else twoBytes a b c) else threeBytes a b c d
  | _ => none

def decode (p : Padding) : Bytes → Option Bytes
  | a :: b :: c :: d :: e :: rest => do
    let head ← threeBytes a b c d
    let tail ← decode p (e :: rest)
    some (head ++ tail)
  | last => lastGroup p last

/-- Each aligned group of four read on its own. -/
def groups : Bytes → Option Bytes
  | [] => some []
  | a :: b :: c :: d :: rest => do
    let head ← lastGroup .canonical [a, b, c, d]
    let tail ← groups rest
    some (head ++ tail)
  | _ => none

theorem sextet_symbol (n : Nat) (small : n < 64) : sextet (symbol n) = some n := by
  have table : ∀ k < 64, sextet (symbol k) = some k := by decide
  exact table n small

theorem symbol_ne_pad (n : Nat) (small : n < 64) : symbol n ≠ pad := by
  have table : ∀ k < 64, symbol k ≠ pad := by decide
  exact table n small

theorem three_bytes_encode (a b c : UInt8) :
    threeBytes (symbol (a.toNat / 4)) (symbol (a.toNat % 4 * 16 + b.toNat / 16))
      (symbol (b.toNat % 16 * 4 + c.toNat / 64)) (symbol (c.toNat % 64)) = some [a, b, c] := by
  have ha := a.toNat_lt; have hb := b.toNat_lt; have hc := c.toNat_lt
  simp only [threeBytes]
  rw [sextet_symbol _ (by omega), sextet_symbol _ (by omega), sextet_symbol _ (by omega),
    sextet_symbol _ (by omega)]
  simp only [Option.bind_eq_bind, Option.bind_some, Option.some.injEq, List.cons.injEq, and_true,
    ← UInt8.toNat_inj, UInt8.toNat_ofNat']
  omega

theorem two_bytes_encode (a b : UInt8) :
    twoBytes (symbol (a.toNat / 4)) (symbol (a.toNat % 4 * 16 + b.toNat / 16))
      (symbol (b.toNat % 16 * 4)) = some [a, b] := by
  have ha := a.toNat_lt; have hb := b.toNat_lt
  simp only [twoBytes]
  rw [sextet_symbol _ (by omega), sextet_symbol _ (by omega), sextet_symbol _ (by omega)]
  simp only [Option.bind_eq_bind, Option.bind_some, Nat.mul_mod_left, if_true, Option.some.injEq,
    List.cons.injEq, and_true, ← UInt8.toNat_inj, UInt8.toNat_ofNat']
  omega

theorem one_byte_encode (a : UInt8) :
    oneByte (symbol (a.toNat / 4)) (symbol (a.toNat % 4 * 16)) = some [a] := by
  have ha := a.toNat_lt
  simp only [oneByte]
  rw [sextet_symbol _ (by omega), sextet_symbol _ (by omega)]
  simp only [Option.bind_eq_bind, Option.bind_some, Nat.mul_mod_left, if_true, Option.some.injEq,
    List.cons.injEq, and_true, ← UInt8.toNat_inj, UInt8.toNat_ofNat']
  omega

/-- A full group stands anywhere, also last, since its symbols exclude padding. -/
theorem decode_full_group (p : Padding) {a b c d : UInt8} {head : Bytes}
    (full : threeBytes a b c d = some head) (plain : d ≠ pad) (rest : Bytes) :
    decode p (a :: b :: c :: d :: rest) = (decode p rest).map (head ++ ·) := by
  cases rest with
  | nil => simp [decode, lastGroup, full, plain]
  | cons e rest =>
    simp only [decode, full, Option.bind_eq_bind, Option.bind_some]
    cases decode p (e :: rest) <;> rfl

theorem decode_encode_padded (bytes : Bytes) :
    decode .canonical (encode true bytes) = some bytes := by
  fun_induction encode true bytes with
  | case1 => rfl
  | case2 a =>
    have one := one_byte_encode a
    simp [decode, lastGroup, one]
  | case3 a b =>
    have hb := b.toNat_lt
    have two := two_bytes_encode a b
    have plain := symbol_ne_pad (b.toNat % 16 * 4) (by omega)
    simp [decode, lastGroup, two, plain]
  | case4 a b c rest ih =>
    have hc := c.toNat_lt
    rw [decode_full_group _ (three_bytes_encode a b c) (symbol_ne_pad _ (by omega)), ih]
    rfl

theorem decode_encode_unpadded (bytes : Bytes) :
    decode .indifferent (encode false bytes) = some bytes := by
  fun_induction encode false bytes with
  | case1 => rfl
  | case2 a =>
    have one := one_byte_encode a
    simp [decode, lastGroup, one]
  | case3 a b =>
    have hb := b.toNat_lt
    have two := two_bytes_encode a b
    have plain := symbol_ne_pad (b.toNat % 16 * 4) (by omega)
    simp [decode, lastGroup, two, plain]
  | case4 a b c rest ih =>
    have hc := c.toNat_lt
    rw [decode_full_group _ (three_bytes_encode a b c) (symbol_ne_pad _ (by omega)), ih]
    rfl

theorem three_bytes_plain {a b c d : UInt8} {head : Bytes}
    (full : threeBytes a b c d = some head) : d ≠ pad := by
  rintro rfl
  have none_pad : sextet pad = none := by decide
  simp only [threeBytes, none_pad, Option.bind_eq_bind, Option.bind_none] at full
  cases sextet a <;> cases sextet b <;> cases sextet c <;> simp at full

theorem groups_of_decode {bytes out : Bytes} (h : decode .canonical bytes = some out) :
    groups bytes = some out := by
  fun_induction groups bytes generalizing out with
  | case1 => simpa [decode, lastGroup] using h
  | case2 a b c d rest ih =>
    cases rest with
    | nil =>
      simp only [decode] at h
      simp [h, groups]
    | cons e rest =>
      simp only [decode, Option.bind_eq_bind, Option.bind_eq_some_iff, Option.some.injEq] at h
      obtain ⟨head, full, tail, more, rfl⟩ := h
      have plain := three_bytes_plain full
      simp [lastGroup, plain, full, ih more]
  | case3 last empty short =>
    rcases last with _ | ⟨a, _ | ⟨b, _ | ⟨c, _ | ⟨d, rest⟩⟩⟩⟩
    · exact absurd rfl empty
    · simp [decode, lastGroup] at h
    · simp [decode, lastGroup] at h
    · simp [decode, lastGroup] at h
    · exact absurd rfl (short a b c d rest)

theorem groups_append {left right x y : Bytes} (hl : groups left = some x)
    (hr : groups right = some y) : groups (left ++ right) = some (x ++ y) := by
  fun_induction groups left generalizing x with
  | case1 => simp_all
  | case2 a b c d rest ih =>
    simp only [Option.bind_eq_bind, Option.bind_eq_some_iff, Option.some.injEq] at hl
    obtain ⟨head, first, tail, more, rfl⟩ := hl
    simp [groups, first, ih more]
  | case3 => cases hl

theorem groups_split {left right x out : Bytes} (hl : groups left = some x)
    (h : groups (left ++ right) = some out) : ∃ y, groups right = some y ∧ x ++ y = out := by
  fun_induction groups left generalizing x out with
  | case1 =>
    cases hl
    exact ⟨out, h, rfl⟩
  | case2 a b c d rest ih =>
    simp only [Option.bind_eq_bind, Option.bind_eq_some_iff, Option.some.injEq, List.cons_append,
      groups] at hl h
    obtain ⟨head, first, tail, more, rfl⟩ := hl
    obtain ⟨head', first', tail', more', rfl⟩ := h
    cases first.symm.trans first'
    obtain ⟨y, last, joined⟩ := ih more more'
    exact ⟨y, last, by rw [List.append_assoc, joined]⟩
  | case3 => cases hl

theorem groups_length {bytes out : Bytes} (h : groups bytes = some out) :
    bytes.length % 4 = 0 := by
  fun_induction groups bytes generalizing out with
  | case1 => rfl
  | case2 a b c d rest ih =>
    simp only [Option.bind_eq_bind, Option.bind_eq_some_iff, Option.some.injEq] at h
    obtain ⟨_, _, tail, more, _⟩ := h
    have := ih more
    simp only [List.length_cons]
    omega
  | case3 => cases h

theorem sextet_plain {c : UInt8} {n : Nat} (h : sextet c = some n) : c ≠ pad := by
  rintro rfl
  have none_pad : sextet pad = none := by decide
  cases none_pad.symm.trans h

theorem group_size {a b c d : UInt8} {head : Bytes}
    (h : lastGroup .canonical [a, b, c, d] = some head) :
    head.length + [a, b, c, d].count pad = 3 := by
  have one {head : Bytes} (h : oneByte a b = some head) : head.length = 1 ∧ a ≠ pad ∧ b ≠ pad := by
    simp only [oneByte, Option.bind_eq_bind, Option.bind_eq_some_iff] at h
    obtain ⟨w, ha, x, hb, h⟩ := h
    split at h <;> cases h
    exact ⟨rfl, sextet_plain ha, sextet_plain hb⟩
  have two {head : Bytes} (h : twoBytes a b c = some head) : head.length = 2 ∧ a ≠ pad ∧ b ≠ pad := by
    simp only [twoBytes, Option.bind_eq_bind, Option.bind_eq_some_iff] at h
    obtain ⟨w, ha, x, hb, y, hc, h⟩ := h
    split at h <;> cases h
    exact ⟨rfl, sextet_plain ha, sextet_plain hb⟩
  have three {head : Bytes} (h : threeBytes a b c d = some head) :
      head.length = 3 ∧ a ≠ pad ∧ b ≠ pad ∧ c ≠ pad := by
    simp only [threeBytes, Option.bind_eq_bind, Option.bind_eq_some_iff] at h
    obtain ⟨w, ha, x, hb, y, hc, z, hd, h⟩ := h
    cases h
    exact ⟨rfl, sextet_plain ha, sextet_plain hb, sextet_plain hc⟩
  simp only [lastGroup] at h
  split at h
  · rename_i last
    split at h
    · rename_i before
      obtain ⟨size, plain, plain'⟩ := one h
      simp [size, last, before, plain, plain']
    · rename_i before
      obtain ⟨size, plain, plain'⟩ := two h
      simp [size, last, before, plain, plain']
  · rename_i last
    obtain ⟨size, plain, plain', plain''⟩ := three h
    simp [size, last, plain, plain', plain'']

theorem groups_size {bytes out : Bytes} (h : groups bytes = some out) :
    4 * (out.length + bytes.count pad) = 3 * bytes.length := by
  fun_induction groups bytes generalizing out with
  | case1 =>
    cases h
    rfl
  | case2 a b c d rest ih =>
    simp only [Option.bind_eq_bind, Option.bind_eq_some_iff, Option.some.injEq] at h
    obtain ⟨head, first, tail, more, rfl⟩ := h
    have size := group_size first
    have later := ih more
    have counted : (a :: b :: c :: d :: rest).count pad = [a, b, c, d].count pad + rest.count pad := by
      rw [← List.count_append]
      rfl
    rw [counted]
    simp only [List.length_append, List.length_cons]
    omega
  | case3 => cases h

theorem groups_encode (bytes : Bytes) : groups (encode true bytes) = some bytes :=
  groups_of_decode (decode_encode_padded bytes)

/-- Separately padded encodings may simply be joined. -/
theorem groups_encodings (parts : List Bytes) :
    groups (parts.flatMap (encode true)) = some parts.flatten := by
  induction parts with
  | nil => rfl
  | cons part parts ih =>
    rw [List.flatMap_cons, List.flatten_cons]
    exact groups_append (groups_encode part) ih

end Base64Groups
