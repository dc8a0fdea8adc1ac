import PureGrpc.LengthFraming

/-!
Messages as protobuf puts them on the wire: fields one after another, each a key and
a number or a length-prefixed byte string. Numbers are seven bits a byte, lowest first,
and every byte but the last has its high bit set. Numbers are unbounded here, and only
these two wire types are read.
-/
namespace ProtobufFields
open LengthFraming

def writeVarint (n : Nat) : Bytes :=
  if n < 128 then [UInt8.ofNat n] else UInt8.ofNat (n % 128 + 128) :: writeVarint (n / 128)

def readVarint : Bytes → Option (Nat × Bytes)
  | [] => none
  | b :: rest =>
    if b.toNat < 128 then some (b.toNat, rest)
    else (readVarint rest).map fun high => (b.toNat - 128 + 128 * high.1, high.2)

theorem read_varint_write (n : Nat) (rest : Bytes) :
    readVarint (writeVarint n ++ rest) = some (n, rest) := by
  induction n using Nat.strongRecOn with
  | ind n ih =>
    rw [writeVarint]
    split
    · rename_i small
      have byte : (UInt8.ofNat n).toNat = n := by
        rw [UInt8.toNat_ofNat']
        omega
      simp only [List.cons_append, List.nil_append, readVarint, byte, small, if_true]
    · rename_i big
      have byte : (UInt8.ofNat (n % 128 + 128)).toNat = n % 128 + 128 := by
        rw [UInt8.toNat_ofNat']
        omega
      have more : ¬ n % 128 + 128 < 128 := by omega
      have sum : n % 128 + 128 - 128 + 128 * (n / 128) = n := by omega
      simp only [List.cons_append, readVarint, byte, more, if_false, ih (n / 128) (by omega),
        Option.map_some, sum]

theorem read_varint_shrinks {bytes rest : Bytes} {n : Nat} (read : readVarint bytes = some (n, rest)) :
    rest.length < bytes.length := by
  induction bytes generalizing n with
  | nil => cases read
  | cons b bytes ih =>
    simp only [readVarint] at read
    split at read
    · cases read
      exact Nat.lt_succ_self _
    · obtain ⟨⟨high, tail⟩, found, same⟩ := Option.map_eq_some_iff.mp read
      cases same
      exact Nat.lt_succ_of_lt (ih found)

inductive Value where
  | varint (n : Nat)
  | bytes (bytes : Bytes)
  deriving DecidableEq, Repr

structure Field where
  number : Nat
  value : Value
  deriving DecidableEq, Repr

def Field.write (f : Field) : Bytes :=
  match f.value with
  | .varint n => writeVarint (8 * f.number) ++ writeVarint n
  | .bytes bytes => writeVarint (8 * f.number + 2) ++ (writeVarint bytes.length ++ bytes)

def writeFields (fields : List Field) : Bytes := fields.flatMap Field.write

def readField (bytes : Bytes) : Option (Field × Bytes) :=
  match readVarint bytes with
  | none => none
  | some (key, rest) =>
    match readVarint rest with
    | none => none
    | some (n, rest) =>
      if key % 8 = 0 then some (⟨key / 8, .varint n⟩, rest)
      else if key % 8 = 2 ∧ n ≤ rest.length then some (⟨key / 8, .bytes (rest.take n)⟩, rest.drop n)
      else none

theorem read_field_write (f : Field) (rest : Bytes) : readField (f.write ++ rest) = some (f, rest) := by
  obtain ⟨number, value⟩ := f
  cases value with
  | varint n =>
    have wire : 8 * number % 8 = 0 := by omega
    have whole : 8 * number / 8 = number := by omega
    simp only [readField, Field.write, List.append_assoc, read_varint_write, wire, if_true, whole]
  | bytes bytes =>
    have wire : (8 * number + 2) % 8 = 2 := by omega
    have other : ¬ 2 = 0 := by omega
    have whole : (8 * number + 2) / 8 = number := by omega
    have enough : bytes.length ≤ (bytes ++ rest).length := by
      rw [List.length_append]
      omega
    simp only [readField, Field.write, List.append_assoc, read_varint_write, wire, other, if_false,
      enough, and_self, if_true, whole, List.take_left, List.drop_left]

theorem read_field_shrinks {bytes rest : Bytes} {f : Field} (read : readField bytes = some (f, rest)) :
    rest.length < bytes.length := by
  unfold readField at read
  split at read
  · cases read
  · rename_i key first
    split at read
    · cases read
    · rename_i n second
      have shorter := read_varint_shrinks first
      have shorter' := read_varint_shrinks second
      split at read
      · cases read
        omega
      · split at read
        · cases read
          rw [List.length_drop]
          omega
        · cases read

def readFields (bytes : Bytes) : Option (List Field) :=
  if bytes = [] then some []
  else match _h : readField bytes with
    | none => none
    | some (f, rest) => (readFields rest).map (f :: ·)
termination_by bytes.length
decreasing_by exact read_field_shrinks _h

theorem read_fields_cons {bytes rest : Bytes} {f : Field} (read : readField bytes = some (f, rest)) :
    readFields bytes = (readFields rest).map (f :: ·) := by
  have some_bytes : bytes ≠ [] := by
    rintro rfl
    cases read
  rw [readFields, if_neg some_bytes]
  split
  · rename_i h
    rw [read] at h
    cases h
  · rename_i f' rest' h
    rw [read] at h
    cases h
    rfl

theorem read_fields_write (fields : List Field) : readFields (writeFields fields) = some fields := by
  induction fields with
  | nil =>
    rw [readFields]
    rfl
  | cons f fields ih =>
    rw [writeFields, List.flatMap_cons, ← writeFields, read_fields_cons (read_field_write f _), ih]
    rfl

def Field.bytesOf (number : Nat) (f : Field) : Option Bytes :=
  match f.value with
  | .bytes bytes => if f.number = number then some bytes else none
  | .varint _ => none

def Field.varintOf (number : Nat) (f : Field) : Option Nat :=
  match f.value with
  | .varint n => if f.number = number then some n else none
  | .bytes _ => none

def repeated (number : Nat) (fields : List Field) : List Bytes := fields.filterMap (·.bytesOf number)

/-- Singular fields: the last value of this number, or the default. -/
def lastBytes (number : Nat) (fields : List Field) : Bytes :=
  (fields.filterMap (·.bytesOf number)).getLastD []

def lastVarint (number : Nat) (fields : List Field) : Nat :=
  (fields.filterMap (·.varintOf number)).getLastD 0

/-- A singular field is left out where it has the default. -/
def bytesField (number : Nat) (bytes : Bytes) : List Field :=
  if bytes = [] then [] else [⟨number, .bytes bytes⟩]

def varintField (number n : Nat) : List Field := if n = 0 then [] else [⟨number, .varint n⟩]

def repeatedField (number : Nat) (values : List Bytes) : List Field :=
  values.map fun bytes => ⟨number, .bytes bytes⟩

section Lookup
variable (number other : Nat) (bytes : Bytes) (n : Nat) (values : List Bytes)

theorem bytes_of_bytes_field : (bytesField other bytes).filterMap (·.bytesOf number) =
    if other = number ∧ bytes ≠ [] then [bytes] else [] := by
  unfold bytesField
  by_cases same : other = number <;> by_cases empty : bytes = [] <;>
    simp [Field.bytesOf, same, empty]

theorem varint_of_varint_field : (varintField other n).filterMap (·.varintOf number) =
    if other = number ∧ n ≠ 0 then [n] else [] := by
  unfold varintField
  by_cases same : other = number <;> by_cases zero : n = 0 <;>
    simp [Field.varintOf, same, zero]

theorem bytes_of_varint_field : (varintField other n).filterMap (·.bytesOf number) = [] := by
  unfold varintField
  split <;> simp [Field.bytesOf]

theorem varint_of_bytes_field : (bytesField other bytes).filterMap (·.varintOf number) = [] := by
  unfold bytesField
  split <;> simp [Field.varintOf]

theorem bytes_of_repeated : (repeatedField other values).filterMap (·.bytesOf number) =
    if other = number then values else [] := by
  induction values with
  | nil => simp [repeatedField]
  | cons value values ih =>
    simp only [repeatedField, List.map_cons, List.filterMap_cons, Field.bytesOf] at ih ⊢
    by_cases same : other = number
    · simp only [same, if_true] at ih ⊢
      rw [ih]
    · simp only [same, if_false] at ih ⊢
      exact ih

theorem varint_of_repeated : (repeatedField other values).filterMap (·.varintOf number) = [] := by
  induction values with
  | nil => rfl
  | cons value values ih => simp [repeatedField, Field.varintOf]

end Lookup

end ProtobufFields
