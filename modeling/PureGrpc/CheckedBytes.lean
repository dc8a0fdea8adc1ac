import PureGrpc.LengthFraming

/-!
Reads from the front of a byte buffer, as the bytes crate has them: each gives
what it read and what is left, and `none` stands for the panic of a read past
the end.
-/
namespace CheckedBytes
open LengthFraming

def getU8 : Bytes → Option (UInt8 × Bytes)
  | byte :: rest => some (byte, rest)
  | [] => none

def getU32 : Bytes → Option (Nat × Bytes)
  | a :: b :: c :: d :: rest => some (beNat a b c d, rest)
  | _ => none

def front (bytes : Bytes) (len : Nat) : Option Bytes :=
  if len ≤ bytes.length then some (bytes.take len) else none

def advance (bytes : Bytes) (cnt : Nat) : Option Bytes :=
  if cnt ≤ bytes.length then some (bytes.drop cnt) else none

def splitTo (bytes : Bytes) (len : Nat) : Option (Bytes × Bytes) :=
  if len ≤ bytes.length then some (bytes.take len, bytes.drop len) else none

theorem front_within {bytes : Bytes} {len : Nat} (within : len ≤ bytes.length) :
    front bytes len = some (bytes.take len) := by
  rw [front, if_pos within]

theorem advance_within {bytes : Bytes} {cnt : Nat} (within : cnt ≤ bytes.length) :
    advance bytes cnt = some (bytes.drop cnt) := by
  rw [advance, if_pos within]

theorem split_to_within {bytes : Bytes} {len : Nat} (within : len ≤ bytes.length) :
    splitTo bytes len = some (bytes.take len, bytes.drop len) := by
  rw [splitTo, if_pos within]

theorem header_reads {bytes rest : Bytes} {flag : UInt8} {len : Nat}
    (header : readHeader bytes = some (flag, len, rest)) :
    getU8 bytes = some (flag, bytes.drop 1) ∧ getU32 (bytes.drop 1) = some (len, rest) := by
  unfold readHeader at header
  split at header
  · rename_i first a b c d tail
    cases header
    exact ⟨rfl, rfl⟩
  · cases header

end CheckedBytes
