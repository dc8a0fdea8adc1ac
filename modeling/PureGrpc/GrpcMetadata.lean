import PureGrpc.KeyedMultimap
import PureGrpc.LengthFraming

/-!
HTTP header values and the gRPC metadata built on them. A header value carries
the proof that its bytes may stand in a header, so a value that a peer could
not receive cannot be built. Names are lower-case strings.
-/
namespace GrpcMetadata
open KeyedMultimap LengthFraming

abbrev HeaderName := String

def asBytes (s : String) : Bytes := s.toUTF8.data.toList

/-- Visible bytes, obs-text and tab. -/
def isValidByte (b : UInt8) : Bool := (decide (32 ≤ b) && decide (b ≠ 127)) || decide (b = 9)

structure HeaderValue where
  bytes : Bytes
  valid : bytes.all isValidByte = true
  deriving DecidableEq, Repr

abbrev HeaderMap := Multimap HeaderName HeaderValue

def fromStatic (s : String) (valid : (asBytes s).all isValidByte = true) : HeaderValue :=
  ⟨asBytes s, valid⟩

def fromMaybeShared (bytes : Bytes) : Option HeaderValue :=
  if valid : bytes.all isValidByte = true then some ⟨bytes, valid⟩ else none

def isVisibleAscii (b : UInt8) : Bool := (decide (32 ≤ b) && decide (b < 127)) || decide (b = 9)

def HeaderValue.toStr (v : HeaderValue) : Option String :=
  if v.bytes.all isVisibleAscii then
    some (String.ofList (v.bytes.map fun b => Char.ofNat b.toNat))
  else none

theorem from_maybe_shared_ok {bytes : Bytes} (valid : ∀ b ∈ bytes, isValidByte b = true) :
    ∃ v, fromMaybeShared bytes = some v ∧ v.bytes = bytes := by
  have all := List.all_eq_true.mpr valid
  exact ⟨⟨bytes, all⟩, by simp only [fromMaybeShared, all, dif_pos], rfl⟩

def grpcContentType : HeaderValue := fromStatic "application/grpc" (by decide)

def te : HeaderName := "te"
def trailersValue : HeaderValue := fromStatic "trailers" (by decide)

def grpcReservedHeaders : List HeaderName :=
  ["te", "content-type", "grpc-message", "grpc-message-type", "grpc-status",
    "grpc-status-details-bin", "grpc-encoding", "grpc-accept-encoding"]

structure MetadataMap where
  headers : HeaderMap
  deriving DecidableEq, Repr

def MetadataMap.new : MetadataMap := ⟨[]⟩

def MetadataMap.intoSanitizedHeaders (self : MetadataMap) : HeaderMap :=
  grpcReservedHeaders.foldl removeKey self.headers

def MetadataMap.extendSanitizedInto (self : MetadataMap) (target : HeaderMap) : HeaderMap :=
  self.headers.foldl
    (fun target entry =>
      if grpcReservedHeaders.contains entry.1 then target else insertKey target entry.1 entry.2)
    target

def MetadataMap.merge (self other : MetadataMap) : MetadataMap :=
  ⟨extend self.headers other.headers⟩

theorem get_all_removals (names : List HeaderName) (m : HeaderMap) (k : HeaderName) :
    getAll (names.foldl removeKey m) k = if k ∈ names then [] else getAll m k := by
  induction names generalizing m with
  | nil => simp
  | cons name names ih =>
    rw [List.foldl_cons, ih, get_all_remove]
    by_cases later : k ∈ names
    · simp [later]
    · by_cases here : name = k
      · simp [here]
      · simp [later, here, Ne.symm here]

theorem sanitized_values (md : MetadataMap) (k : HeaderName) :
    getAll md.intoSanitizedHeaders k =
      if k ∈ grpcReservedHeaders then [] else getAll md.headers k :=
  get_all_removals grpcReservedHeaders md.headers k

theorem extend_sanitized_reserved (md : MetadataMap) (target : HeaderMap) (k : HeaderName)
    (reserved : k ∈ grpcReservedHeaders) :
    getAll (md.extendSanitizedInto target) k = getAll target k := by
  obtain ⟨headers⟩ := md
  simp only [MetadataMap.extendSanitizedInto]
  induction headers generalizing target with
  | nil => rfl
  | cons entry headers ih =>
    rw [List.foldl_cons, ih]
    split
    · rfl
    · rename_i free
      have other : entry.1 ≠ k := by
        rintro rfl
        exact free (List.contains_iff_mem.mpr reserved)
      simp [other]

theorem merge_values (md other : MetadataMap) (k : HeaderName) :
    getAll (md.merge other).headers k =
      if containsKey other.headers k then getAll other.headers k else getAll md.headers k :=
  get_all_extend md.headers other.headers k

end GrpcMetadata
