import PureGrpc.GrpcStatus

/-!
What of a status's metadata reaches the other end of the trailers. The reserved names
stay behind, and of several values of one key the last one alone is written.
-/
namespace SurvivingMetadata
open KeyedMultimap LengthFraming GrpcMetadata GrpcStatus

def userValues (md : MetadataMap) (key : HeaderName) : List HeaderValue :=
  if key ∈ grpcReservedHeaders then [] else getAll md.headers key

/-- The status read back from its own trailers has exactly the user metadata. -/
def Survives (status : Status) : Prop :=
  ∃ trailers read, status.toHeaderMap = .ok trailers ∧
    Status.fromHeaderMap trailers = some read ∧
    ∀ key, getAll read.metadata.headers key = userValues status.metadata key

def Agree (md : MetadataMap) : Prop :=
  ∀ key, getAll (md.extendSanitizedInto []) key = getAll md.intoSanitizedHeaders key

def SingleValued (md : MetadataMap) : Prop :=
  ∀ key ∉ grpcReservedHeaders, (getAll md.headers key).length ≤ 1

theorem sanitized_user_values (md : MetadataMap) (key : HeaderName) :
    getAll md.intoSanitizedHeaders key = userValues md key := sanitized_values md key

/-- The last value of a key replaces the values before it. -/
theorem extend_last_value (md : MetadataMap) (target : HeaderMap) (key : HeaderName) :
    getAll (md.extendSanitizedInto target) key =
      if key ∈ grpcReservedHeaders then getAll target key
      else (getAll md.headers key).getLast?.elim (getAll target key) fun v => [v] := by
  have scan := get_all_insertions (fun name => grpcReservedHeaders.contains name = true)
    md.headers target key
  simp only [List.contains_iff_mem] at scan
  rw [← scan, MetadataMap.extendSanitizedInto]
  simp only [List.contains_iff_mem]

theorem extend_user_values (md : MetadataMap) (key : HeaderName) :
    getAll (md.extendSanitizedInto []) key =
      (userValues md key).getLast?.elim [] fun v => [v] := by
  rw [extend_last_value, userValues]
  split <;> rfl

theorem others_last_value (trailers : HeaderMap) (key : HeaderName) :
    getAll (trailers.foldl (fun hm entry =>
        if entry.1 ≠ grpcStatus ∧ entry.1 ≠ grpcMessage ∧ entry.1 ≠ grpcStatusDetails then
          insertKey hm entry.1 entry.2
        else hm) []) key =
      if key = grpcStatus ∨ key = grpcMessage ∨ key = grpcStatusDetails then []
      else (getAll trailers key).getLast?.elim [] fun v => [v] := by
  have scan := get_all_insertions
    (fun name => name = grpcStatus ∨ name = grpcMessage ∨ name = grpcStatusDetails)
    trailers [] key
  rw [get_all_nil] at scan
  rw [← scan]
  congr 2
  funext hm entry
  simp only [ne_eq, ← not_or]
  exact ite_not ..

theorem read_last_value {trailers : HeaderMap} {read : Status}
    (parsed : Status.fromHeaderMap trailers = some read)
    (whole : ∀ value, getKey trailers grpcStatusDetails = some value →
      Base64Groups.decode .indifferent value.bytes ≠ none) (key : HeaderName) :
    getAll read.metadata.headers key =
      if key = grpcStatus ∨ key = grpcMessage ∨ key = grpcStatusDetails then []
      else (getAll trailers key).getLast?.elim [] fun v => [v] := by
  rw [← others_last_value]
  rw [Status.fromHeaderMap] at parsed
  cases code : getKey trailers grpcStatus with
  | none => simp [code] at parsed
  | some value =>
    simp only [code] at parsed
    cases held : getKey trailers grpcStatusDetails with
    | none =>
      simp only [held, Option.some.injEq] at parsed
      rw [← parsed]
    | some details =>
      obtain ⟨decoded, good⟩ := Option.ne_none_iff_exists'.mp (whole details held)
      simp only [held, good, Option.some.injEq] at parsed
      rw [← parsed]

theorem written_details_decode {s : Status} {trailers : HeaderMap}
    (written : Written s [] trailers) (value : HeaderValue)
    (held : getKey trailers grpcStatusDetails = some value) :
    Base64Groups.decode .indifferent value.bytes ≠ none := by
  have details := written.details
  split at details
  · rw [getKey, details] at held
    cases held
  · obtain ⟨v, single, bytes⟩ := details
    rw [getKey, single] at held
    cases held
    rw [bytes, Base64Groups.decode_encode_unpadded]
    exact Option.some_ne_none _

theorem round_trip_last_value (s : Status) :
    ∃ trailers read, s.toHeaderMap = .ok trailers ∧ Status.fromHeaderMap trailers = some read ∧
      ∀ key, getAll read.metadata.headers key =
        (userValues s.metadata key).getLast?.elim [] fun v => [v] := by
  obtain ⟨trailers, run, written⟩ := to_header_map_written s
  obtain ⟨read, parsed, _⟩ := from_header_map_written written rfl rfl
  refine ⟨trailers, read, run, parsed, ?_⟩
  intro key
  rw [read_last_value parsed (written_details_decode written) key]
  split
  · rename_i own
    obtain ⟨reservedStatus, reservedMessage, reservedDetails⟩ := reserved_status_names
    have reserved : key ∈ grpcReservedHeaders := by
      rcases own with rfl | rfl | rfl <;> assumption
    rw [userValues, if_pos reserved]
    rfl
  · rename_i other
    simp only [not_or] at other
    rw [written.others key other.1 other.2.1 other.2.2, extend_user_values]
    cases (userValues s.metadata key).getLast? <;> rfl

theorem single_values (md : MetadataMap) : SingleValued md ↔
    ∀ key, ((userValues md key).getLast?.elim [] fun v => [v]) = userValues md key := by
  simp only [last_alone, userValues, SingleValued]
  constructor
  · intro single key
    split
    · exact Nat.zero_le 1
    · exact single key (by assumption)
  · intro single key free
    have short := single key
    rwa [if_neg free] at short

theorem survives_single (s : Status) : Survives s ↔ SingleValued s.metadata := by
  obtain ⟨trailers, read, run, parsed, values⟩ := round_trip_last_value s
  rw [single_values]
  constructor
  · rintro ⟨trailers', read', run', parsed', kept⟩ key
    rw [run] at run'
    cases run'
    rw [parsed] at parsed'
    cases parsed'
    rw [← values, kept]
  · intro single
    exact ⟨trailers, read, run, parsed, fun key => by rw [values, single]⟩

theorem agree_single (md : MetadataMap) : Agree md ↔ SingleValued md := by
  rw [single_values]
  simp only [Agree, extend_user_values, sanitized_user_values]

/-- A status keeps its metadata through the trailers, and both ways of writing metadata
agree, exactly where no key of the user has more than one value. -/
theorem metadata_survives (s : Status) :
    (Survives s ↔ SingleValued s.metadata) ∧ (Agree s.metadata ↔ SingleValued s.metadata) :=
  ⟨survives_single s, agree_single s.metadata⟩

def retries : MetadataMap :=
  ⟨appendKey (appendKey [] "x-retry" (fromStatic "soon" (by decide))) "x-retry"
    (fromStatic "late" (by decide))⟩

theorem metadata_dropped : (¬ ∀ s, Survives s) ∧ ¬ ∀ md, Agree md := by
  have two : ¬ SingleValued retries := by
    intro single
    exact absurd (single "x-retry" (by decide)) (by decide)
  constructor
  · intro survives
    exact two ((survives_single { Status.ok "" with metadata := retries }).mp (survives _))
  · intro agree
    exact two ((agree_single retries).mp (agree retries))

end SurvivingMetadata
