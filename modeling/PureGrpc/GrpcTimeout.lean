import PureGrpc.FlooredUnits
import PureGrpc.GrpcHandler

/-!
The deadline of a request as text: the count of the finest unit that takes at most
eight digits, rounded down. Arithmetic is checked in the widths of the source; an
overflow or a failed `expect` is no result.
-/
namespace GrpcTimeout
open KeyedMultimap LengthFraming GrpcMetadata GrpcHandler FlooredUnits

structure Duration where
  secs : Nat
  nanos : Nat
  secsFit : secs < 2 ^ 64
  nanosFit : nanos < 1000000000

/-- A value of an unsigned type, or an overflow panic. -/
def fits (bits value : Nat) : Option Nat := if value < 2 ^ bits then some value else none

def Duration.asNanos (self : Duration) : Option Nat := fits 128 (self.secs * 1000000000 + self.nanos)

def Duration.asMicros (self : Duration) : Option Nat :=
  fits 128 (self.secs * 1000000 + self.nanos / 1000)

def Duration.asMillis (self : Duration) : Option Nat :=
  fits 128 (self.secs * 1000 + self.nanos / 1000000)

def Duration.asSecs (self : Duration) : Option Nat := fits 64 self.secs

def Duration.exceeds (self other : Duration) : Prop :=
  other.secs < self.secs ∨ self.secs = other.secs ∧ other.nanos < self.nanos

instance (self other : Duration) : Decidable (self.exceeds other) :=
  inferInstanceAs (Decidable (_ ∨ _ ∧ _))

def maxGrpcTimeoutHours : Nat := 99999999

def maxDuration : Duration := ⟨maxGrpcTimeoutHours * 3600, 0, by decide, by decide⟩

def Duration.clamped (self : Duration) : Duration :=
  if self.exceeds maxDuration then maxDuration else self

/-- No result is a panic; a result of none is a count that is too long. -/
abbrev Attempt := Option (Option String)

def Attempt.orElse (self next : Attempt) : Attempt :=
  match self with
  | some none => next
  | done => done

def maxSize : Nat := 99999999

def tryFormat (value : Option Nat) (unit : Char) : Attempt :=
  value.map fun value =>
    if maxSize < value then none else some (toString value ++ String.singleton unit)

def durationToGrpcTimeout (duration : Duration) : Option String :=
  let duration := duration.clamped
  let nanos := tryFormat duration.asNanos 'n'
  let micros := nanos.orElse (tryFormat duration.asMicros 'u')
  let millis := micros.orElse (tryFormat duration.asMillis 'm')
  let secs := millis.orElse (tryFormat duration.asSecs 'S')
  let minutes := secs.orElse (tryFormat (duration.asSecs.map fun secs => secs / 60) 'M')
  let hours := minutes.orElse
    (tryFormat (duration.asSecs.map fun secs => let minutes := secs / 60; minutes / 60) 'H')
  hours.join

def grpcTimeoutHeader : HeaderName := "grpc-timeout"

def fromStr (text : String) : Option HeaderValue :=
  if (asBytes text).all isVisibleAscii then fromMaybeShared (asBytes text) else none

def setTimeout {X M : Type} (self : Request X M) (deadline : Duration) :
    Option (Request X M) :=
  ((durationToGrpcTimeout deadline).bind fromStr).map fun value =>
    { self with metadata := ⟨insertKey self.metadata.headers grpcTimeoutHeader value⟩ }

section Reading

/-- The units of the wire format, finest first, as their symbol and nanoseconds. -/
def timeoutUnits : List (Char × Nat) :=
  [('n', 1), ('u', 1000), ('m', 1000000), ('S', 1000000000), ('M', 60000000000),
    ('H', 3600000000000)]

def Duration.total (self : Duration) : Nat := self.secs * 1000000000 + self.nanos

def readTimeout (text : List Char) : Option Nat :=
  text.getLast?.bind fun symbol =>
    (timeoutUnits.find? fun unit => unit.1 = symbol).map fun unit =>
      Nat.ofDigitChars 10 text.dropLast 0 * unit.2

/-- What the text of a timeout says of the duration it stands for. -/
structure Floors (duration : Duration) (text : String) (unit : Char × Nat) (value : Nat) :
    Prop where
  known : unit ∈ timeoutUnits
  shape : text.toList = Nat.toDigits 10 value ++ [unit.1]
  digits : ∀ c ∈ Nat.toDigits 10 value, c.isDigit = true
  count : 1 ≤ (Nat.toDigits 10 value).length ∧ (Nat.toDigits 10 value).length ≤ 8
  reads : readTimeout text.toList = some (value * unit.2)
  below : value * unit.2 ≤ duration.clamped.total
  within : duration.clamped.total < (value + 1) * unit.2
  finest : ∀ finer ∈ timeoutUnits, finer.2 < unit.2 →
    8 < (Nat.toDigits 10 (duration.clamped.total / finer.2)).length
  loss : value * unit.2 = duration.clamped.total ∨
    (duration.clamped.total - value * unit.2) * 100000 < duration.clamped.total

end Reading

theorem max_parts : maxDuration.secs = 359999996400 ∧ maxDuration.nanos = 0 := ⟨rfl, rfl⟩

theorem max_total : maxDuration.total = 359999996400000000000 := rfl

theorem clamped_total (d : Duration) : d.clamped.total = min d.total maxDuration.total := by
  have less := d.nanosFit
  obtain ⟨secs, nanos⟩ := max_parts
  unfold Duration.clamped
  split
  · rename_i above
    rw [Duration.exceeds, secs, nanos] at above
    rw [max_total, Duration.total]
    omega
  · rename_i below
    rw [Duration.exceeds, secs, nanos] at below
    rw [max_total, Duration.total]
    omega

theorem fits_some {bits value : Nat} (less : value < 2 ^ bits) : fits bits value = some value :=
  if_pos less

theorem conversions_count (d : Duration) :
    d.asNanos = some (d.total / 1) ∧ d.asMicros = some (d.total / 1000) ∧
      d.asMillis = some (d.total / 1000000) ∧ d.asSecs = some (d.total / 1000000000) := by
  have secs := d.secsFit
  have nanos := d.nanosFit
  have count (value : Nat) (size : Nat) (less : value < 2 ^ 128)
      (same : value = d.total / size) : fits 128 value = some (d.total / size) := by
    rw [fits_some less, same]
  have seconds : d.secs = d.total / 1000000000 := by
    rw [Duration.total]
    omega
  refine ⟨count _ _ ?_ (Nat.div_one _).symm, count _ _ ?_ ?_, count _ _ ?_ ?_, ?_⟩
  · omega
  · omega
  · rw [Duration.total]
    omega
  · omega
  · rw [Duration.total]
    omega
  · rw [Duration.asSecs, fits_some secs, ← seconds]

def timeoutText (total : Nat) (unit : Char × Nat) : String :=
  toString (total / unit.2) ++ String.singleton unit.1

theorem attempt_unit (total : Nat) (unit : Char × Nat) :
    tryFormat (some (total / unit.2)) unit.1 =
      some (if total / unit.2 ≤ maxSize then some (timeoutText total unit) else none) := by
  by_cases short : total / unit.2 ≤ maxSize
  · simp only [tryFormat, Option.map_some, if_neg (Nat.not_lt.mpr short), if_pos short,
      timeoutText]
  · simp only [tryFormat, Option.map_some, if_pos (Nat.not_le.mp short), if_neg short]

def attempts (total : Nat) : List (Char × Nat) → Attempt
  | [] => some none
  | unit :: units => (tryFormat (some (total / unit.2)) unit.1).orElse (attempts total units)

theorem attempts_finest (total : Nat) (units : List (Char × Nat)) :
    attempts total units = some ((finest (·.2) maxSize total units).map (timeoutText total)) := by
  induction units with
  | nil => rfl
  | cons unit units ih =>
    rw [attempts, attempt_unit, finest]
    split
    · rfl
    · exact ih

theorem or_else_assoc (a b c : Attempt) : (a.orElse b).orElse c = a.orElse (b.orElse c) := by
  cases a with
  | none => rfl
  | some text => cases text <;> rfl

theorem or_else_none (a : Attempt) : a.orElse (some none) = a := by
  cases a with
  | none => rfl
  | some text => cases text <;> rfl

/-- The chain of attempts takes the finest unit whose count is not too long. -/
theorem timeout_finest (d : Duration) :
    durationToGrpcTimeout d = (finest (·.2) maxSize d.clamped.total timeoutUnits).map
      (timeoutText d.clamped.total) := by
  obtain ⟨nanos, micros, millis, secs⟩ := conversions_count d.clamped
  have minutes : d.clamped.asSecs.map (fun secs => secs / 60) =
      some (d.clamped.total / 60000000000) := by
    rw [secs, Option.map_some, Nat.div_div_eq_div_mul]
  have hours : d.clamped.asSecs.map (fun secs => secs / 60 / 60) =
      some (d.clamped.total / 3600000000000) := by
    rw [secs, Option.map_some, Nat.div_div_eq_div_mul, Nat.div_div_eq_div_mul]
  have chain := attempts_finest d.clamped.total timeoutUnits
  simp only [timeoutUnits, attempts, or_else_none] at chain
  simp only [durationToGrpcTimeout, nanos, micros, millis, minutes, hours, or_else_assoc]
  rw [secs, chain, Option.join_some, timeoutUnits]

theorem hours_fit (d : Duration) : d.clamped.total / 3600000000000 ≤ maxSize := by
  have bound := clamped_total d
  rw [max_total] at bound
  rw [maxSize]
  omega

theorem timeout_unit (d : Duration) :
    ∃ unit, finest (·.2) maxSize d.clamped.total timeoutUnits = some unit ∧
      durationToGrpcTimeout d = some (timeoutText d.clamped.total unit) := by
  have hours : ('H', 3600000000000) ∈ timeoutUnits := by decide
  have coarse : ∃ unit, finest (·.2) maxSize d.clamped.total timeoutUnits = some unit :=
    finest_found hours (hours_fit d)
  obtain ⟨unit, found⟩ := coarse
  exact ⟨unit, found, by rw [timeout_finest, found, Option.map_some]⟩

theorem text_list (total : Nat) (unit : Char × Nat) :
    (timeoutText total unit).toList = Nat.toDigits 10 (total / unit.2) ++ [unit.1] := by
  rw [timeoutText, String.toList_append, Nat.toString_eq_repr, Nat.toList_repr,
    String.toList_singleton]

theorem unit_symbol : ∀ unit ∈ timeoutUnits,
    (timeoutUnits.find? fun other => other.1 = unit.1) = some unit ∧ 0 < unit.2 := by
  decide

theorem read_timeout_text {unit : Char × Nat} (known : unit ∈ timeoutUnits) (value : Nat) :
    readTimeout (Nat.toDigits 10 value ++ [unit.1]) = some (value * unit.2) := by
  rw [readTimeout, List.getLast?_concat, Option.bind_some, (unit_symbol unit known).1,
    Option.map_some, List.dropLast_concat, Nat.ofDigitChars_ten_toDigits]

theorem digits_over {value : Nat} :
    8 < (Nat.toDigits 10 value).length ↔ maxSize < value := by
  have count := Nat.length_toDigits_le_iff (b := 10) (n := value) (k := 8) (by decide) (by decide)
  rw [maxSize]
  omega

theorem unit_growing : timeoutUnits.Pairwise fun unit later => unit.2 < later.2 := by decide

theorem unit_graded : Graded (·.2) 1000 timeoutUnits := by decide

theorem unit_loss {total : Nat} {unit : Char × Nat}
    (found : finest (·.2) maxSize total timeoutUnits = some unit) :
    total / unit.2 * unit.2 = total ∨ (total - total / unit.2 * unit.2) * 100000 < total := by
  obtain ⟨known, _⟩ := finest_within found
  rcases finest_before unit_graded found with rfl | ⟨finer, near, above⟩
  · exact .inl (by rw [Nat.div_one, Nat.mul_one])
  · exact .inr (floor_loss (unit_symbol unit known).2 near (by decide) above)

/-- Every duration has a timeout text, which floors the clamped duration to the finest unit
that fits; the deadline is never lengthened. -/
theorem timeout_floors (d : Duration) :
    ∃ text unit value, durationToGrpcTimeout d = some text ∧ Floors d text unit value ∧
      d.clamped.total = min d.total (99999999 * 3600 * 1000000000) ∧
      value * unit.2 ≤ d.total := by
  obtain ⟨unit, found, formatted⟩ := timeout_unit d
  obtain ⟨known, fits⟩ := finest_within found
  obtain ⟨below, within⟩ := floor_bounds d.clamped.total (unit_symbol unit known).2
  have clamp := clamped_total d
  have floors : Floors d (timeoutText d.clamped.total unit) unit (d.clamped.total / unit.2) :=
    { known := known
      shape := text_list d.clamped.total unit
      digits := fun c mem => Nat.isDigit_of_mem_toDigits (by decide) (by decide) mem
      count := ⟨Nat.length_toDigits_pos, by
        by_contra long
        exact absurd (digits_over.mp (Nat.not_le.mp long)) (Nat.not_lt.mpr fits)⟩
      reads := by rw [text_list, read_timeout_text known]
      below := below
      within := within
      finest := fun finer mem less => digits_over.mpr (finest_skips unit_growing found finer mem less)
      loss := unit_loss found }
  refine ⟨_, unit, _, formatted, floors, clamp, ?_⟩
  calc d.clamped.total / unit.2 * unit.2 ≤ d.clamped.total := below
    _ ≤ d.total := by rw [clamp]; exact Nat.min_le_left _ _

example : durationToGrpcTimeout ⟨99999, 999000000, by decide, by decide⟩ = some "99999999m" := by
  decide

theorem ascii_bytes {text : String} (ascii : ∀ c ∈ text.toList, 32 ≤ c.toNat ∧ c.toNat < 127) :
    ∀ b ∈ asBytes text, isVisibleAscii b = true ∧ isValidByte b = true := by
  have bytes : asBytes text = text.toList.flatMap String.utf8EncodeChar := by
    have whole : text.toByteArray = text.toList.utf8Encode := by
      rw [← String.toByteArray_ofList, String.ofList_toList]
    simp only [asBytes, String.toUTF8, whole, List.utf8Encode, List.data_toByteArray]
  intro b mem
  rw [bytes, List.mem_flatMap] at mem
  obtain ⟨c, member, one⟩ := mem
  obtain ⟨low, high⟩ := ascii c member
  have short : c.val.toNat ≤ 127 := by
    have : c.val.toNat = c.toNat := rfl
    omega
  rw [String.utf8EncodeChar, if_pos short, List.mem_singleton] at one
  have same : b.toNat = c.toNat := by
    rw [one, UInt8.toNat_ofNat', Nat.mod_eq_of_lt (by omega)]
    rfl
  simp only [isVisibleAscii, isValidByte, Bool.or_eq_true, Bool.and_eq_true, decide_eq_true_eq,
    UInt8.le_iff_toNat_le, UInt8.lt_iff_toNat_lt, ne_eq, ← UInt8.toNat_inj, same]
  exact ⟨.inl ⟨low, high⟩, .inl ⟨low, Nat.ne_of_lt high⟩⟩

theorem timeout_ascii {total : Nat} {unit : Char × Nat} (known : unit ∈ timeoutUnits) :
    ∀ c ∈ (timeoutText total unit).toList, 32 ≤ c.toNat ∧ c.toNat < 127 := by
  intro c mem
  rw [text_list, List.mem_append, List.mem_singleton] at mem
  rcases mem with digit | rfl
  · have range := Char.isDigit_iff_toNat.mp
      (Nat.isDigit_of_mem_toDigits (by decide) (by decide) digit)
    have low : '0'.toNat = 48 := rfl
    have high : '9'.toNat = 57 := rfl
    omega
  · exact (by decide : ∀ unit ∈ timeoutUnits, 32 ≤ unit.1.toNat ∧ unit.1.toNat < 127) unit known

theorem from_str_ascii {text : String}
    (ascii : ∀ c ∈ text.toList, 32 ≤ c.toNat ∧ c.toNat < 127) :
    ∃ value, fromStr text = some value ∧ value.bytes = asBytes text := by
  have bytes := ascii_bytes ascii
  obtain ⟨value, shared, same⟩ := from_maybe_shared_ok fun b mem => (bytes b mem).2
  exact ⟨value, by rw [fromStr, if_pos (List.all_eq_true.mpr fun b mem => (bytes b mem).1), shared],
    same⟩

theorem timeout_value (d : Duration) : ∃ text value, durationToGrpcTimeout d = some text ∧
    fromStr text = some value ∧ value.bytes = asBytes text := by
  obtain ⟨unit, found, formatted⟩ := timeout_unit d
  have ascii : ∀ c ∈ (timeoutText d.clamped.total unit).toList, 32 ≤ c.toNat ∧ c.toNat < 127 :=
    timeout_ascii (finest_within found).1
  obtain ⟨value, parsed, same⟩ := from_str_ascii ascii
  exact ⟨_, value, formatted, parsed, same⟩

theorem set_timeout_written {X M : Type} (r : Request X M) (d : Duration) :
    ∃ text value, durationToGrpcTimeout d = some text ∧ value.bytes = asBytes text ∧
      setTimeout r d = some
        { r with metadata := ⟨insertKey r.metadata.headers grpcTimeoutHeader value⟩ } := by
  obtain ⟨text, value, formatted, parsed, same⟩ := timeout_value d
  refine ⟨text, value, formatted, same, ?_⟩
  rw [setTimeout, formatted, Option.bind_some, parsed, Option.map_some]

theorem set_timeout_headers {X M : Type} (r : Request X M) (d : Duration) :
    ∃ set text, setTimeout r d = some set ∧ durationToGrpcTimeout d = some text ∧
      (getAll set.metadata.headers grpcTimeoutHeader).map (·.bytes) = [asBytes text] ∧
      (∀ key ≠ grpcTimeoutHeader,
        getAll set.metadata.headers key = getAll r.metadata.headers key) ∧
      set.message = r.message ∧ set.extensions = r.extensions := by
  obtain ⟨text, value, formatted, same, set⟩ := set_timeout_written r d
  refine ⟨_, text, set, formatted, ?_, ?_, rfl, rfl⟩
  · rw [get_all_insert, if_pos rfl, List.map_singleton, same]
  · intro key other
    rw [get_all_insert, if_neg (Ne.symm other)]

end GrpcTimeout
