import PureGrpc.GrpcStatus

/-!
Compression encodings, the sets a peer enables, and how headers choose one.
The compressors themselves come from other libraries and are a parameter.
-/
namespace GrpcCompression
open KeyedMultimap LengthFraming GrpcMetadata GrpcStatus

inductive CompressionEncoding where
  | gzip | deflate | zstd
  deriving DecidableEq, Repr

def CompressionEncoding.encodings : List CompressionEncoding := [.gzip, .deflate, .zstd]

def CompressionEncoding.asStr : CompressionEncoding → String
  | .gzip => "gzip"
  | .deflate => "deflate"
  | .zstd => "zstd"

def CompressionEncoding.parse (s : String) : Option CompressionEncoding :=
  CompressionEncoding.encodings.find? fun e => e.asStr = s

def CompressionEncoding.intoHeaderValue : CompressionEncoding → HeaderValue
  | .gzip => fromStatic "gzip" (by decide)
  | .deflate => fromStatic "deflate" (by decide)
  | .zstd => fromStatic "zstd" (by decide)

structure EnabledCompressionEncodings where
  gzip : Bool
  deflate : Bool
  zstd : Bool
  deriving DecidableEq, Repr

def EnabledCompressionEncodings.isEnabled (self : EnabledCompressionEncodings) :
    CompressionEncoding → Bool
  | .gzip => self.gzip
  | .deflate => self.deflate
  | .zstd => self.zstd

def encodingHeader : HeaderName := "grpc-encoding"
def acceptEncodingHeader : HeaderName := "grpc-accept-encoding"

def EnabledCompressionEncodings.acceptNames (self : EnabledCompressionEncodings) : String :=
  ",".intercalate ((CompressionEncoding.encodings.filter self.isEnabled).map (·.asStr))

def EnabledCompressionEncodings.intoAcceptEncodingHeaderValue
    (self : EnabledCompressionEncodings) : Option HeaderValue :=
  if CompressionEncoding.encodings.any self.isEnabled then
    fromMaybeShared (asBytes self.acceptNames)
  else none

def CompressionEncoding.fromEncodingHeader (headers : HeaderMap)
    (accepted : EnabledCompressionEncodings) : Except Status (Option CompressionEncoding) :=
  match getKey headers encodingHeader with
  | none => .ok none
  | some val =>
    match val.toStr with
    | none => .error (.internal "grpc-encoding header is not valid UTF-8")
    | some encodingStr =>
      if encodingStr = "identity" then .ok none
      else match CompressionEncoding.parse encodingStr with
        | some encoding =>
          if accepted.isEnabled encoding then .ok (some encoding)
          else .error (.unimplemented
            ("compression `" ++ encoding.asStr ++ "` is not supported"))
        | none => .error (.unimplemented
            ("unknown compression encoding `" ++ encodingStr ++ "`"))

/-- Leading and trailing blanks dropped, as str::trim does on visible ASCII. -/
def trim (s : List Char) : List Char :=
  ((s.dropWhile Char.isWhitespace).reverse.dropWhile Char.isWhitespace).reverse

/-- The first listed name that is known and enabled for sending. -/
def CompressionEncoding.fromAcceptEncodingHeader (headers : HeaderMap)
    (sendEncodings : EnabledCompressionEncodings) : Option CompressionEncoding :=
  match (getKey headers acceptEncodingHeader).bind HeaderValue.toStr with
  | none => none
  | some acceptStr =>
    (acceptStr.toList.splitOn ',').findSome? fun part =>
      match CompressionEncoding.parse (String.ofList (trim part)) with
      | some encoding => if sendEncodings.isEnabled encoding then some encoding else none
      | none => none

/-- Every name that is offered stands for an encoding that is accepted. -/
theorem offered_names_enabled : ∀ gzip deflate zstd,
    let accepted := EnabledCompressionEncodings.mk gzip deflate zstd
    accepted.intoAcceptEncodingHeaderValue.all (fun value =>
      value.toStr.all fun acceptStr => (acceptStr.toList.splitOn ',').all fun part =>
        (CompressionEncoding.parse (String.ofList (trim part))).all accepted.isEnabled) = true := by
  decide

/-- What one peer picks from another's offer, the other accepts. -/
theorem picked_encoding_enabled {headers : HeaderMap}
    {accepted sendEncodings : EnabledCompressionEncodings} {encoding : CompressionEncoding}
    (offered : getKey headers acceptEncodingHeader = accepted.intoAcceptEncodingHeaderValue)
    (picked : CompressionEncoding.fromAcceptEncodingHeader headers sendEncodings = some encoding) :
    accepted.isEnabled encoding = true := by
  have names := offered_names_enabled accepted.gzip accepted.deflate accepted.zstd
  unfold CompressionEncoding.fromAcceptEncodingHeader at picked
  rw [offered] at picked
  split at picked
  · cases picked
  · rename_i acceptStr read
    obtain ⟨value, some_value, text⟩ := Option.bind_eq_some_iff.mp read
    obtain ⟨part, listed, chosen⟩ := List.exists_of_findSome?_eq_some picked
    simp only [some_value, text, Option.all_some, List.all_eq_true] at names
    have allowed := names part listed
    split at chosen
    · rename_i known parsed
      rw [parsed, Option.all_some] at allowed
      split at chosen <;> cases chosen
      exact allowed
    · cases chosen

theorem encoding_header_accepted {headers : HeaderMap} {accepted : EnabledCompressionEncodings}
    {encoding : Option CompressionEncoding}
    (named : getKey headers encodingHeader = encoding.map (·.intoHeaderValue))
    (enabled : ∀ e, encoding = some e → accepted.isEnabled e = true) :
    CompressionEncoding.fromEncodingHeader headers accepted = .ok encoding := by
  cases encoding with
  | none => simp only [CompressionEncoding.fromEncodingHeader, named, Option.map_none]
  | some encoding =>
    have read : encoding.intoHeaderValue.toStr = some encoding.asStr ∧
        encoding.asStr ≠ "identity" ∧
        CompressionEncoding.parse encoding.asStr = some encoding := by
      cases encoding <;> decide
    simp only [CompressionEncoding.fromEncodingHeader, named, Option.map_some, read, if_false,
      enabled encoding rfl, if_true]

/-- The compressors linked in, with the text of their errors. -/
structure Compressors where
  compress : CompressionEncoding → Bytes → Except String Bytes
  decompress : CompressionEncoding → Bytes → Except String Bytes

def Compressors.Inverse (z : Compressors) : Prop :=
  ∀ encoding plain packed, z.compress encoding plain = .ok packed →
    z.decompress encoding packed = .ok plain

section Stored

/-- The head of one of deflate's stored blocks: its kind, its length and the complement of that. -/
def storedHeader (last : UInt8) (len : Nat) : Bytes :=
  [last, UInt8.ofNat len, UInt8.ofNat (len / 256), ~~~UInt8.ofNat len, ~~~UInt8.ofNat (len / 256)]

/-- What a deflate writer makes of bytes that it cannot shorten. -/
def deflateStored (plain : Bytes) : Bytes :=
  if plain.length < 65536 then storedHeader 1 plain.length ++ plain
  else storedHeader 0 65535 ++ (plain.take 65535 ++ deflateStored (plain.drop 65535))
termination_by plain.length

def inflateStored : Bytes → Except String Bytes
  | last :: low :: high :: low' :: high' :: rest =>
    let len := low.toNat + 256 * high.toNat
    if low' ≠ ~~~low ∨ high' ≠ ~~~high ∨ 1 < last ∨ rest.length < len then
      .error "corrupt deflate stream"
    else if last = 1 then .ok (rest.take len)
    else (inflateStored (rest.drop len)).map (rest.take len ++ ·)
  | _ => .error "corrupt deflate stream"
termination_by packed => packed.length
decreasing_by
  simp only [List.length_drop, List.length_cons]
  omega

theorem inflate_block {last : UInt8} (kind : last = 0 ∨ last = 1) {block : Bytes}
    (short : block.length < 65536) (rest : Bytes) :
    inflateStored (storedHeader last block.length ++ (block ++ rest)) =
      if last = 1 then .ok block else (inflateStored rest).map (block ++ ·) := by
  have len : (UInt8.ofNat block.length).toNat + 256 * (UInt8.ofNat (block.length / 256)).toNat =
      block.length := by
    simp only [UInt8.toNat_ofNat']
    omega
  have known : ¬ 1 < last := by
    rcases kind with rfl | rfl <;> decide
  have enough : ¬ (block ++ rest).length < block.length := by
    rw [List.length_append]
    omega
  simp only [storedHeader, List.cons_append, List.nil_append]
  rw [inflateStored]
  simp only [len, known, enough, ne_eq, not_true, false_or, if_false, List.take_left,
    List.drop_left]

theorem inflate_deflate (plain : Bytes) : inflateStored (deflateStored plain) = .ok plain := by
  fun_induction deflateStored plain with
  | case1 plain short =>
    have block := inflate_block (.inr rfl) short []
    rwa [List.append_nil, if_pos rfl] at block
  | case2 plain long ih =>
    have size : (plain.take 65535).length = 65535 := by
      rw [List.length_take]
      omega
    have block := inflate_block (.inl rfl) (show (plain.take 65535).length < 65536 by omega)
      (deflateStored (plain.drop 65535))
    rw [size, if_neg (by decide), ih] at block
    rw [block]
    exact congrArg Except.ok (List.take_append_drop 65535 plain)

theorem deflate_stored_short {plain : Bytes} (short : plain.length < 65536) :
    deflateStored plain = storedHeader 1 plain.length ++ plain := by
  rw [deflateStored, if_pos short]

/-- Forty different bytes, which no code makes shorter. -/
def unshortened : Bytes := (List.range 40).map fun n => UInt8.ofNat (144 + n)

theorem unshortened_stored : deflateStored unshortened = [1, 40, 0, 215, 255] ++ unshortened := by
  rw [deflate_stored_short (by decide)]
  decide

def storedCompressors : Compressors :=
  ⟨fun _ plain => .ok (deflateStored plain), fun _ packed => inflateStored packed⟩

theorem stored_inverse : storedCompressors.Inverse := by
  intro _ plain packed packing
  cases packing
  exact inflate_deflate plain

end Stored

example : CompressionEncoding.fromAcceptEncodingHeader
    [(acceptEncodingHeader, fromStatic "br, zstd ,gzip" (by decide))] ⟨true, false, true⟩ =
      some .zstd := by decide

end GrpcCompression
