import PureGrpc.GrpcStatus
import PureGrpc.WebBodies

/-!
Responses on their way to a browser. The data frames of the inner body pass, and
then one more frame carries its trailers as text; it comes on the poll after the
trailers, or in place of the end. `readTrailerFrame` is how a client reads it.
-/
namespace WebResponses
open KeyedMultimap LengthFraming GrpcMetadata GrpcStatus PolledMachines HttpBodies WebBodies

def cutAt (stop : UInt8) : Bytes → Option (Bytes × Bytes)
  | [] => none
  | b :: rest =>
    if b = stop then some ([], rest) else (cutAt stop rest).map fun cut => (b :: cut.1, cut.2)

theorem cut_at_first {stop : UInt8} {front : Bytes} (absent : stop ∉ front) (rest : Bytes) :
    cutAt stop (front ++ stop :: rest) = some (front, rest) := by
  induction front with
  | nil => simp only [List.nil_append, cutAt, if_true]
  | cons b front ih =>
    simp only [List.mem_cons, not_or] at absent
    simp only [List.cons_append, cutAt, Ne.symm absent.1, if_false, ih absent.2, Option.map_some]

def readLine (text : Bytes) : Option ((HeaderName × HeaderValue) × Bytes) :=
  match cutAt 58 text with
  | none => none
  | some (name, after) =>
    match cutAt 13 after with
    | some (value, 10 :: rest) =>
      match decodeUtf8 name, fromMaybeShared value with
      | .ok name, some value => some ((name, value), rest)
      | _, _ => none
    | _ => none

def readLines : Nat → Bytes → Option HeaderMap
  | _, [] => some []
  | 0, _ => none
  | fuel + 1, text =>
    match readLine text with
    | none => none
    | some (entry, rest) => (readLines fuel rest).map (entry :: ·)

def readTrailerFrame (frame : Bytes) : Option HeaderMap :=
  match readFrame frame with
  | some (framed, []) =>
    if framed.flag = 0x80 then readLines framed.payload.length framed.payload else none
  | _ => none

section Reading
variable {map : HeaderMap}

theorem value_unbroken (value : HeaderValue) : (13 : UInt8) ∉ value.bytes := by
  intro found
  have valid := List.all_eq_true.mp value.valid 13 found
  revert valid
  decide

theorem read_line_write {entry : HeaderName × HeaderValue} (name : (58 : UInt8) ∉ asBytes entry.1)
    (rest : Bytes) : readLine (trailerLine entry ++ rest) = some (entry, rest) := by
  obtain ⟨key, value⟩ := entry
  have line : trailerLine (key, value) ++ rest =
      asBytes key ++ 58 :: (value.bytes ++ 13 :: (10 :: rest)) := by
    have colon : asBytes ":" = [58] := by decide
    simp only [trailerLine, colon, List.append_assoc, List.cons_append, List.nil_append]
  have shared : fromMaybeShared value.bytes = some value := by
    simp only [fromMaybeShared, value.valid, dite_true]
  rw [line]
  simp only [readLine, cut_at_first name, cut_at_first (value_unbroken value), decode_utf8_bytes,
    shared]

theorem read_lines_write (names : ∀ entry ∈ map, (58 : UInt8) ∉ asBytes entry.1) (fuel : Nat)
    (enough : map.length ≤ fuel) : readLines fuel (map.flatMap trailerLine) = some map := by
  induction map generalizing fuel with
  | nil => cases fuel <;> rfl
  | cons entry map ih =>
    obtain ⟨fuel, rfl⟩ := Nat.exists_eq_add_of_le' (Nat.le_trans (by simp) enough : 1 ≤ fuel)
    have first := read_line_write (names entry (by simp)) (map.flatMap trailerLine)
    have later := ih (fun e mem => names e (List.mem_cons_of_mem entry mem)) fuel
      (by simpa using enough)
    rw [List.flatMap_cons]
    cases text : trailerLine entry ++ map.flatMap trailerLine with
    | nil => simp [trailerLine] at text
    | cons b rest =>
      rw [text] at first
      simp only [readLines, first, later, Option.map_some]

theorem lines_length (map : HeaderMap) : map.length ≤ (map.flatMap trailerLine).length := by
  induction map with
  | nil => simp
  | cons entry map ih =>
    simp only [List.flatMap_cons, List.length_append, List.length_cons, trailerLine, List.length_nil]
    omega

theorem read_trailer_frame (names : ∀ entry ∈ map, (58 : UInt8) ∉ asBytes entry.1)
    (fits : (map.flatMap trailerLine).length < 2 ^ 32) :
    readTrailerFrame (Framed.write ⟨0x80, map.flatMap trailerLine⟩) = some map := by
  have frame := read_frame_write ⟨0x80, map.flatMap trailerLine⟩ fits []
  rw [List.append_nil] at frame
  rw [readTrailerFrame, frame]
  exact read_lines_write names _ (lines_length map)

end Reading

section Encoding
variable {β ε : Type} (poll : β → FramePoll ε × β)

inductive Yields : β → List Bytes → HeaderMap → Prop where
  | ended {s t} (h : poll s = (.ready none, t)) : Yields s [] []
  | trailers {s t map} (h : poll s = (.ready (some (.ok (.trailers map))), t)) : Yields s [] map
  | wait {s t parts map} (h : poll s = (.pending, t)) (rest : Yields t parts map) :
      Yields s parts map
  | data {s t part parts map} (h : poll s = (.ready (some (.ok (.data part))), t))
      (rest : Yields t parts map) : Yields s (part :: parts) map

def dataFrames (parts : List Bytes) : List (Except ε Frame) := parts.map fun part => .ok (.data part)

def encodePart (encoding : Encoding) (part : Bytes) : Bytes :=
  match encoding with
  | .base64 => Base64Groups.encode true part
  | .binary => part

theorem encode_trailers_nonempty (map : HeaderMap) (encoding : Encoding) :
    encodeTrailers map encoding ≠ [] := by
  cases encoding with
  | binary => simp [encodeTrailers]
  | base64 => simp [encodeTrailers, beBytes, Base64Groups.encode]

theorem response_drains {s : β} {parts : List Bytes} {map : HeaderMap}
    (yields : Yields poll s parts map) (encoding : Encoding) :
    ∃ last, Drains (GrpcWebCall.pollFrame poll) (.response s encoding)
        (dataFrames (parts.map (encodePart encoding) ++ [encodeTrailers map encoding])) last ∧
      ∀ n, stateAt (GrpcWebCall.pollFrame poll) last n = last ∧
        answerAt (GrpcWebCall.pollFrame poll) last n = .ready none := by
  have sent (inner : β) : GrpcWebCall.pollFrame poll ⟨inner, encoding, .encode, [], none, true⟩ =
      (.ready none, ⟨inner, encoding, .encode, [], none, true⟩) := rfl
  induction yields with
  | @ended s t h =>
    have frame : GrpcWebCall.pollFrame poll (.response s encoding) =
        (.ready (some (.ok (.data (encodeTrailers [] encoding)))),
          ⟨t, encoding, .encode, [], none, true⟩) := by
      simp only [GrpcWebCall.pollFrame, GrpcWebCall.response, GrpcWebCall.pollEncode, h,
        Bool.false_eq_true, if_false, encode_trailers_nonempty, ne_eq, not_false_eq_true, if_true]
    exact ⟨_, .item frame (.stop (sent t)), end_stays _ (sent t)⟩
  | @trailers s t map h =>
    have waits : GrpcWebCall.pollFrame poll (.response s encoding) =
        (.pending, ⟨t, encoding, .encode, [], some map, false⟩) := by
      simp only [GrpcWebCall.pollFrame, GrpcWebCall.response, GrpcWebCall.pollEncode, h,
        Bool.false_eq_true, if_false]
    have frame : GrpcWebCall.pollFrame poll ⟨t, encoding, .encode, [], some map, false⟩ =
        (.ready (some (.ok (.data (encodeTrailers map encoding)))),
          ⟨t, encoding, .encode, [], none, true⟩) := rfl
    exact ⟨_, .wait waits (.item frame (.stop (sent t))), end_stays _ (sent t)⟩
  | @wait s t parts map h _ ih =>
    obtain ⟨last, later, stays⟩ := ih
    have waits : GrpcWebCall.pollFrame poll (.response s encoding) =
        (.pending, .response t encoding) := by
      simp only [GrpcWebCall.pollFrame, GrpcWebCall.response, GrpcWebCall.pollEncode, h,
        Bool.false_eq_true, if_false]
    exact ⟨last, .wait waits later, stays⟩
  | @data s t part parts map h _ ih =>
    obtain ⟨last, later, stays⟩ := ih
    have frame : GrpcWebCall.pollFrame poll (.response s encoding) =
        (.ready (some (.ok (.data (encodePart encoding part)))), .response t encoding) := by
      simp only [GrpcWebCall.pollFrame, GrpcWebCall.response, GrpcWebCall.pollEncode, h,
        Bool.false_eq_true, if_false]
      rfl
    exact ⟨last, .item frame later, stays⟩

/-- A gRPC-Web response is its data and one trailer frame, in binary or as base64 frame
    by frame, and the trailers can be read back from it. -/
theorem web_response_encoded {s : β} {parts : List Bytes} {map : HeaderMap}
    (yields : Yields poll s parts map) (names : ∀ entry ∈ map, (58 : UInt8) ∉ asBytes entry.1)
    (fits : (map.flatMap trailerLine).length < 2 ^ 32) :
    let frame := Framed.write ⟨0x80, map.flatMap trailerLine⟩
    (∃ last, Drains (GrpcWebCall.pollFrame poll) (.response s .binary)
        (dataFrames (parts ++ [frame])) last ∧
      ∀ n, answerAt (GrpcWebCall.pollFrame poll) last n = .ready none) ∧
    (∃ texts last, Drains (GrpcWebCall.pollFrame poll) (.response s .base64) (dataFrames texts) last ∧
      (∀ n, answerAt (GrpcWebCall.pollFrame poll) last n = .ready none) ∧
      texts = (parts ++ [frame]).map (Base64Groups.encode true) ∧
      texts.map (Base64Groups.decode .canonical) = (parts ++ [frame]).map some) ∧
    readTrailerFrame frame = some map := by
  intro frame
  refine ⟨?_, ?_, read_trailer_frame names fits⟩
  · obtain ⟨last, drains, stays⟩ := response_drains poll yields .binary
    have same : parts.map (encodePart .binary) = parts := List.map_id' parts
    rw [same] at drains
    exact ⟨last, drains, fun n => (stays n).2⟩
  · obtain ⟨last, drains, stays⟩ := response_drains poll yields .base64
    have whole : parts.map (encodePart .base64) ++ [encodeTrailers map .base64] =
        (parts ++ [frame]).map (Base64Groups.encode true) := by
      rw [List.map_append]
      rfl
    rw [whole] at drains
    refine ⟨_, last, drains, fun n => (stays n).2, rfl, ?_⟩
    rw [List.map_map]
    exact List.map_congr_left fun part _ => Base64Groups.decode_encode_padded part

end Encoding

/-- Two data frames with a Pending between, and a trailer that comes twice. -/
theorem repeated_trailer_encoded :
    let map : HeaderMap := [(grpcStatus, Code.ok.toHeaderValue), ("x-tag", grpcWebValue),
      ("x-tag", grpcValue)]
    let body : Body String := ⟨[.data [7, 7], .pending, .data []], .trailers map⟩
    let frame := Framed.write ⟨0x80, map.flatMap trailerLine⟩
    (∃ last, Drains (GrpcWebCall.pollFrame Body.pollFrame) (.response body .binary)
        (dataFrames ([[7, 7], []] ++ [frame])) last ∧
      ∀ n, answerAt (GrpcWebCall.pollFrame Body.pollFrame) last n = .ready none) ∧
    readTrailerFrame frame = some map := by
  intro map body frame
  have yields : Yields Body.pollFrame body [[7, 7], []] map :=
    .data rfl (.wait rfl (.data rfl (.trailers rfl)))
  obtain ⟨binary, _, read⟩ := web_response_encoded Body.pollFrame yields (by decide) (by decide)
  exact ⟨binary, read⟩

end WebResponses
