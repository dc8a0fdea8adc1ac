import PureGrpc.ComparedMachines
import PureGrpc.RemoteCalls
import PureGrpc.WebResponses
import PureGrpc.WebTextDecoding

/-!
A web call against the function it is a call of. The layer decodes the body of the request
for the server behind it, and puts the status of the answer behind its messages, in one body.
One who reads that body has the frames and the trailers a native caller would have.
-/
namespace WebCalls
open KeyedMultimap LengthFraming GrpcMetadata GrpcStatus GrpcCompression GrpcCodec PolledMachines
open ComparedMachines HttpBodies MessageEncoding EncodeOrder StreamingDecode StreamingScan
open FramingRoundTrip
open GrpcHandler StatusPropagation InterceptedMetadata WebBodies WebTextDecoding WebResponses
open RemoteCalls

variable {X X' σ σ' δ δ' T U ε : Type}

section Bodies

def decodedChunk (buf data : Bytes) : Chunk :=
  match decodeText (ε := Empty) buf data with
  | (.ready (some (.ok (.data bytes))), _) => .data bytes
  | _ => .pending

def decodedChunks : Bytes → List Chunk → List Chunk
  | _, [] => []
  | buf, .pending :: rest => .pending :: decodedChunks buf rest
  | buf, .data data :: rest => decodedChunk buf data :: decodedChunks (leftAfter buf data) rest

def polledChunk : Chunk → FramePoll ε
  | .pending => .pending
  | .data bytes => .ready (some (.ok (.data bytes)))

/-- The body that one who polls a wrapped request body sees. -/
def asBody (self : GrpcWebCall (Body ε)) : Body ε :=
  match self.encoding with
  | .binary => self.inner
  | .base64 => ⟨decodedChunks self.buf self.inner.chunks, self.inner.tail⟩

theorem decode_text_chunk (buf data : Bytes) :
    decodeText (ε := ε) buf data = (polledChunk (decodedChunk buf data), leftAfter buf data) := by
  unfold decodedChunk leftAfter whole decodeText
  cases Base64Groups.decode .canonical data with
  | some decoded => rfl
  | none =>
    dsimp only
    split
    · cases Base64Groups.decode .canonical ((buf ++ data).take (alignedLen (buf ++ data))) <;> rfl
    · rename_i short
      have none_whole : alignedLen (buf ++ data) = 0 := by omega
      rw [none_whole]
      rfl

theorem web_body_lockstep :
    Lockstep (GrpcWebCall.pollFrame (ε := ε) Body.pollFrame) Body.pollFrame
      fun call body => call.direction = .decode ∧ body = asBody call := by
  rintro ⟨⟨chunks, tail⟩, encoding, direction, buf, trailers, sent⟩ _ ⟨decoding, rfl⟩
  cases decoding
  cases encoding with
  | binary =>
    cases chunks with
    | nil => cases tail <;> exact ⟨rfl, fun _ => ⟨rfl, rfl⟩⟩
    | cons chunk rest => cases chunk <;> exact ⟨rfl, fun _ => ⟨rfl, rfl⟩⟩
  | base64 =>
    cases chunks with
    | nil => cases tail <;> exact ⟨rfl, fun _ => ⟨rfl, rfl⟩⟩
    | cons chunk rest =>
      cases chunk with
      | pending => exact ⟨rfl, fun _ => ⟨rfl, rfl⟩⟩
      | data data =>
        have decoded := decode_text_chunk (ε := ε) buf data
        simp only [GrpcWebCall.pollFrame, GrpcWebCall.pollDecode, Body.pollFrame, decoded, asBody,
          decodedChunks]
        cases decodedChunk buf data <;> exact ⟨rfl, fun _ => ⟨trivial, rfl⟩⟩

theorem web_body_alike (body : Body ε) (encoding : Encoding) :
    Alike (GrpcWebCall.pollFrame Body.pollFrame) Body.pollFrame (.request body encoding)
      (asBody (.request body encoding)) :=
  alike_lockstep web_body_lockstep ⟨rfl, rfl⟩

theorem carries_lockstep {α β : Type} {poll : α → FramePoll ε × α} {peer : β → FramePoll ε × β}
    {related : α → β → Prop} (steps : Lockstep poll peer related) {s : α} {t : β} {bytes : Bytes}
    {tail : Tail ε} (start : related s t) (carries : Carries poll s bytes tail) :
    Carries peer t bytes tail := by
  have answers {s s' : α} {t : β} {answer : FramePoll ε} (start : related s t)
      (h : poll s = (answer, s')) : peer t = (answer, (peer t).2) ∧
        (answer = .pending ∨ (∃ frame, answer = .ready (some (.ok frame))) → related s' (peer t).2) := by
    have step := steps s t start
    rw [h] at step
    exact ⟨Prod.ext step.1.symm rfl, step.2⟩
  induction carries generalizing t with
  | eof h => exact .eof (answers start h).1
  | trailers h => exact .trailers (answers start h).1
  | error h => exact .error (answers start h).1
  | wait h _ ih =>
    obtain ⟨same, next⟩ := answers start h
    exact .wait same (ih (next (.inl rfl)))
  | data h _ ih =>
    obtain ⟨same, next⟩ := answers start h
    exact .data same (ih (next (.inr ⟨_, rfl⟩)))

theorem body_carries (body : Body ε) : Carries Body.pollFrame body body.data body.tail := by
  obtain ⟨chunks, tail⟩ := body
  induction chunks with
  | nil =>
    cases tail with
    | eof => exact .eof rfl
    | trailers map => exact .trailers rfl
    | error e => exact .error rfl
  | cons chunk rest ih =>
    cases chunk with
    | pending => exact .wait rfl ih
    | data bytes => exact .data rfl ih

/-- A whole request body for these bytes: as they are, or as base64 of their parts in a cut in
    which every frame completes groups, and none comes whole while symbols wait. -/
structure Sent (encoding : Encoding) (body : Body ε) (bytes : Bytes) : Prop where
  complete : body.tail = .eof
  binary : encoding = .binary → body.data = bytes
  text : encoding = .base64 → ∃ parts : List Bytes, parts.flatten = bytes ∧
    body.data = parts.flatMap (Base64Groups.encode true) ∧
    ∀ arrival ∈ arrivals [] body.chunks, RunDecodes arrival ∧ ¬ Overtakes arrival

theorem sent_given {encoding : Encoding} {body : Body ε} {bytes : Bytes}
    (sent : Sent encoding body bytes) :
    (asBody (.request body encoding)).data = bytes ∧
      (asBody (.request body encoding)).tail = .eof := by
  cases encoding with
  | binary => exact ⟨sent.binary rfl, sent.complete⟩
  | base64 =>
    obtain ⟨parts, whole, cut, aligned⟩ := sent.text rfl
    obtain ⟨chunks, tail⟩ := body
    obtain rfl : tail = .eof := sent.complete
    have wrapped := (text_decoded parts chunks cut).1 aligned
    rw [whole] at wrapped
    exact carries_unique _ (body_carries _) (carries_lockstep web_body_lockstep ⟨rfl, rfl⟩ wrapped)

end Bodies

section Reading

/-- The frames before a trailer frame, which is the last, and what that one holds. -/
def readReply : List Framed → Option (List Framed × HeaderMap)
  | [] => none
  | frame :: rest =>
    if frame.flag = 0x80 then
      if rest = [] then (readLines frame.payload.length frame.payload).map fun map => ([], map)
      else none
    else (readReply rest).map fun reply => (frame :: reply.1, reply.2)

/-- What one who reads a web response makes of its bytes. -/
def readWeb (encoding : Encoding) (bytes : Bytes) : Option (List Framed × HeaderMap) :=
  let plain := match encoding with
    | .binary => some bytes
    | .base64 => Base64Groups.groups bytes
  plain.bind fun bytes =>
    if (splitFrames bytes).2 = [] then readReply (splitFrames bytes).1 else none

/-- Trailers that a trailer frame can hold: no name has a colon, and their length fits. -/
structure Plain (map : HeaderMap) : Prop where
  names : ∀ entry ∈ map, (58 : UInt8) ∉ asBytes entry.1
  fits : (map.flatMap trailerLine).length < 2 ^ 32

def trailerFrame (map : HeaderMap) : Framed := ⟨0x80, map.flatMap trailerLine⟩

theorem read_reply_frames {map : HeaderMap} (plain : Plain map) (frames : List Framed)
    (messages : ∀ f ∈ frames, f.flag ≠ 0x80) :
    readReply (frames ++ [trailerFrame map]) = some (frames, map) := by
  induction frames with
  | nil =>
    have lines := read_lines_write plain.names _ (lines_length map)
    simp only [List.nil_append, readReply, trailerFrame, if_true, lines, Option.map_some]
  | cons f frames ih =>
    obtain ⟨here, later⟩ := List.forall_mem_cons.mp messages
    simp [readReply, here, ih later]

theorem read_web_parts {map : HeaderMap} (plain : Plain map) {frames : List Framed}
    (messages : ∀ f ∈ frames, f.flag ≠ 0x80 ∧ f.payload.length < 2 ^ 32) (encoding : Encoding)
    {parts : List Bytes} (whole : parts.flatten = writeAll frames) :
    readWeb encoding (parts.map (encodePart encoding) ++ [encodeTrailers map encoding]).flatten =
      some (frames, map) := by
  have fit : ∀ f ∈ frames ++ [trailerFrame map], f.payload.length < 2 ^ 32 := by
    intro f mem
    rcases List.mem_append.mp mem with mem | last
    · exact (messages f mem).2
    · rw [List.mem_singleton.mp last]
      exact plain.fits
  have written : splitFrames (parts.flatten ++ (trailerFrame map).write) =
      (frames ++ [trailerFrame map], []) := by
    have run := split_writes _ fit []
    rw [List.append_nil, split_nil, List.append_nil] at run
    rw [whole, ← write_all_single, ← write_all_append]
    exact run
  have read := read_reply_frames plain frames fun f mem => (messages f mem).1
  cases encoding with
  | binary =>
    have same : (parts.map (encodePart .binary) ++ [encodeTrailers map .binary]).flatten =
        parts.flatten ++ (trailerFrame map).write := by
      rw [show parts.map (encodePart .binary) = parts from List.map_id' parts, List.flatten_append]
      exact congrArg _ (List.append_nil _)
    rw [same]
    simp only [readWeb, Option.bind_some, written, if_true, read]
  | base64 =>
    have same : (parts.map (encodePart .base64) ++ [encodeTrailers map .base64]).flatten =
        (parts ++ [(trailerFrame map).write]).flatMap (Base64Groups.encode true) := by
      rw [List.flatMap_def, List.map_append]
      rfl
    rw [same]
    simp only [readWeb, Base64Groups.groups_encodings, Option.bind_some, List.flatten_append,
      List.flatten_singleton, written, if_true, read]

theorem carries_yields {β : Type} {poll : β → FramePoll ε × β} {s : β} {bytes : Bytes}
    {map : HeaderMap} (carries : Carries poll s bytes (.trailers map)) :
    ∃ parts, parts.flatten = bytes ∧ Yields poll s parts map := by
  generalize ends : Tail.trailers map = tail at carries
  induction carries with
  | eof => cases ends
  | trailers h =>
    cases ends
    exact ⟨[], rfl, .trailers h⟩
  | error => cases ends
  | wait h _ ih =>
    obtain ⟨parts, whole, yields⟩ := ih ends
    exact ⟨parts, whole, .wait h yields⟩
  | @data _ _ bytes _ _ h _ ih =>
    obtain ⟨parts, whole, yields⟩ := ih ends
    exact ⟨bytes :: parts, by rw [List.flatten_cons, whole], .data h yields⟩

theorem frames_plain (enc : Encoder σ T) (z : Compressors) {encoding : Option CompressionEncoding}
    {sendLimit recvLimit : Option Nat} {encoder : σ} {msgs : List T}
    (fits : Fits enc z encoding sendLimit recvLimit encoder msgs) :
    ∀ f ∈ framesOf enc z encoding encoder msgs, f.flag ≠ 0x80 ∧ f.payload.length < 2 ^ 32 := by
  have other : compressionFlag encoding ≠ 0x80 := by
    unfold compressionFlag
    split <;> decide
  induction msgs generalizing encoder with
  | nil =>
    intro f none
    cases none
  | cons msg msgs ih =>
    obtain ⟨⟨payload, made, _, _, fit⟩, later⟩ := fits
    intro f mem
    rw [framesOf, made] at mem
    rcases List.mem_cons.mp mem with rfl | mem
    · exact ⟨other, fit⟩
    · exact ih later f mem

end Reading

section Headers

def nativeHeaders (headers : HeaderMap) : HeaderMap :=
  insertKey (removeKey (insertKey headers contentTypeHeader grpcValue) contentLengthHeader) te
    trailersValue

def webContentType : Encoding → HeaderValue
  | .base64 => grpcWebTextValue
  | .binary => grpcWebValue

def webHeaders (encoding : Encoding) (headers : HeaderMap) : HeaderMap :=
  removeKey (insertKey headers contentTypeHeader (webContentType encoding)) contentLengthHeader

/-- The values a user may set are the same, but for the length of the body. -/
def Kept (headers other : HeaderMap) : Prop :=
  ∀ key ∉ grpcReservedHeaders, key ≠ contentLengthHeader → getAll other key = getAll headers key

theorem native_kept {key : HeaderName} (headers : HeaderMap) (first : key ≠ contentTypeHeader)
    (second : key ≠ contentLengthHeader) (third : key ≠ te) :
    getAll (nativeHeaders headers) key = getAll headers key := by
  simp [nativeHeaders, get_all_remove, first.symm, second.symm, third.symm]

theorem web_kept {key : HeaderName} (encoding : Encoding) (headers : HeaderMap)
    (first : key ≠ contentTypeHeader) (second : key ≠ contentLengthHeader) :
    getAll (webHeaders encoding headers) key = getAll headers key := by
  simp [webHeaders, get_all_remove, first.symm, second.symm]

theorem status_kept {s : Status} {before after other : HeaderMap} (written : Written s before after)
    (noMessage : getAll before grpcMessage = []) (noDetails : getAll before grpcStatusDetails = [])
    (same : ∀ key, key = grpcStatus ∨ key = grpcMessage ∨ key = grpcStatusDetails →
      getAll other key = getAll after key) :
    ∃ read, Status.fromHeaderMap other = some read ∧ read.Agrees s := by
  have code := same grpcStatus (.inl rfl)
  have message := same grpcMessage (.inr (.inl rfl))
  have details := same grpcStatusDetails (.inr (.inr rfl))
  let base := removeKey (removeKey other grpcMessage) grpcStatusDetails
  have cleared : getAll base grpcMessage = [] ∧ getAll base grpcStatusDetails = [] := by
    simp [base, get_all_remove]
  have again : Written { s with metadata := MetadataMap.new } base other := by
    constructor
    · exact code.trans written.code
    · have held := written.message
      rw [noMessage] at held
      rw [message, cleared.1]
      exact held
    · have held := written.details
      rw [noDetails] at held
      rw [details, cleared.2]
      exact held
    · intro key _ second third
      have kept : getAll base key = getAll other key := by
        simp [base, get_all_remove, second.symm, third.symm]
      exact kept.symm
  obtain ⟨read, parsed, agrees⟩ := from_header_map_written again cleared.1 cleared.2
  exact ⟨read, parsed, agrees⟩

end Headers

section Calls
variable (clientEnc : Encoder σ T) (dec : Decoder δ T) (enc : Encoder σ' U) (z : Compressors)

def behind (server : GrpcHandler.Grpc σ' δ) (handler : Handler X δ T U)
    (req : HttpRequest X (GrpcWebCall (Body Status))) :
    Except Empty (HttpResponse (ResponseBody σ' U)) :=
  .ok (serve dec z server handler ⟨req.parts, asBody req.body⟩)

def formOf (req : HttpRequest X (Body Status)) : Encoding :=
  Encoding.fromContentType (requestContentType req.parts.headers)

def given (req : HttpRequest X (Body Status)) : HttpRequest X (Body Status) :=
  ⟨{ req.parts with headers := nativeHeaders req.parts.headers },
    asBody (.request req.body (formOf req))⟩

def webbed (encoding : Encoding) (response : HttpResponse (ResponseBody σ' U)) :
    HttpResponse (GrpcWebCall (ResponseBody σ' U)) :=
  ⟨response.status, webHeaders encoding response.headers, .response response.body encoding⟩

theorem web_call (server : GrpcHandler.Grpc σ' δ) (handler : Handler X δ T U)
    (req : HttpRequest X (Body Status))
    (web : isGrpcWeb (requestContentType req.parts.headers) = true) :
    GrpcWebService.call (behind dec z server handler) req =
      .ok (webbed (formOf req) (serve dec z server handler (given req))) := by
  simp only [GrpcWebService.call, web, if_true, behind, given, formOf, webbed, webHeaders,
    nativeHeaders]
  cases Encoding.fromContentType (requestContentType req.parts.headers) <;> rfl

/-- The body comes in parts that are read as these frames and trailers. -/
def Holds (encoding : Encoding) (body : GrpcWebCall (ResponseBody σ' U)) (frames : List Framed)
    (map : HeaderMap) : Prop :=
  ∃ parts last, Drains (GrpcWebCall.pollFrame (ResponseBody.pollFrame enc z)) body
    (dataFrames parts) last ∧ readWeb encoding parts.flatten = some (frames, map)

/-- A refusal has its status in the headers, and its body is one trailer frame without lines; an
    answer has its messages' frames in the body, and the status behind them. -/
def Told (encoding : Encoding) (frames : List Framed) :
    Reply U → HttpResponse (GrpcWebCall (ResponseBody σ' U)) → Prop
  | .refused s, response =>
    (∃ read, Status.fromHeaderMap response.headers = some read ∧ read.Agrees s) ∧
      Holds enc z encoding response.body [] []
  | .streamed metadata _ failure, response => Kept metadata.headers response.headers ∧
      ∃ map, Written (failure.getD (.ok "")) [] map ∧ Holds enc z encoding response.body frames map

theorem body_holds {body : ResponseBody σ' U} {parts : List Bytes} {map : HeaderMap}
    {frames : List Framed} (yields : Yields (ResponseBody.pollFrame enc z) body parts map)
    (plain : Plain map) (messages : ∀ f ∈ frames, f.flag ≠ 0x80 ∧ f.payload.length < 2 ^ 32)
    (whole : parts.flatten = writeAll frames) (encoding : Encoding) :
    Holds enc z encoding (.response body encoding) frames map := by
  obtain ⟨last, drains, _⟩ := response_drains _ yields encoding
  exact ⟨_, last, drains, read_web_parts plain messages encoding whole⟩

theorem answer_held (server : GrpcHandler.Grpc σ' δ) (answer : Answer U)
    (compression : Option CompressionEncoding) (encoding : Encoding) {recvLimit : Option Nat}
    (plain : ∀ map, ((reply answer).failure.getD (.ok "")).toHeaderMap = .ok map → Plain map)
    (fits : Fits enc z compression server.maxEncodingMessageSize recvLimit server.encoder
      (reply answer).messages) :
    Told enc z encoding (framesOf enc z compression server.encoder (reply answer).messages)
      (reply answer) (webbed encoding (server.mapResponse answer compression)) := by
  cases answer with
  | error s =>
    obtain ⟨headers, refused, written⟩ := into_http_written (σ := σ') (U := U) s
    rw [GrpcHandler.Grpc.mapResponse, refused]
    constructor
    · apply status_kept written (by decide) (by decide)
      intro key status
      have apart : key ≠ contentTypeHeader ∧ key ≠ contentLengthHeader := by
        rcases status with rfl | rfl | rfl <;> decide
      exact web_kept encoding headers apart.1 apart.2
    · have none_there : Yields (ResponseBody.pollFrame enc z) .empty [] [] := .ended rfl
      apply body_holds enc z none_there ⟨_, _⟩ _ rfl
      · intro entry none
        cases none
      · decide
      · intro f none
        cases none
  | ok response =>
    obtain ⟨headers, answered, _, _⟩ := map_response_headers server response compression
    have conveyed := mapped_headers server response compression
    obtain ⟨trailers, same, carries⟩ := source_trailers enc z compression
      server.maxEncodingMessageSize recvLimit server.encoder response.message fits
    obtain ⟨parts, whole, yields⟩ := carries_yields carries
    obtain ⟨after, run, written⟩ :=
      to_header_map_written ((firstError (results response.message)).getD (.ok ""))
    cases same.symm.trans run
    rw [answered] at conveyed ⊢
    refine ⟨?_, trailers, written, ?_⟩
    · intro key user other
      have apart : key ≠ contentTypeHeader := fun same => user (same ▸ by decide)
      exact (web_kept encoding headers apart other).trans (conveyed key user)
    · exact body_holds enc z yields (plain trailers same) (frames_plain enc z fits) whole encoding

variable (server : GrpcHandler.Grpc σ' δ) {req : HttpRequest X (Body Status)} {encoder : σ}
  {msgs : List T} {compression : Option CompressionEncoding} {sendLimit : Option Nat}
  (recvLimit : Option Nat)

/-- A web call is a native one: the server's function is asked with the caller's messages and
    metadata, and its answer is in the response, for a reader of the form that was asked in. -/
theorem web_call_refines {related : σ → δ → Prop} (inStep : InStep clientEnc dec related)
    (inverse : z.Inverse) (rel : related encoder server.decoder)
    (web : isGrpcWeb (requestContentType req.parts.headers) = true)
    (announced : getKey req.parts.headers encodingHeader = compression.map (·.intoHeaderValue))
    (enabled : ∀ e, compression = some e → server.acceptCompressionEncodings.isEnabled e = true)
    (fits : Fits clientEnc z compression sendLimit server.maxDecodingMessageSize encoder msgs)
    (sent : Sent (formOf req) req.body (writeAll (framesOf clientEnc z compression encoder msgs)))
    (handler : Handler X δ T U) :
    ∃ metadata answer response, Kept req.parts.headers metadata.headers ∧
      Asked dec z metadata req.parts.extensions msgs handler answer ∧
      GrpcWebService.call (behind dec z server handler) req = .ok response ∧
      getAll response.headers contentTypeHeader = [webContentType (formOf req)] ∧
      ((∀ map, ((reply answer).failure.getD (.ok "")).toHeaderMap = .ok map → Plain map) →
        Fits enc z (server.acceptEncoding (given req)) server.maxEncodingMessageSize recvLimit
          server.encoder (reply answer).messages →
        Told enc z (formOf req) (framesOf enc z (server.acceptEncoding (given req)) server.encoder
          (reply answer).messages) (reply answer) response) := by
  obtain ⟨data, complete⟩ := sent_given sent
  have named : CompressionEncoding.fromEncodingHeader (given req).parts.headers
      server.acceptCompressionEncodings = .ok compression := by
    apply encoding_header_accepted _ enabled
    have kept : getAll (nativeHeaders req.parts.headers) encodingHeader =
        getAll req.parts.headers encodingHeader :=
      native_kept req.parts.headers (by decide) (by decide) (by decide)
    rw [getKey] at announced ⊢
    exact (congrArg List.head? kept).trans announced
  obtain ⟨answer, asked, served⟩ := framed_asks clientEnc dec z inStep inverse rel named fits data
    complete handler
  refine ⟨_, answer, _, ?_, asked, web_call dec z server handler req web, ?_, ?_⟩
  · intro key user other
    have apart : key ≠ contentTypeHeader ∧ key ≠ te :=
      ⟨fun same => user (same ▸ by decide), fun same => user (same ▸ by decide)⟩
    exact native_kept req.parts.headers apart.1 other apart.2
  · have other : contentLengthHeader ≠ contentTypeHeader := by decide
    simp [webbed, webHeaders, get_all_remove, other]
  · intro plain responseFits
    rw [served]
    exact answer_held enc z server answer _ (formOf req) plain responseFits

end Calls

section Native
variable (clientEnc : Encoder σ T) (clientDec : Decoder δ U) (serverEnc : Encoder σ' U)
  (serverDec : Decoder δ' T) (z : Compressors)

def badFlag : Status := .internal "invalid compression flag: 128 (valid: 0 or 1)"

theorem trailer_flag_refused (encoding : Option CompressionEncoding) :
    compressionOf encoding 0x80 = .error badFlag := by
  simp [compressionOf, badFlag]
  decide

/-- A trailer frame behind messages' frames is no frame to a native reader. -/
theorem scanned_trailer {related : σ → δ' → Prop} (inStep : InStep clientEnc serverDec related)
    (inverse : z.Inverse) {encoding : Option CompressionEncoding} {sendLimit recvLimit : Option Nat}
    (map : HeaderMap) (msgs : List T) (encoder : σ) (decoder : δ') (rel : related encoder decoder)
    (fits : Fits clientEnc z encoding sendLimit recvLimit encoder msgs) :
    Scanned serverDec z encoding recvLimit decoder
      (writeAll (framesOf clientEnc z encoding encoder msgs) ++ encodeTrailers map .binary) msgs
      (.bad badFlag) := by
  induction msgs generalizing encoder decoder with
  | nil =>
    apply Scanned.bad
    have flag := trailer_flag_refused encoding
    simp only [framesOf, write_all_nil, List.nil_append, encodeTrailers, beBytes, scanFrame,
      List.cons_append, readHeader, flag]
  | cons msg msgs ih =>
    obtain ⟨⟨payload, some_payload, _, recv, field⟩, later⟩ := fits
    obtain ⟨next, rel', front⟩ := scan_written_frame clientEnc serverDec z encoding recvLimit inStep
      inverse rel some_payload recv field
      (writeAll (framesOf clientEnc z encoding (clientEnc.encode encoder msg).next msgs) ++
        encodeTrailers map .binary)
    rw [← List.append_assoc] at front
    simp only [framesOf, some_payload, Option.getD_some]
    exact .message front (ih _ _ rel' later)

theorem drains_carries {β : Type} {poll : β → FramePoll ε × β} {s last : β} {parts : List Bytes}
    (drains : Drains poll s (dataFrames parts) last) : Carries poll s parts.flatten .eof := by
  generalize same : dataFrames (ε := ε) parts = items at drains
  induction drains generalizing parts with
  | stop h =>
    obtain rfl : parts = [] := List.map_eq_nil_iff.mp same
    exact .eof h
  | wait h _ ih => exact .wait h (ih same)
  | item h _ ih =>
    cases parts with
    | nil => cases same
    | cons part parts =>
      cases same
      exact .data h (ih rfl)

theorem layered_carries {body : ResponseBody σ' U} {bytes : Bytes} {map : HeaderMap}
    (carries : Carries (ResponseBody.pollFrame serverEnc z) body bytes (.trailers map)) :
    Carries (GrpcWebCall.pollFrame (ResponseBody.pollFrame serverEnc z)) (.response body .binary)
      (bytes ++ encodeTrailers map .binary) .eof := by
  obtain ⟨parts, whole, yields⟩ := carries_yields carries
  obtain ⟨last, drains, _⟩ := response_drains _ yields .binary
  have layered := drains_carries drains
  rw [show parts.map (encodePart .binary) = parts from List.map_id' parts, List.flatten_append,
    List.flatten_singleton, whole] at layered
  exact layered

theorem prepared_native {client : GrpcClient.Grpc σ δ} {request : Request X (List (Option T))}
    {path : String} {sent : HttpRequest X (EncodeBody σ T)} {headers : HeaderMap}
    (prepared : client.prepareRequest (client.encodeRequest request) path = .ok sent)
    (same : getAll headers contentTypeHeader = getAll sent.parts.headers contentTypeHeader) :
    isGrpcWeb (requestContentType headers) = false := by
  have typed : getAll sent.parts.headers contentTypeHeader = [grpcContentType] := by
    have names : encodingHeader ≠ contentTypeHeader ∧ acceptEncodingHeader ≠ contentTypeHeader ∧
        contentType = contentTypeHeader := by decide
    unfold GrpcClient.Grpc.prepareRequest at prepared
    split at prepared
    · cases prepared
    · cases prepared
      cases client.sendCompressionEncoding <;>
        cases client.acceptCompressionEncodings.intoAcceptEncodingHeaderValue <;> simp [names]
  have native : requestContentType headers = "application/grpc" := by
    rw [requestContentType, getKey, same, typed]
    decide
  rw [native]
  decide

def layered (response : HttpResponse (ResponseBody σ' U)) :
    HttpResponse (GrpcWebCall (ResponseBody σ' U)) :=
  ⟨response.status, response.headers, .response response.body .binary⟩

/-- The caller receives the status and headers of the layer's response, and its body in any cut. -/
structure LayerArrives (response : HttpResponse (GrpcWebCall (ResponseBody σ' U)))
    (received : HttpResponse (Body Status)) : Prop where
  status : received.status = response.status
  headers : received.headers = response.headers
  body : Carries (GrpcWebCall.pollFrame (ResponseBody.pollFrame serverEnc z)) response.body
    received.body.data received.body.tail

/-- What a native caller is told of a reply: a refusal as it is, and of an answer the messages and
    the flag of the trailer frame, however it ended. -/
def broken : Reply U → Reply U
  | .refused s => .refused s
  | .streamed metadata msgs _ => .streamed metadata msgs (some badFlag)

variable {client : GrpcClient.Grpc σ δ} {server : GrpcHandler.Grpc σ' δ'}
  {request : Request X (List (Option T))} {path : String}
  {sent : HttpRequest X (EncodeBody σ T)} {received : HttpResponse (Body Status)}
  {transport : GrpcClient.Transport X σ T}

theorem layer_told {responses : σ' → δ → Prop} (inStep : InStep serverEnc clientDec responses)
    (inverse : z.Inverse) (rel : responses server.encoder client.decoder) {answer : Answer U}
    {encoding : Option CompressionEncoding}
    (prepared : client.prepareRequest (client.encodeRequest request) path = .ok sent)
    (answers : transport sent = .ok received)
    (enabled : ∀ e, encoding = some e → client.acceptCompressionEncodings.isEnabled e = true)
    (returned : LayerArrives serverEnc z (layered (server.mapResponse answer encoding)) received)
    (proper : ∀ s, answer = .error s → s.code ≠ .ok)
    (fits : Fits serverEnc z encoding server.maxEncodingMessageSize client.maxDecodingMessageSize
      server.encoder (reply answer).messages) :
    Streamed clientDec z (broken (reply answer)) (client.streaming transport request path) ∧
      Single (broken (reply answer)) (client.clientStreaming clientDec z transport request path) := by
  cases answer with
  | error s =>
    obtain ⟨headers, rejected, written⟩ := into_http_written (σ := σ') (U := U) s
    have same : received.headers = headers := by
      have kept := returned.headers
      rw [GrpcHandler.Grpc.mapResponse, rejected] at kept
      exact kept
    rw [← same] at written
    exact refusal_told clientDec z (proper s rfl) prepared answers written
  | ok response =>
    obtain ⟨headers, answered, _, _⟩ := map_response_headers server response encoding
    obtain ⟨trailers, _, carries⟩ := source_carries serverEnc z encoding
      server.maxEncodingMessageSize client.maxDecodingMessageSize server.encoder response.message fits
    have body := returned.body
    rw [layered, answered] at body
    have data : received.body.data = writeAll (framesOf serverEnc z encoding server.encoder
        (reply (.ok response)).messages) ++ encodeTrailers trailers .binary :=
      (carries_unique _ body (layered_carries serverEnc z carries)).1
    have scanned := scanned_trailer serverEnc clientDec z inStep inverse trailers
      (reply (.ok response)).messages server.encoder client.decoder rel fits
    rw [← data] at scanned
    obtain ⟨t, reads, _⟩ := new_reads clientDec z encoding client.maxDecodingMessageSize
      client.decoder received.body (.response received.status) scanned
    have same : received.headers = (server.mapResponse (.ok response) encoding).headers :=
      returned.headers
    have ends : SameEnd (some badFlag) (some badFlag) := ⟨rfl, rfl, rfl⟩
    obtain ⟨streamed, told⟩ := reads_told clientDec z prepared answers enabled same reads ends
    refine ⟨streamed, told, ?_⟩
    intro metadata msgs failure got given single
    cases given
    rw [single] at told
    exact told.elim

theorem native_call (server : GrpcHandler.Grpc σ' δ') (handler : Handler X' δ' T U)
    (req : HttpRequest X' (Body Status))
    (native : isGrpcWeb (requestContentType req.parts.headers) = false) :
    GrpcWebService.call (behind serverDec z server handler) req =
      .ok (layered (serve serverDec z server handler req)) := by
  simp only [GrpcWebService.call, native, Bool.false_eq_true, if_false]
  rfl

/-- Behind the layer a native call does its work, and the caller is told an error, never the
    answer: the function is asked as before, but no call whose response has a body succeeds. -/
theorem native_call_breaks {requests : σ → δ' → Prop} {responses : σ' → δ → Prop}
    (requestsInStep : InStep clientEnc serverDec requests)
    (responsesInStep : InStep serverEnc clientDec responses) (inverse : z.Inverse)
    (asking : requests client.encoder server.decoder)
    (answering : responses server.encoder client.decoder) {req : HttpRequest X' (Body Status)}
    (prepared : client.prepareRequest (client.encodeRequest request) path = .ok sent)
    (delivered : Delivered clientEnc z sent req)
    (enabled : ∀ e, client.sendCompressionEncoding = some e →
      server.acceptCompressionEncodings.isEnabled e = true)
    (fits : Fits clientEnc z client.sendCompressionEncoding client.maxEncodingMessageSize
      server.maxDecodingMessageSize client.encoder request.message.reduceOption)
    (handler : Handler X' δ' T U) {response : HttpResponse (GrpcWebCall (ResponseBody σ' U))}
    (called : GrpcWebService.call (behind serverDec z server handler) req = .ok response)
    (returned : LayerArrives serverEnc z response received) (answers : transport sent = .ok received) :
    ∃ answer, Asked serverDec z ⟨req.parts.headers⟩ req.parts.extensions
        request.message.reduceOption handler answer ∧
      ((∀ s, answer = .error s → s.code ≠ .ok) →
        Fits serverEnc z (server.acceptEncoding req) server.maxEncodingMessageSize
          client.maxDecodingMessageSize server.encoder (reply answer).messages →
        (∃ s, (broken (reply answer)).failure = some s) ∧
        (Streamed clientDec z (broken (reply answer)) (client.streaming transport request path) ∧
          Single (broken (reply answer))
            (client.clientStreaming clientDec z transport request path)) ∧
        ∀ single, request = single.map (fun message => [some message]) →
          Streamed clientDec z (broken (reply answer))
              (client.serverStreaming transport single path) ∧
            Single (broken (reply answer)) (client.unary clientDec z transport single path)) := by
  obtain ⟨answer, asked, served⟩ := delivered_asks clientEnc serverDec z requestsInStep inverse
    asking prepared delivered enabled fits handler
  have native := prepared_native prepared (delivered.headers contentTypeHeader (by decide))
  have passed := native_call serverDec z server handler req native
  rw [served] at passed
  cases called.symm.trans passed
  have offered : getKey req.parts.headers acceptEncodingHeader =
      client.acceptCompressionEncodings.intoAcceptEncodingHeaderValue := by
    rw [getKey, delivered.headers acceptEncodingHeader (by decide)]
    exact GrpcClient.prepared_accept_encoding prepared
  refine ⟨answer, asked, ?_⟩
  intro proper responseFits
  have told := layer_told clientDec serverEnc z responsesInStep inverse answering prepared answers
    (fun e picked => picked_encoding_enabled offered picked) returned proper responseFits
  refine ⟨?_, told, ?_⟩
  · cases answer with
    | error s => exact ⟨s, rfl⟩
    | ok response => exact ⟨badFlag, rfl⟩
  · rintro single rfl
    exact told

end Native

section Echo

/-- The frame of one message as base64, cut within a group. -/
def echoText : HttpRequest Bool (Body Status) :=
  ⟨⟨"/echo", [(contentTypeHeader, grpcWebTextValue)], true⟩,
    ⟨[.data (asBytes "AAA"), .pending, .data (asBytes "AAAEH")], .eof⟩⟩

theorem echo_text_sent : Sent (formOf echoText) echoText.body
    (writeAll (framesOf echoEncoder plainCompressors none () [[7]])) := by
  have text : formOf echoText = .base64 := by decide
  rw [text]
  refine ⟨rfl, (by intro wrong; cases wrong), ?_⟩
  intro _
  exact ⟨[[0, 0, 0, 0, 1, 7]], rfl, by decide, by decide⟩

/-- The echo called from the web, in text, answers in text with its frame and an Ok status. -/
theorem echo_web_call_refines :
    ∃ response, GrpcWebService.call (behind echoDecoder plainCompressors echoServer echo) echoText =
        .ok response ∧
      getAll response.headers contentTypeHeader = [grpcWebTextValue] ∧
      ∃ map, Written (.ok "") [] map ∧
        Holds echoEncoder plainCompressors .base64 response.body [⟨0, [7]⟩] map := by
  have text : formOf echoText = .base64 := by decide
  have picked : echoServer.acceptEncoding (given echoText) = none := by decide
  obtain ⟨metadata, answer, response, _, asked, called, named, told⟩ := web_call_refines echoEncoder
    echoDecoder echoEncoder plainCompressors echoServer none echo_in_step plain_inverse trivial
    (by decide) (by decide) (by intro _ wrong; cases wrong) echo_fits echo_text_sent echo
  cases asked
  have plain : ∀ map, (Status.ok "").toHeaderMap = .ok map → Plain map := by
    rintro map ⟨rfl⟩
    exact ⟨by decide, by decide⟩
  rw [picked, text] at told
  obtain ⟨_, map, written, held⟩ := told plain echo_fits
  rw [text] at named
  exact ⟨response, called, named, map, written, held⟩

/-- The echo called natively, behind the layer: its answer is not told. -/
theorem echo_native_call_breaks :
    ∃ received e, (∃ req response, GrpcWebService.call (behind echoDecoder plainCompressors
          echoServer echo) req = .ok response ∧
        LayerArrives echoEncoder plainCompressors response received) ∧
      echoCaller.unary echoDecoder plainCompressors (fun _ => .ok received) echoRequest "/echo" =
        .error e ∧ e.Agrees badFlag := by
  obtain ⟨sent, prepared⟩ : ∃ sent, echoCaller.prepareRequest
      (echoCaller.encodeRequest (echoRequest.map fun message => [some message])) "/echo" =
        .ok sent := ⟨_, rfl⟩
  let req : HttpRequest Bool (Body Status) :=
    ⟨⟨sent.parts.path, sent.parts.headers, true⟩, ⟨[.data [0, 0, 0, 0, 1, 7]], .eof⟩⟩
  have delivered : Delivered echoEncoder plainCompressors sent req := by
    cases prepared
    exact ⟨rfl, fun _ _ => rfl, .data rfl (.eof rfl)⟩
  have plain : ∀ e, echoCaller.sendCompressionEncoding = some e →
      echoServer.acceptCompressionEncodings.isEnabled e = true := by
    intro _ wrong
    cases wrong
  have picked : echoServer.acceptEncoding req = none := by
    cases prepared
    decide
  obtain ⟨answer, asked, served⟩ := delivered_asks echoEncoder echoDecoder plainCompressors
    echo_in_step plain_inverse trivial prepared delivered plain echo_fits echo
  cases asked
  obtain ⟨headers, answered, _⟩ := map_response_headers (U := Bytes) echoServer
    ⟨⟨[(user, alice)]⟩, once [7]⟩ none
  obtain ⟨trailers, _, carries⟩ := source_carries echoEncoder plainCompressors none none none ()
    (once [7]) echo_fits
  let received : HttpResponse (Body Status) := ⟨200, headers, ⟨[.data (writeAll (framesOf echoEncoder
    plainCompressors none () [[7]]) ++ encodeTrailers trailers .binary)], .eof⟩⟩
  let response : HttpResponse (GrpcWebCall (ResponseBody Unit Bytes)) := ⟨200, headers, .response
    (.encoded (.newServer () (once [7]) none none)) .binary⟩
  have called : GrpcWebService.call (behind echoDecoder plainCompressors echoServer echo) req =
      .ok response := by
    rw [native_call echoDecoder plainCompressors echoServer echo req (prepared_native prepared rfl),
      served, picked]
    exact congrArg (fun r => Except.ok (layered r)) answered
  have returned : LayerArrives echoEncoder plainCompressors response received := by
    have data : received.body.data = writeAll (framesOf echoEncoder plainCompressors none () [[7]]) ++
        encodeTrailers trailers .binary := List.append_nil _
    exact ⟨rfl, rfl, data ▸ layered_carries echoEncoder plainCompressors carries⟩
  let transport : GrpcClient.Transport Unit Unit Bytes := fun _ => .ok received
  have answers : transport sent = .ok received := rfl
  obtain ⟨answer, asked, told⟩ := native_call_breaks echoEncoder echoDecoder echoEncoder echoDecoder
    plainCompressors echo_in_step echo_in_step plain_inverse trivial trivial prepared delivered
    plain echo_fits echo called returned answers
  cases asked
  have proper : ∀ s, (Except.ok ⟨⟨[(user, alice)]⟩, once [7]⟩ : Answer Bytes) = .error s →
      s.code ≠ .ok := by
    intro _ wrong
    cases wrong
  obtain ⟨_, _, single⟩ := told proper (picked ▸ echo_fits)
  have message := (single echoRequest rfl).2.message
  cases got : echoCaller.unary echoDecoder plainCompressors (fun _ => .ok received) echoRequest
      "/echo" with
  | error e =>
    rw [got] at message
    exact ⟨received, e, ⟨req, response, called, returned⟩, got, message⟩
  | ok response =>
    rw [got] at message
    exact message.elim

end Echo

end WebCalls
