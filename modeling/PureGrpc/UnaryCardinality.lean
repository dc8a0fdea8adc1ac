import PureGrpc.TruncationDetection
import PureGrpc.InterceptedMetadata
import PureGrpc.GrpcClient
import PureGrpc.EncodeOrder

/-!
Calls for a single message. The first message of a stream is taken, and the ones behind
it are decoded and dropped on the way to the trailers; only a failure among them, or no
message at all, fails the call.
-/
namespace UnaryCardinality
open KeyedMultimap LengthFraming GrpcMetadata GrpcStatus GrpcCompression GrpcCodec PolledMachines
open HttpBodies MessageEncoding EncodeOrder StreamingDecode StreamingScan TruncationDetection
open AwaitedMessages GrpcHandler InterceptedMetadata

variable {X σ δ T U : Type}

/-- What a call for one message makes of these messages and this end of the stream. -/
def single (missing : Status) : List T → Option Status → Except Status T
  | _, some e => .error e
  | [], none => .error missing
  | first :: _, none => .ok first

def Same : Except Status T → Except Status T → Prop
  | .ok one, .ok other => one = other
  | .error one, .error other => one.Agrees other
  | _, _ => False

section Frames
variable (dec : Decoder δ T) (z : Compressors) (encoding : Option CompressionEncoding)
  (limit : Option Nat)

/-- What a body of these frames gives to the one who reads it. -/
structure Framewise (decoder : δ) (frames : List Framed) (chunks : List Chunk) (msgs : List T)
    (fate : Fate) : Prop where
  received : Received dec z encoding limit decoder [] chunks msgs fate
  start : frames = [] → msgs = [] ∧ fate = .finished []
  each : dec.Whole → msgs.length = frames.length ∧ fate = .finished [] ∨
    ∃ status, fate = .bad status ∧ msgs.length < frames.length

variable {dec}

theorem scan_written (whole : dec.Whole) (d : δ) {f : Framed} (fits : f.payload.length < 2 ^ 32)
    (more : Bytes) :
    (∃ status, scanFrame dec z encoding limit d (f.write ++ more) = .bad status) ∨
      ∃ msg next, scanFrame dec z encoding limit d (f.write ++ more) = .message msg next more := by
  have frame := scan_frame_whole z encoding limit whole d (f.write ++ more)
  have read := read_frame_write f fits more
  cases scan : scanFrame dec z encoding limit d (f.write ++ more) with
  | short =>
    rw [scan] at frame
    cases read.symm.trans frame
  | bad status => exact .inl ⟨status, rfl⟩
  | stall next rest =>
    rw [scan] at frame
    exact frame.elim
  | message msg next rest =>
    rw [scan] at frame
    obtain ⟨g, same⟩ := frame
    cases read.symm.trans same
    exact .inr ⟨msg, next, rfl⟩

theorem scanned_writes (whole : dec.Whole) (frames : List Framed)
    (fit : ∀ f ∈ frames, f.payload.length < 2 ^ 32) (d : δ) :
    ∃ msgs o, Scanned dec z encoding limit d (writeAll frames) msgs o ∧
      (msgs.length = frames.length ∧ o = .short [] ∨
        ∃ status, o = .bad status ∧ msgs.length < frames.length) := by
  induction frames generalizing d with
  | nil => exact ⟨[], _, .short rfl, .inl ⟨rfl, rfl⟩⟩
  | cons f frames ih =>
    have split : writeAll (f :: frames) = f.write ++ writeAll frames := List.flatMap_cons
    rw [split]
    rcases scan_written z encoding limit whole d (fit f List.mem_cons_self) (writeAll frames) with
      ⟨status, scan⟩ | ⟨msg, next, scan⟩
    · exact ⟨[], _, .bad scan, .inr ⟨status, rfl, Nat.succ_pos _⟩⟩
    · obtain ⟨msgs, o, later, count⟩ := ih (fun g mem => fit g (List.mem_cons_of_mem f mem)) next
      refine ⟨msg :: msgs, o, .message scan later, ?_⟩
      simpa only [List.length_cons, Nat.add_right_cancel_iff, Nat.add_lt_add_iff_right] using count

variable (dec)

theorem framewise_total (decoder : δ) {frames : List Framed} {body : Body Status}
    (data : body.data = writeAll frames) (fit : ∀ f ∈ frames, f.payload.length < 2 ^ 32) :
    ∃ msgs fate, Framewise dec z encoding limit decoder frames body.chunks msgs fate := by
  obtain ⟨msgs, fate, received⟩ := received_total dec z encoding limit decoder [] body.chunks
  have same {ms o} (scanned : Scanned dec z encoding limit decoder (writeAll frames) ms o) :
      msgs = ms ∧ fate = o.fate := by
    have all : Scanned dec z encoding limit decoder
        ([] ++ (Body.mk body.chunks body.tail).data) ms o := by
      rw [← data] at scanned
      exact scanned
    exact received_unique dec z encoding limit received
      (received_scanned dec z encoding limit all)
  refine ⟨msgs, fate, received, ?_, ?_⟩
  · rintro rfl
    exact same (.short rfl)
  · intro whole
    obtain ⟨ms, o, scanned, count⟩ := scanned_writes z encoding limit whole frames fit decoder
    obtain ⟨rfl, rfl⟩ := same scanned
    rcases count with ⟨length, rfl⟩ | ⟨status, rfl, fewer⟩
    · exact .inl ⟨length, rfl⟩
    · exact .inr ⟨status, rfl, fewer⟩

end Frames

section Single
variable (dec : Decoder δ T) (z : Compressors)

inductive Takes : Streaming δ → List T → Option Status → Prop where
  | missing {s t} (first : Streaming.message dec z s = (.ok none, t)) : Takes s [] none
  | fails {s t e} (first : Streaming.message dec z s = (.error e, t)) : Takes s [] (some e)
  | drains {s t u msg rest found} (first : Streaming.message dec z s = (.ok (some msg), u))
      (fetched : Streaming.trailers dec z u = (.ok found, t)) : Takes s (msg :: rest) none
  | breaks {s t u msg rest e} (first : Streaming.message dec z s = (.ok (some msg), u))
      (fetched : Streaming.trailers dec z u = (.error e, t)) : Takes s (msg :: rest) (some e)

theorem reads_takes {s t : Streaming δ} {msgs : List T} {o : Option Status}
    {tail : Tail Status} (underway : Underway tail s.inner)
    (run : Reads (Streaming.pollNext dec z) s msgs o t) : Takes dec z s msgs o := by
  have awaited := message_reads dec z run
  cases msgs with
  | nil =>
    cases o with
    | none => exact .missing awaited
    | some e => exact .fails awaited
  | cons msg rest =>
    obtain ⟨u, first, later⟩ := awaited
    have open_yet := ((message_underway dec z s underway).1 msg u first).trailers
    have drained := drain_reads dec z later
    cases o with
    | none =>
      exact .drains first (by
        simp only [Streaming.trailers, open_yet, drained, Option.elim_none]
        rfl)
    | some e =>
      exact .breaks first (t := t) (by
        simp only [Streaming.trailers, open_yet, drained, Option.elim_some])

end Single

section Server
variable (dec : Decoder δ T) (z : Compressors) (server : GrpcHandler.Grpc σ δ)
  {req : HttpRequest X (Body Status)}

/-- The handler is run with this request, whichever of the two kinds it is. -/
def Calls (U : Type) (req : HttpRequest X (Body Status)) (r : Request X T) : Prop :=
  (∀ service : Request X T → Except Status (Response U), server.unary dec z service req =
    server.mapResponse ((service r).map (·.map once)) (server.acceptEncoding req)) ∧
  ∀ service : Request X T → Except Status (Response (List (SourceEvent U))),
    server.serverStreaming dec z service req =
      server.mapResponse (service r) (server.acceptEncoding req)

/-- The call is answered with this status and no handler is run. -/
def Refuses (U : Type) (req : HttpRequest X (Body Status)) (e : Status) : Prop :=
  (∀ service : Request X T → Except Status (Response U),
    server.unary dec z service req = Status.intoHttp e) ∧
  ∀ service : Request X T → Except Status (Response (List (SourceEvent U))),
    server.serverStreaming dec z service req = Status.intoHttp e

def Handles (U : Type) (req : HttpRequest X (Body Status)) (outcome : Except Status T) : Prop :=
  (∃ r, outcome = .ok r.message ∧ r.extensions = req.parts.extensions ∧
    Calls dec z server U req r) ∨
  ∃ e, outcome = .error e ∧ Refuses dec z server U req e

def missingRequest : Status := .internal "Missing request message."

theorem mapped_handles {r : Request X T} (mapped : server.mapRequestUnary dec z req = .ok r) :
    Calls dec z server U req r := by
  constructor
  · intro service
    simp only [GrpcHandler.Grpc.unary, mapped]
  · intro service
    simp only [GrpcHandler.Grpc.serverStreaming, mapped]

theorem rejected_refuses {e : Status} (mapped : server.mapRequestUnary dec z req = .error e) :
    Refuses dec z server U req e := by
  constructor
  · intro service
    simp only [GrpcHandler.Grpc.unary, mapped]
  · intro service
    simp only [GrpcHandler.Grpc.serverStreaming, mapped]

theorem takes_handles {encoding : Option CompressionEncoding} {msgs : List T} {o : Option Status}
    (accepted : CompressionEncoding.fromEncodingHeader req.parts.headers
      server.acceptCompressionEncodings = .ok encoding)
    (takes : Takes dec z (.newRequest server.decoder req.body encoding
      server.maxDecodingMessageSize) msgs o) :
    Handles dec z server U req (single missingRequest msgs o) := by
  generalize start : Streaming.newRequest server.decoder req.body encoding
    server.maxDecodingMessageSize = s at takes
  cases takes with
  | missing first =>
    refine .inr ⟨_, rfl, rejected_refuses dec z server ?_⟩
    simp only [Grpc.mapRequestUnary, accepted, start, first]
    rfl
  | fails first =>
    refine .inr ⟨_, rfl, rejected_refuses dec z server ?_⟩
    simp only [Grpc.mapRequestUnary, accepted, start, first]
  | @drains _ _ msg rest found first fetched =>
    cases found with
    | none =>
      refine .inl ⟨.fromHttpParts req.parts msg, rfl, rfl, mapped_handles dec z server ?_⟩
      simp only [Grpc.mapRequestUnary, accepted, start, first, fetched]
    | some trailers =>
      refine .inl ⟨{ Request.fromHttpParts req.parts msg with
        metadata := MetadataMap.merge ⟨req.parts.headers⟩ trailers }, rfl, rfl,
        mapped_handles dec z server ?_⟩
      simp only [Grpc.mapRequestUnary, accepted, start, first, fetched]
      rfl
  | breaks first fetched =>
    refine .inr ⟨_, rfl, rejected_refuses dec z server ?_⟩
    simp only [Grpc.mapRequestUnary, accepted, start, first, fetched]

end Server

section Client
variable (dec : Decoder δ U) (z : Compressors) (client : GrpcClient.Grpc σ δ)
  {transport : GrpcClient.Transport X σ T} {request : Request X (List (Option T))} {path : String}

def missingResponse : Status := .internal "Missing response message."

theorem agrees_self (s : Status) : s.Agrees s := ⟨rfl, rfl, rfl⟩

theorem takes_answers {metadata : MetadataMap} {s : Streaming δ} {msgs : List U}
    {o : Option Status} (streamed : client.streaming transport request path = .ok ⟨metadata, s⟩)
    (takes : Takes dec z s msgs o) :
    Same ((client.clientStreaming dec z transport request path).map (·.message))
      (single missingResponse msgs o) := by
  cases takes with
  | missing first =>
    simp only [GrpcClient.Grpc.clientStreaming, streamed, first]
    exact agrees_self _
  | fails first =>
    simp only [GrpcClient.Grpc.clientStreaming, streamed, first]
    exact agrees_self _
  | @drains _ _ _ _ found first fetched =>
    simp only [GrpcClient.Grpc.clientStreaming, streamed, first, fetched]
    cases found <;> rfl
  | breaks first fetched =>
    simp only [GrpcClient.Grpc.clientStreaming, streamed, first, fetched]
    exact agrees_self _

theorem created_stream {response : HttpResponse (Body Status)} {metadata : MetadataMap}
    {s : Streaming δ} (created : client.createResponse response = .ok ⟨metadata, s⟩) :
    ∃ direction encoding limit,
      s = .new client.decoder response.body direction encoding limit := by
  unfold GrpcClient.Grpc.createResponse at created
  split at created
  · cases created
  · split at created
    · split at created
      · cases created
      · cases created
        exact ⟨_, _, _, rfl⟩
    · cases created
      exact ⟨_, _, _, rfl⟩

end Client

section Frames

/-- The server's half: a body of frames runs the handler with the first message, or it is
refused. -/
theorem server_takes_first (dec : Decoder δ T) (z : Compressors) (server : GrpcHandler.Grpc σ δ)
    {req : HttpRequest X (Body Status)} {encoding : Option CompressionEncoding}
    {frames : List Framed} (accepted : CompressionEncoding.fromEncodingHeader req.parts.headers
      server.acceptCompressionEncodings = .ok encoding)
    (data : req.body.data = writeAll frames) (fit : ∀ f ∈ frames, f.payload.length < 2 ^ 32) :
    ∃ msgs fate, Framewise dec z encoding server.maxDecodingMessageSize server.decoder frames
        req.body.chunks msgs fate ∧
      Handles dec z server U req
        (single missingRequest msgs (fate.verdict .request req.body.tail)) := by
  obtain ⟨msgs, fate, framewise⟩ := framewise_total dec z encoding server.maxDecodingMessageSize
    server.decoder data fit
  obtain ⟨t, reads, _⟩ := new_received dec z encoding server.maxDecodingMessageSize server.decoder
    req.body .request framewise.received
  have underway := request_underway server req.body encoding server.maxDecodingMessageSize
  exact ⟨msgs, fate, framewise,
    takes_handles dec z server accepted (reads_takes dec z underway reads)⟩

theorem client_takes_first (dec : Decoder δ U) (z : Compressors) (client : GrpcClient.Grpc σ δ)
    {transport : GrpcClient.Transport X σ T} {request : Request X (List (Option T))}
    {path : String} {sent : HttpRequest X (EncodeBody σ T)} {response : HttpResponse (Body Status)}
    {metadata : MetadataMap} {s : Streaming δ} {frames : List Framed}
    (prepared : client.prepareRequest (client.encodeRequest request) path = .ok sent)
    (conveyed : transport sent = .ok response)
    (created : client.createResponse response = .ok ⟨metadata, s⟩)
    (data : response.body.data = writeAll frames)
    (fit : ∀ f ∈ frames, f.payload.length < 2 ^ 32) :
    ∃ direction encoding limit msgs fate,
      s = .new client.decoder response.body direction encoding limit ∧
      Framewise dec z encoding limit client.decoder frames response.body.chunks msgs fate ∧
      Same ((client.clientStreaming dec z transport request path).map (·.message))
        (single missingResponse msgs (fate.verdict direction response.body.tail)) := by
  obtain ⟨direction, encoding, limit, rfl⟩ := created_stream client created
  obtain ⟨msgs, fate, framewise⟩ := framewise_total dec z encoding limit client.decoder data fit
  obtain ⟨t, reads, _⟩ := new_received dec z encoding limit client.decoder response.body direction
    framewise.received
  have underway : Underway response.body.tail
      (Streaming.new client.decoder response.body direction encoding limit).inner := ⟨rfl, rfl, rfl⟩
  have streamed : client.streaming transport request path =
      .ok ⟨metadata, .new client.decoder response.body direction encoding limit⟩ := by
    simp only [GrpcClient.Grpc.streaming, prepared, conveyed, created]
  exact ⟨direction, encoding, limit, msgs, fate, rfl, framewise,
    takes_answers dec z client streamed (reads_takes dec z underway reads)⟩

/-- A call for one message succeeds with the first of at least one frame; the messages
behind it are decoded and dropped, and one that fails to decode fails the call. -/
theorem single_message_taken {X' σ' δ' T' U' : Type} (serverDec : Decoder δ T)
    (clientDec : Decoder δ' U') (z : Compressors) (server : GrpcHandler.Grpc σ δ)
    (client : GrpcClient.Grpc σ' δ') :
    (∀ (req : HttpRequest X (Body Status)) encoding frames,
      CompressionEncoding.fromEncodingHeader req.parts.headers
        server.acceptCompressionEncodings = .ok encoding →
      req.body.data = writeAll frames → (∀ f ∈ frames, f.payload.length < 2 ^ 32) →
      ∃ msgs fate, Framewise serverDec z encoding server.maxDecodingMessageSize server.decoder
          frames req.body.chunks msgs fate ∧
        Handles serverDec z server U req
          (single missingRequest msgs (fate.verdict .request req.body.tail))) ∧
    (∀ (transport : GrpcClient.Transport X' σ' T') request path sent response metadata s frames,
      client.prepareRequest (client.encodeRequest request) path = .ok sent →
      transport sent = .ok response → client.createResponse response = .ok ⟨metadata, s⟩ →
      response.body.data = writeAll frames → (∀ f ∈ frames, f.payload.length < 2 ^ 32) →
      ∃ direction encoding limit msgs fate,
        s = .new client.decoder response.body direction encoding limit ∧
        Framewise clientDec z encoding limit client.decoder frames response.body.chunks msgs fate ∧
        Same ((client.clientStreaming clientDec z transport request path).map (·.message))
          (single missingResponse msgs (fate.verdict direction response.body.tail))) ∧
    ∀ (transport : GrpcClient.Transport X' σ' T') (request : Request X' T') path,
      client.unary clientDec z transport request path = client.clientStreaming clientDec z transport
        (request.map fun message => [some message]) path := by
  refine ⟨?_, ?_, ?_⟩
  · intro req encoding frames accepted data fit
    exact server_takes_first serverDec z server accepted data fit
  · intro transport request path sent response metadata s frames prepared conveyed created data fit
    exact client_takes_first clientDec z client prepared conveyed created data fit
  · intro transport request path
    rfl

end Frames

section Two

def twoFrames : List Framed := [⟨0, [1]⟩, ⟨0, [2]⟩]

theorem two_fit : ∀ f ∈ twoFrames, f.payload.length < 2 ^ 32 := by decide

def twoBody (tail : Tail Status) : Body Status := ⟨[.data (writeAll twoFrames)], tail⟩

def twoRequest : HttpRequest Unit (Body Status) := ⟨⟨"/greeter", [], ()⟩, twoBody .eof⟩

theorem two_scanned : Scanned echoDecoder plainCompressors none none () (writeAll twoFrames)
    [[1], [2]] (.short []) := by
  have first : LengthFraming.readHeader (writeAll twoFrames) = some (0, 1, [1, 0, 0, 0, 0, 1, 2]) :=
    by decide
  have second : LengthFraming.readHeader [0, 0, 0, 0, 1, 2] = some (0, 1, [2]) := by decide
  have front : scanFrame echoDecoder plainCompressors none none () (writeAll twoFrames) =
      .message [1] () [0, 0, 0, 0, 1, 2] := by
    simp only [scanFrame, first]
    rfl
  have back : scanFrame echoDecoder plainCompressors none none () [0, 0, 0, 0, 1, 2] =
      .message [2] () [] := by
    simp only [scanFrame, second]
    rfl
  exact .message front (.message back (.short rfl))

def okTrailers : HeaderMap := [(grpcStatus, Code.ok.toHeaderValue)]

def echoClient : GrpcClient.Grpc Unit Unit :=
  ⟨(), (), .ok, ⟨false, false, false⟩, none, none, none⟩

def twoRequests : Request Unit (List (Option Bytes)) := ⟨MetadataMap.new, [some [7]], ()⟩

def twoResponse : HttpResponse (Body Status) := ⟨200, [], twoBody (.trailers okTrailers)⟩

theorem two_data (tail : Tail Status) : (twoBody tail).data = writeAll twoFrames := rfl

theorem two_taken (direction : Direction) (tail : Tail Status)
    (good : ending direction tail [] = none) :
    Takes echoDecoder plainCompressors
      (.new () (twoBody tail) direction none none) [[1], [2]] none := by
  obtain ⟨t, reads, _⟩ := new_reads echoDecoder plainCompressors none none () (twoBody tail)
    direction two_scanned
  have verdict : (Outcome.short []).verdict direction tail = none := good
  rw [show (twoBody tail).tail = tail from rfl, verdict] at reads
  have underway : Underway tail (Streaming.new () (twoBody tail) direction none none).inner :=
    ⟨rfl, rfl, rfl⟩
  exact reads_takes echoDecoder plainCompressors underway reads

theorem two_called : ∃ r : Request Unit Bytes, r.message = [1] ∧
    Calls echoDecoder plainCompressors echoGrpc Bytes twoRequest r := by
  have handles : Handles echoDecoder plainCompressors echoGrpc Bytes twoRequest
      (single missingRequest [[1], [2]] none) :=
    takes_handles echoDecoder plainCompressors echoGrpc rfl (two_taken .request .eof rfl)
  rcases handles with ⟨r, same, _, calls⟩ | ⟨e, wrong, _⟩
  · exact ⟨r, (Except.ok.inj same).symm, calls⟩
  · cases wrong

theorem two_answered : ∃ metadata, echoClient.clientStreaming echoDecoder plainCompressors
    (fun _ => .ok twoResponse) twoRequests "/greeter" = .ok ⟨metadata, [1]⟩ := by
  have good : ending (.response 200) (.trailers okTrailers) [] = none := by decide
  have streamed : echoClient.streaming (fun _ => .ok twoResponse) twoRequests "/greeter" =
      .ok ⟨⟨[]⟩, .new () (twoBody (.trailers okTrailers)) (.response 200) none none⟩ := rfl
  have same := takes_answers echoDecoder plainCompressors echoClient streamed
    (two_taken (.response 200) (.trailers okTrailers) good)
  cases answer : echoClient.clientStreaming echoDecoder plainCompressors
      (fun _ => .ok twoResponse) twoRequests "/greeter" with
  | error e =>
    rw [answer] at same
    exact same.elim
  | ok response =>
    rw [answer] at same
    exact ⟨response.metadata, by rw [← show response.message = [1] from same]⟩

/-- Two messages, and both sides go on with the first. -/
theorem second_message_dropped :
    (¬ ∀ (req : HttpRequest Unit (Body Status)) frames (r : Request Unit Bytes),
      req.body.data = writeAll frames → (∀ f ∈ frames, f.payload.length < 2 ^ 32) →
      req.body.tail = .eof → Calls echoDecoder plainCompressors echoGrpc Bytes req r →
      frames.length = 1) ∧
    ¬ ∀ (response : HttpResponse (Body Status)) frames got,
      response.body.data = writeAll frames → (∀ f ∈ frames, f.payload.length < 2 ^ 32) →
      response.status = 200 → response.body.tail = .trailers okTrailers →
      echoClient.clientStreaming echoDecoder plainCompressors (fun _ => .ok response) twoRequests
        "/greeter" = .ok got → frames.length = 1 := by
  constructor
  · intro only
    obtain ⟨r, _, calls⟩ := two_called
    exact absurd (only twoRequest twoFrames r (two_data .eof) two_fit rfl calls) (by decide)
  · intro only
    obtain ⟨metadata, answered⟩ := two_answered
    exact absurd (only twoResponse twoFrames _ (two_data _) two_fit rfl rfl answered) (by decide)

/-- Both halves at the request and the response of two frames. -/
theorem single_message_taken_two :
    (∃ msgs fate, Framewise echoDecoder plainCompressors none none () twoFrames
        twoRequest.body.chunks msgs fate ∧
      Handles echoDecoder plainCompressors echoGrpc Bytes twoRequest
        (single missingRequest msgs (fate.verdict .request .eof))) ∧
    ∃ direction encoding limit msgs fate,
      Framewise echoDecoder plainCompressors encoding limit () twoFrames
        twoResponse.body.chunks msgs fate ∧
      Same ((echoClient.clientStreaming echoDecoder plainCompressors (fun _ => .ok twoResponse)
          twoRequests "/greeter").map (·.message))
        (single missingResponse msgs (fate.verdict direction (.trailers okTrailers))) := by
  obtain ⟨server, client, _⟩ := @single_message_taken Unit Unit Unit Bytes Bytes Unit Unit Unit Bytes
    Bytes echoDecoder echoDecoder plainCompressors echoGrpc echoClient
  constructor
  · exact server twoRequest none twoFrames rfl (two_data .eof) two_fit
  · obtain ⟨direction, encoding, limit, msgs, fate, _, framewise, same⟩ :=
      client (fun _ => .ok twoResponse) twoRequests "/greeter" _ twoResponse ⟨[]⟩ _ twoFrames rfl rfl
        rfl (two_data _) two_fit
    exact ⟨direction, encoding, limit, msgs, fate, framewise, same⟩

end Two

end UnaryCardinality
