import PureGrpc.GeneratedCalls
import PureGrpc.GuardedCalls
import PureGrpc.HealthInterleaving
import PureGrpc.ReflectionStream

/-!
The two services that come with the library, called over the wire. A health check reads one
map, whatever steps of other calls it falls between; a reflection call is answered by a task at
the other end of a channel. Both servers match the path themselves.
-/
namespace SuppliedServices
open LengthFraming GrpcMetadata GrpcStatus GrpcCompression GrpcCodec PolledMachines HttpBodies
open MessageEncoding EncodeOrder StreamingDecode FramingRoundTrip GrpcHandler UnaryCardinality
open StatusPropagation RemoteCalls GuardedCalls TransitionRuns
open InterceptedMetadata (plainCompressors)
open GeneratedCalls (Codec serverGrpc server_sends_plain)
open HealthService (ServingStatus HealthCheckResponse HealthState)
open HealthInterleaving (Action System Step)
open ReflectionIndex (ReflectionState ServerReflectionRequest ServerReflectionResponse
  handleReflectionRequest reflectionName)
open ReflectionStream (listRequest symbolRequest)

variable {X X' σ σ' δ δ' T U : Type}

section Written

def written (service : String) : Action → Option ServingStatus
  | .write name status => if name = service then some status else none
  | _ => none

/-- The status last written for a service, or the one it starts with. -/
def lastWritten (actions : List Action) (service : String) : ServingStatus :=
  ((actions.filterMap (written service)).getLast?).getD
    (HealthInterleaving.start.state.statusOf service)

theorem step_status {w next : System} {action : Action} (step : Step w action next)
    (service : String) :
    next.state.statusOf service = (written service action).getD (w.state.statusOf service) := by
  cases step with
  | write name status =>
    by_cases same : name = service
    · simp [written, same]
    · simp [written, same]
  | send _ => simp [written]
  | read name => rfl
  | subscribe _ => simp [written]

theorem run_status {w next : System} {actions : List Action} (run : Run Step w actions next)
    (service : String) : next.state.statusOf service =
      ((actions.filterMap (written service)).getLast?).getD (w.state.statusOf service) := by
  induction run with
  | stop => rfl
  | @next w action mid actions last step rest ih =>
    rw [ih, step_status step service, List.filterMap_cons]
    cases written service action with
    | none => rfl
    | some status => simp [List.getLast?_cons]

end Written

section Servers
variable (dec : Decoder δ T) (z : Compressors)

structure HealthCheckRequest where
  service : String
  deriving DecidableEq, Repr

def checkSvc (state : HealthState) (request : Request X HealthCheckRequest) :
    Except Status (Response HealthCheckResponse) :=
  .ok ⟨.new, state.check request.message.service⟩

def asResponse : SourceEvent ServingStatus → SourceEvent HealthCheckResponse
  | .pending => .pending
  | .item result => .item (result.map fun status => ⟨status.asI32⟩)

/-- What a receiver of a service's channel yields is the channel's. -/
def watchSvc (watching : String → List (SourceEvent ServingStatus))
    (request : Request X HealthCheckRequest) : Answer HealthCheckResponse :=
  .ok ⟨.new, (watching request.message.service).map asResponse⟩

def checkPath : String := "/grpc.health.v1.Health/Check"
def watchPath : String := "/grpc.health.v1.Health/Watch"

def HealthServer.call (dec : Decoder δ HealthCheckRequest) (z : Compressors) (codec : Codec σ δ)
    (state : HealthState) (watching : String → List (SourceEvent ServingStatus))
    (req : HttpRequest X (Body Status)) : HttpResponse (ResponseBody σ HealthCheckResponse) :=
  if req.parts.path = checkPath then (serverGrpc codec).unary dec z (checkSvc state) req
  else if req.parts.path = watchPath then
    (serverGrpc codec).serverStreaming dec z (watchSvc watching) req
  else Status.intoHttp (.unimplemented "")

/-- The response stream is the receiving end of the channel of the task. -/
def reflectionInfoSvc (receiving : Streaming δ → List (SourceEvent ServerReflectionResponse))
    (request : Request X (Streaming δ)) : Answer ServerReflectionResponse :=
  .ok ⟨.new, receiving request.message⟩

def infoPath : String := "/grpc.reflection.v1.ServerReflection/ServerReflectionInfo"

def ReflectionServer.call (codec : Codec σ δ)
    (receiving : Streaming δ → List (SourceEvent ServerReflectionResponse))
    (req : HttpRequest X (Body Status)) : HttpResponse (ResponseBody σ ServerReflectionResponse) :=
  if req.parts.path = infoPath then (serverGrpc codec).streaming (reflectionInfoSvc receiving) req
  else Status.intoHttp (.unimplemented "")

/-- What comes out of the channel for a stream of requests is what the task makes of it. -/
def Receives (dec : Decoder δ ServerReflectionRequest) (z : Compressors) (state : ReflectionState)
    (receiving : Streaming δ → List (SourceEvent ServerReflectionResponse)) : Prop :=
  ∀ input, BoundedChannels.Delivers (ReflectionStream.respond dec z state)
    ReflectionStream.channelCapacity input (results (receiving input))

end Servers

section Calls

theorem asked_stream {dec : Decoder δ T} {z : Compressors} {metadata : MetadataMap}
    {extensions : X} {msgs : List T} {service : Request X (Streaming δ) → Answer U}
    {answer : Answer U} (asked : Asked dec z metadata extensions msgs (.streaming service) answer) :
    ∃ stream last, Reads (Streaming.pollNext dec z) stream msgs none last ∧
      answer = service ⟨metadata, stream, extensions⟩ := by
  cases asked with
  | streaming reads => exact ⟨_, _, reads, rfl⟩

theorem info_replies {dec : Decoder δ ServerReflectionRequest} {z : Compressors}
    {state : ReflectionState}
    {receiving : Streaming δ → List (SourceEvent ServerReflectionResponse)}
    (receives : Receives dec z state receiving) {request : Request X (Streaming δ)}
    {msgs : List ServerReflectionRequest} {last : Streaming δ}
    (reads : Reads (Streaming.pollNext dec z) request.message msgs none last) :
    reply (reflectionInfoSvc receiving request) =
      .streamed .new (msgs.map (handleReflectionRequest state)) none := by
  have delivers : BoundedChannels.Delivers (ReflectionStream.respond dec z state)
      ReflectionStream.channelCapacity request.message (ReflectionStream.answers state _ none) :=
    ReflectionStream.responses_delivered reads
  have made : results (receiving request.message) =
      (msgs.map (handleReflectionRequest state)).map .ok ++ [] := by
    rw [BoundedChannels.delivers_unique (receives request.message) delivers]
    simp [ReflectionStream.answers]
  obtain ⟨good, first⟩ :=
    good_items_append (ε := Status) (msgs.map (handleReflectionRequest state)) []
  simp only [reply, reflectionInfoSvc, made, good, first]
  simp [goodItems, firstError]

variable {client : GrpcClient.Grpc σ δ} {codec : Codec σ' δ'} {path : String}
  {req : HttpRequest X' (Body Status)} {received : HttpResponse (Body Status)}

/-- A health check is told the status that was last written for its service, whatever other
    calls were in progress when the server read it. -/
theorem health_check_told (clientEnc : Encoder σ HealthCheckRequest)
    (clientDec : Decoder δ HealthCheckResponse) (serverEnc : Encoder σ' HealthCheckResponse)
    (serverDec : Decoder δ' HealthCheckRequest) (z : Compressors)
    {requests : σ → δ' → Prop} {responses : σ' → δ → Prop}
    (requestsInStep : InStep clientEnc serverDec requests)
    (responsesInStep : InStep serverEnc clientDec responses) (inverse : z.Inverse)
    (asking : requests client.encoder codec.decoder)
    (answering : responses codec.encoder client.decoder)
    {actions : List Action} {w : System} (run : Run Step HealthInterleaving.start actions w)
    (watching : String → List (SourceEvent ServingStatus)) (request : Request X HealthCheckRequest)
    {sent : HttpRequest X (EncodeBody σ HealthCheckRequest)}
    (plain : client.sendCompressionEncoding = none)
    (prepared : client.prepareRequest (client.encodeRequest
      (request.map fun message => [some message])) path = .ok sent)
    (delivered : Delivered clientEnc z sent req) (check : req.parts.path = checkPath)
    (fits : Fits clientEnc z none client.maxEncodingMessageSize none client.encoder
      [request.message])
    (returned : ResponseArrives serverEnc z
      (HealthServer.call serverDec z codec w.state watching req) received)
    (responseFits : Fits serverEnc z none none client.maxDecodingMessageSize codec.encoder
      [⟨(lastWritten actions request.message.service).asI32⟩])
    (transport : GrpcClient.Transport X σ HealthCheckRequest)
    (answers : transport sent = .ok received) :
    ∃ got, client.unary clientDec z transport request path = .ok got ∧
      got.message = ⟨(lastWritten actions request.message.service).asI32⟩ := by
  have status : w.state.check request.message.service =
      ⟨(lastWritten actions request.message.service).asI32⟩ := by
    rw [HealthState.check, run_status run]
    rfl
  have called : HealthServer.call serverDec z codec w.state watching req =
      serve serverDec z (serverGrpc codec) (.unary (checkSvc w.state)) req := if_pos check
  rw [called] at returned
  obtain ⟨metadata, answer, _, asked, told⟩ := call_refines clientEnc clientDec serverEnc serverDec
    z requestsInStep responsesInStep inverse asking answering prepared delivered
    (by rw [plain]; intro _ wrong; cases wrong) (by rw [plain]; exact fits) _ returned transport
    answers
  cases asked
  have answered : reply ((checkSvc w.state ⟨metadata, request.message, req.parts.extensions⟩).map
      (·.map once)) = .streamed .new [w.state.check request.message.service] none := rfl
  rw [answered, status] at told
  have proper : Proper (.streamed .new
      [HealthCheckResponse.mk (lastWritten actions request.message.service).asI32] none) := by
    intro _ wrong
    cases wrong
  rw [← server_sends_plain codec req] at responseFits
  obtain ⟨_, single⟩ := (told proper responseFits).2 request rfl
  have message := single.message
  cases got : client.unary clientDec z transport request path with
  | ok response =>
    rw [got] at message
    exact ⟨response, rfl, message⟩
  | error e =>
    rw [got] at message
    exact message.elim

/-- A reflection call is told one response for each of its requests, in their order, and the
    end of them. -/
theorem reflection_call_told (clientEnc : Encoder σ ServerReflectionRequest)
    (clientDec : Decoder δ ServerReflectionResponse)
    (serverEnc : Encoder σ' ServerReflectionResponse)
    (serverDec : Decoder δ' ServerReflectionRequest) (z : Compressors)
    {requests : σ → δ' → Prop} {responses : σ' → δ → Prop}
    (requestsInStep : InStep clientEnc serverDec requests)
    (responsesInStep : InStep serverEnc clientDec responses) (inverse : z.Inverse)
    (asking : requests client.encoder codec.decoder)
    (answering : responses codec.encoder client.decoder) (state : ReflectionState)
    (receiving : Streaming δ' → List (SourceEvent ServerReflectionResponse))
    (receives : Receives serverDec z state receiving)
    (request : Request X (List (Option ServerReflectionRequest)))
    {sent : HttpRequest X (EncodeBody σ ServerReflectionRequest)}
    (plain : client.sendCompressionEncoding = none)
    (prepared : client.prepareRequest (client.encodeRequest request) path = .ok sent)
    (delivered : Delivered clientEnc z sent req) (info : req.parts.path = infoPath)
    (fits : Fits clientEnc z none client.maxEncodingMessageSize none client.encoder
      request.message.reduceOption)
    (returned : ResponseArrives serverEnc z (ReflectionServer.call codec receiving req) received)
    (responseFits : Fits serverEnc z none none client.maxDecodingMessageSize codec.encoder
      (request.message.reduceOption.map (handleReflectionRequest state)))
    (transport : GrpcClient.Transport X σ ServerReflectionRequest)
    (answers : transport sent = .ok received) :
    Hears clientDec z client transport request path (.streamed .new
      (request.message.reduceOption.map (handleReflectionRequest state)) none) := by
  have called : ReflectionServer.call codec receiving req =
      serve serverDec z (serverGrpc codec) (.streaming (reflectionInfoSvc receiving)) req :=
    if_pos info
  rw [called] at returned
  obtain ⟨metadata, answer, _, asked, told⟩ := call_refines clientEnc clientDec serverEnc serverDec
    z requestsInStep responsesInStep inverse asking answering prepared delivered
    (by rw [plain]; intro _ wrong; cases wrong) (by rw [plain]; exact fits) _ returned transport
    answers
  obtain ⟨stream, last, reads, rfl⟩ := asked_stream asked
  rw [info_replies receives reads] at told
  rw [← server_sends_plain codec req] at responseFits
  exact told (by intro _ wrong; cases wrong) responseFits

end Calls

section Tables
variable [DecidableEq T] (table : List (T × Bytes))

/-- Prost as far as these messages go. -/
def tableEncoder : Encoder Unit T where
  encode _ m := match table.find? (·.1 = m) with
    | some entry => ⟨.ok (), entry.2, ()⟩
    | none => ⟨.error "another message", [], ()⟩
  bufferSettings _ := .default

def tableDecoder : Decoder Unit T :=
  plainDecoder fun view => match table.find? (·.2 = view) with
    | some entry => .ok entry.1
    | none => .error (.internal "another message")

variable {table}

theorem table_in_step (distinct : (table.map Prod.snd).Nodup) :
    InStep (tableEncoder table) (tableDecoder table) fun _ _ => True := by
  intro e d m _ encoded
  cases listed : table.find? (·.1 = m) with
  | none => simp [tableEncoder, listed] at encoded
  | some entry =>
    have mem := List.mem_of_find?_eq_some listed
    have named : entry.1 = m := by simpa using List.find?_some listed
    have back : table.find? (·.2 = entry.2) = some entry := by
      cases found : table.find? (·.2 = entry.2) with
      | none => exact absurd (decide_eq_true rfl) (List.find?_eq_none.mp found entry mem)
      | some other =>
        have same : other.2 = entry.2 := by simpa using List.find?_some found
        rw [List.inj_on_of_nodup_map distinct (List.mem_of_find?_eq_some found) mem same]
    simp [tableEncoder, tableDecoder, plainDecoder, listed, back, named, Except.map]

theorem table_fits (z : Compressors) {msgs : List T}
    (small : ∀ m ∈ msgs, ∃ entry, table.find? (·.1 = m) = some entry ∧
      entry.2.length ≤ defaultMaxRecvMessageSize) :
    Fits (tableEncoder table) z none none none () msgs := by
  induction msgs with
  | nil => trivial
  | cons m msgs ih =>
    obtain ⟨here, later⟩ := List.forall_mem_cons.mp small
    obtain ⟨entry, listed, recv⟩ := here
    have payload : payloadOf (tableEncoder table) z none () m = some entry.2 := by
      simp [payloadOf, tableEncoder, listed]
    have send : entry.2.length ≤ defaultMaxSendMessageSize := recv.trans (by decide)
    exact ⟨⟨entry.2, payload, send, recv, recv.trans_lt (by decide)⟩, ih later⟩

end Tables

section Overlapped

def checkRequest : Request Unit HealthCheckRequest := ⟨MetadataMap.new, ⟨"a"⟩, ()⟩

def checkTable : List (HealthCheckRequest × Bytes) := [(⟨"a"⟩, [10, 1, 97])]
def statusTable : List (HealthCheckResponse × Bytes) := [(⟨2⟩, [8, 2])]

def checkEncoder : Encoder Unit HealthCheckRequest := tableEncoder checkTable
def checkDecoder : Decoder Unit HealthCheckRequest := tableDecoder checkTable
def statusEncoder : Encoder Unit HealthCheckResponse := tableEncoder statusTable
def statusDecoder : Decoder Unit HealthCheckResponse := tableDecoder statusTable

/-- Of two calls that set the status, the first has yet to tell the watchers, and the second is
    the one that the check is told of. -/
theorem overlapped_check_told :
    ∃ w received got, Run Step HealthInterleaving.start
        [.write "a" .serving, .write "a" .notServing] w ∧ w.sets.length = 2 ∧
      (∃ req : HttpRequest Unit (Body Status), ResponseArrives statusEncoder plainCompressors
        (HealthServer.call checkDecoder plainCompressors ⟨(), ()⟩ w.state (fun _ => []) req)
        received) ∧
      echoCaller.unary statusDecoder plainCompressors (fun _ => .ok received) checkRequest
        checkPath = .ok got ∧ got.message = ⟨2⟩ := by
  obtain ⟨w, run, sets, state⟩ : ∃ w, Run Step HealthInterleaving.start
      [.write "a" .serving, .write "a" .notServing] w ∧ w.sets.length = 2 ∧
        w.state.check "a" = ⟨2⟩ :=
    ⟨_, .next (.write "a" .serving) (.next (.write "a" .notServing) (.stop _)), by decide,
      by decide⟩
  have requestFits : Fits checkEncoder plainCompressors none none none () [⟨"a"⟩] :=
    table_fits plainCompressors (by decide)
  have responseFits : Fits statusEncoder plainCompressors none none none () [⟨2⟩] :=
    table_fits plainCompressors (by decide)
  obtain ⟨sent, prepared⟩ : ∃ sent, echoCaller.prepareRequest (echoCaller.encodeRequest
      (checkRequest.map fun message => [some message])) checkPath = .ok sent := ⟨_, rfl⟩
  let req : HttpRequest Unit (Body Status) := ⟨⟨sent.parts.path, sent.parts.headers, ()⟩,
    ⟨[.data (writeAll (framesOf checkEncoder plainCompressors none () [⟨"a"⟩]))], .eof⟩⟩
  have delivered : Delivered checkEncoder plainCompressors sent req :=
    whole_delivered checkEncoder plainCompressors prepared requestFits ()
  have check : req.parts.path = checkPath := by
    cases prepared
    rfl
  have plain : ∀ e, echoCaller.sendCompressionEncoding = some e →
      (serverGrpc (⟨(), ()⟩ : Codec Unit Unit)).acceptCompressionEncodings.isEnabled e = true := by
    intro _ wrong
    cases wrong
  obtain ⟨answer, asked, served⟩ := delivered_asks checkEncoder checkDecoder plainCompressors
    (table_in_step (by decide)) plain_inverse trivial prepared delivered plain requestFits
    (.unary (checkSvc w.state))
  cases asked
  have called : HealthServer.call checkDecoder plainCompressors ⟨(), ()⟩ w.state (fun _ => []) req =
      serve checkDecoder plainCompressors (serverGrpc ⟨(), ()⟩) (.unary (checkSvc w.state)) req :=
    if_pos check
  obtain ⟨received, returned⟩ : ∃ received, ResponseArrives statusEncoder plainCompressors
      (HealthServer.call checkDecoder plainCompressors ⟨(), ()⟩ w.state (fun _ => []) req)
      received := by
    rw [called, served, server_sends_plain]
    apply whole_arrives statusEncoder plainCompressors (serverGrpc ⟨(), ()⟩)
      ⟨.new, once (w.state.check "a")⟩
    rw [state]
    exact responseFits
  obtain ⟨got, told, message⟩ := health_check_told checkEncoder statusDecoder statusEncoder
    checkDecoder plainCompressors (table_in_step (by decide)) (table_in_step (by decide))
    plain_inverse trivial trivial run (fun _ => []) checkRequest rfl prepared delivered check requestFits returned responseFits
    (fun _ => .ok received) rfl
  exact ⟨w, received, got, run, sets, ⟨req, returned⟩, told, message⟩

end Overlapped

section Listed

theorem item_results (items : List (Except Status U)) : results (items.map .item) = items := by
  induction items with
  | nil => rfl
  | cons item items ih => rw [List.map_cons, results, ih]

theorem receives_some (dec : Decoder δ ServerReflectionRequest) (z : Compressors)
    (state : ReflectionState) : ∃ receiving, Receives dec z state receiving := by
  have made : ∀ input, ∃ events : List (SourceEvent ServerReflectionResponse),
      BoundedChannels.Delivers (ReflectionStream.respond dec z state)
        ReflectionStream.channelCapacity input (results events) := by
    intro input
    obtain ⟨requests, _, _, reads⟩ := ReflectionStream.stream_reads dec z input
    refine ⟨(ReflectionStream.answers state requests none).map .item, ?_⟩
    rw [item_results]
    exact ReflectionStream.responses_delivered reads
  choose receiving delivers using made
  exact ⟨receiving, delivers⟩

def listed : ServerReflectionResponse :=
  ⟨"", some listRequest, some (.listServicesResponse [⟨reflectionName⟩])⟩
def missing : ServerReflectionResponse :=
  ⟨"", some symbolRequest, some (.errorResponse 5 "symbol not found: a")⟩

def requestTable : List (ServerReflectionRequest × Bytes) :=
  [(listRequest, [58, 0]), (symbolRequest, [34, 1, 97])]
def responseTable : List (ServerReflectionResponse × Bytes) :=
  [(listed, [18, 2, 58, 0, 50, 39, 10, 37, 10, 35] ++ asBytes reflectionName),
    (missing, [18, 3, 34, 1, 97, 58, 23, 8, 5, 18, 19] ++ asBytes "symbol not found: a")]

def infoEncoder : Encoder Unit ServerReflectionRequest := tableEncoder requestTable
def infoDecoder : Decoder Unit ServerReflectionRequest := tableDecoder requestTable
def responseEncoder : Encoder Unit ServerReflectionResponse := tableEncoder responseTable
def responseDecoder : Decoder Unit ServerReflectionResponse := tableDecoder responseTable

def infoCall : Request Unit (List (Option ServerReflectionRequest)) :=
  ⟨MetadataMap.new, [none, some listRequest, some symbolRequest], ()⟩

/-- A server without services of its own lists the reflection service, and has no symbols. -/
theorem two_requests_told : ∃ receiving received,
    Receives infoDecoder plainCompressors ⟨[reflectionName], [], []⟩ receiving ∧
      (∃ req : HttpRequest Unit (Body Status), ResponseArrives responseEncoder plainCompressors
        (ReflectionServer.call ⟨(), ()⟩ receiving req) received) ∧
      Hears responseDecoder plainCompressors echoCaller (fun _ => .ok received) infoCall infoPath
        (.streamed .new [listed, missing] none) := by
  obtain ⟨receiving, receives⟩ :=
    receives_some infoDecoder plainCompressors ⟨[reflectionName], [], []⟩
  let requests := [listRequest, symbolRequest]
  have requestFits : Fits infoEncoder plainCompressors none none none () requests :=
    table_fits plainCompressors (by decide)
  have responseFits : Fits responseEncoder plainCompressors none none none () [listed, missing] :=
    table_fits plainCompressors (by decide)
  obtain ⟨sent, prepared⟩ : ∃ sent, echoCaller.prepareRequest (echoCaller.encodeRequest infoCall)
      infoPath = .ok sent := ⟨_, rfl⟩
  let req : HttpRequest Unit (Body Status) := ⟨⟨sent.parts.path, sent.parts.headers, ()⟩,
    ⟨[.data (writeAll (framesOf infoEncoder plainCompressors none () requests))], .eof⟩⟩
  have delivered : Delivered infoEncoder plainCompressors sent req :=
    whole_delivered infoEncoder plainCompressors prepared requestFits ()
  have info : req.parts.path = infoPath := by
    cases prepared
    rfl
  have plain : ∀ e, echoCaller.sendCompressionEncoding = some e →
      (serverGrpc (⟨(), ()⟩ : Codec Unit Unit)).acceptCompressionEncodings.isEnabled e = true := by
    intro _ wrong
    cases wrong
  obtain ⟨answer, asked, served⟩ := delivered_asks infoEncoder infoDecoder plainCompressors
    (table_in_step (by decide)) plain_inverse trivial prepared delivered plain requestFits
    (.streaming (reflectionInfoSvc receiving))
  have called : ReflectionServer.call ⟨(), ()⟩ receiving req =
      serve infoDecoder plainCompressors (serverGrpc ⟨(), ()⟩)
        (.streaming (reflectionInfoSvc receiving)) req := if_pos info
  obtain ⟨stream, last, reads, rfl⟩ := asked_stream asked
  have replied : reply (reflectionInfoSvc receiving
      (⟨⟨req.parts.headers⟩, stream, req.parts.extensions⟩ : Request Unit (Streaming Unit))) =
      .streamed .new (requests.map (handleReflectionRequest ⟨[reflectionName], [], []⟩))
        none := info_replies receives reads
  obtain ⟨received, returned⟩ : ∃ received, ResponseArrives responseEncoder plainCompressors
      (ReflectionServer.call ⟨(), ()⟩ receiving req) received := by
    rw [called, served, server_sends_plain]
    apply whole_arrives responseEncoder plainCompressors (serverGrpc ⟨(), ()⟩)
      ⟨.new, receiving stream⟩
    rw [reflectionInfoSvc] at replied
    rw [replied]
    exact responseFits
  exact ⟨receiving, received, receives, ⟨req, returned⟩, reflection_call_told infoEncoder
    responseDecoder responseEncoder infoDecoder plainCompressors (table_in_step (by decide))
    (table_in_step (by decide)) plain_inverse trivial trivial ⟨[reflectionName], [], []⟩ receiving receives infoCall rfl
    prepared delivered info requestFits returned responseFits (fun _ => .ok received) rfl⟩

end Listed

end SuppliedServices
