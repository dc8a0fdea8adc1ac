import PureGrpc.OriginPaths
import PureGrpc.RemoteCalls
import PureGrpc.ServerItems
import PureGrpc.ServiceRouting

/-!
Generated clients and servers. The generator writes the path of a method twice, into the
client's function and into an arm of the server's match. What a client calls is the function
of the same method in the server's trait, behind whatever router the service is in.
-/
namespace GeneratedCalls
open KeyedMultimap LengthFraming GrpcMetadata GrpcStatus GrpcCompression GrpcCodec PolledMachines HttpBodies
open MessageEncoding EncodeOrder StreamingDecode StreamingScan FramingRoundTrip GrpcHandler StatusPropagation RemoteCalls
open ProtoServices (StreamingType)
open ServerItems (MethodDef ServiceDef)
open OriginPaths (Parts HttpUri PathAndQuery MethodPath isNameChar)
open ServiceRouting (Router Registration lastUnder lastFallback PathOf)

/-- What the schema crate makes of names. -/
structure Schema where
  fullyQualifiedName : ServiceDef → String
  grpcPath : MethodDef → String → String
  pathForm : ∀ method fqn, grpcPath method fqn = "/" ++ fqn ++ "/" ++ method.name

abbrev TraitMethod (X δ T U : Type) : StreamingType → Type
  | .none => Request X T → Except Status (Response U)
  | .server => Request X T → Answer U
  | .client => Request X (Streaming δ) → Except Status (Response U)
  | .bidi => Request X (Streaming δ) → Answer U

/-- What the client's function of a method takes; a stream may wait between its messages. -/
abbrev Argument (T : Type) : StreamingType → Type
  | .none => T
  | .server => T
  | .client => List (Option T)
  | .bidi => List (Option T)

abbrev Outcome (δ U : Type) : StreamingType → Type
  | .none => Except Status (Response U)
  | .server => Except Status (Response (Streaming δ))
  | .client => Except Status (Response U)
  | .bidi => Except Status (Response (Streaming δ))

structure Codec (σ δ : Type) where
  encoder : σ
  decoder : δ

variable {S X X' σ σ' δ δ' T U : Type}

section Server

def serverGrpc (codec : Codec σ δ) : GrpcHandler.Grpc σ δ :=
  ⟨codec.encoder, codec.decoder, ⟨false, false, false⟩, ⟨false, false, false⟩, none, none⟩

structure Implemented (X σ δ T U : Type) where
  method : MethodDef
  codec : Codec σ δ
  inner : TraitMethod X δ T U method.streaming

def svc : (kind : StreamingType) → TraitMethod X δ T U kind → Handler X δ T U
  | .none, inner => .unary inner
  | .server, inner => .serverStreaming inner
  | .client, inner => .clientStreaming inner
  | .bidi, inner => .streaming inner

def Implemented.handler (self : Implemented X σ δ T U) : Handler X δ T U :=
  svc self.method.streaming self.inner

/-- A generated server. Its service has names that can stand in a path, and no method twice. -/
structure Server (schema : Schema) (X σ δ T U : Type) where
  service : ServiceDef
  inner : List (Implemented X σ δ T U)
  implements : inner.map (·.method) = service.methods
  serviceName : (schema.fullyQualifiedName service).toList.all isNameChar = true
  methodNames : ∀ method ∈ service.methods, method.name.toList.all isNameChar = true
  distinct : (service.methods.map (·.name)).Nodup

variable {schema : Schema}

/-- `NamedService::NAME` of the server. -/
def Server.name (self : Server schema X σ δ T U) : String := schema.fullyQualifiedName self.service

def Server.path (self : Server schema X σ δ T U) (method : MethodDef) : String :=
  schema.grpcPath method self.name

def Server.arm (self : Server schema X σ δ T U) (path : String) : Option (Implemented X σ δ T U) :=
  self.inner.find? fun implemented => path = self.path implemented.method

def Server.call (dec : Decoder δ T) (z : Compressors) (self : Server schema X σ δ T U)
    (req : HttpRequest X (Body Status)) : HttpResponse (ResponseBody σ U) :=
  match self.arm req.parts.path with
  | some implemented =>
    serve dec z (serverGrpc implemented.codec) implemented.handler req
  | none => Status.intoHttp (.unimplemented "method not found")

def Server.methodPath (self : Server schema X σ δ T U) (implemented : Implemented X σ δ T U)
    (mem : implemented ∈ self.inner) : MethodPath :=
  ⟨self.name, implemented.method.name, self.serviceName,
    self.methodNames _ (self.implements ▸ List.mem_map_of_mem mem)⟩

theorem method_path_same (server : Server schema X σ δ T U) {implemented : Implemented X σ δ T U}
    (mem : implemented ∈ server.inner) :
    (server.methodPath implemented mem).path = server.path implemented.method := by
  rw [Server.path, schema.pathForm]
  rfl

theorem path_inj (server : Server schema X σ δ T U) {a b : MethodDef}
    (same : server.path a = server.path b) : a.name = b.name := by
  rw [Server.path, Server.path, schema.pathForm, schema.pathForm, String.append_right_inj] at same
  exact same

theorem arm_found (server : Server schema X σ δ T U) {implemented : Implemented X σ δ T U}
    (mem : implemented ∈ server.inner) :
    server.arm (server.path implemented.method) = some implemented := by
  have names : (server.inner.map fun i => i.method.name).Nodup := by
    have distinct := server.distinct
    rw [← server.implements, List.map_map] at distinct
    exact distinct
  cases found : server.arm (server.path implemented.method) with
  | none =>
    have missed := List.find?_eq_none.mp found implemented mem
    exact absurd (decide_eq_true rfl) missed
  | some other =>
    have matched : server.path implemented.method = server.path other.method := by
      simpa using List.find?_some found
    have same := List.inj_on_of_nodup_map names (List.mem_of_find?_eq_some found) mem
      (path_inj server matched).symm
    rw [same]

theorem arm_none_iff (server : Server schema X σ δ T U) (path : String) :
    server.arm path = none ↔ ∀ method ∈ server.service.methods, path ≠ server.path method := by
  rw [Server.arm, List.find?_eq_none, ← server.implements]
  simp

end Server

section Client

/-- A client on a transport and an origin. Readiness is the transport's, and its error is what
    it displays. -/
structure Client (X σ T : Type) where
  origin : Parts
  ready : Except String Unit
  transport : GrpcClient.Transport X σ T

def Client.grpc (lib : HttpUri) (self : Client X σ T) (codec : Codec σ δ) : GrpcClient.Grpc σ δ :=
  OriginPaths.Grpc.withOrigin
    ⟨codec.encoder, codec.decoder, .ok, ⟨false, false, false⟩, none, none, none⟩ lib self.origin

def withExtensions {M : Type} (request : Request X M) (extensions : X) : Request X M :=
  { request with extensions }

variable (lib : HttpUri) (insert : String → String → X → X) (dec : Decoder δ U) (z : Compressors)

/-- The functions of a client differ in what they take and in which call they make. -/
def Client.callWith (self : Client X σ T) (codec : Codec σ δ) (path : String) :
    (kind : StreamingType) → Request X (Argument T kind) → Outcome δ U kind
  | .none, request => (self.grpc lib codec).unary dec z self.transport request path
  | .server, request => (self.grpc lib codec).serverStreaming self.transport request path
  | .client, request => (self.grpc lib codec).clientStreaming dec z self.transport request path
  | .bidi, request => (self.grpc lib codec).streaming self.transport request path

def failed (status : Status) : (kind : StreamingType) → Outcome δ U kind
  | .none => .error status
  | .server => .error status
  | .client => .error status
  | .bidi => .error status

/-- The client's function of a method: readiness, then the call under the method's path, with
    the names of service and method in the extensions. -/
def Client.call (schema : Schema) (self : Client X σ T) (service : ServiceDef) (method : MethodDef)
    (codec : Codec σ δ) (request : Request X (Argument T method.streaming)) :
    Outcome δ U method.streaming :=
  match self.ready with
  | .error e => failed (.new .unknown ("Service was not ready: " ++ e)) method.streaming
  | .ok () =>
    self.callWith lib dec z codec (schema.grpcPath method (schema.fullyQualifiedName service))
      method.streaming (withExtensions request
        (insert (schema.fullyQualifiedName service) method.name request.extensions))

end Client

def schedule : (kind : StreamingType) → Argument T kind → List (Option T)
  | .none, message => [some message]
  | .server, message => [some message]
  | .client, messages => messages
  | .bidi, messages => messages

/-- What the caller of a method of this kind is told. -/
def Told (dec : Decoder δ U) (z : Compressors) (told : Reply U) :
    (kind : StreamingType) → Outcome δ U kind → Prop
  | .none, got => Single told got
  | .server, got => Streamed dec z told got
  | .client, got => Single told got
  | .bidi, got => Streamed dec z told got

section Calls
variable (clientEnc : Encoder σ T) (clientDec : Decoder δ U) (serverEnc : Encoder σ' U)
  (serverDec : Decoder δ' T) (z : Compressors) (lib : HttpUri) (insert : String → String → X → X)
  {schema : Schema} {callBox : S → HttpRequest X' (Body Status) → HttpResponse (ResponseBody σ' U)}
  {server : Server schema X' σ' δ' T U} {registrations : List (Registration S)}
  {iteration : List (String × S)}

structure Routes (callBox : S → HttpRequest X' (Body Status) → HttpResponse (ResponseBody σ' U))
    (server : Server schema X' σ' δ' T U) (registrations : List (Registration S))
    (iteration : List (String × S)) : Prop where
  order : iteration.Perm (Router.build registrations).routes
  last : ∃ svc, lastUnder server.name registrations = some svc ∧
    callBox svc = server.call serverDec z

theorem method_path_of {method : MethodPath} {name : String} (of : PathOf name method.path) :
    name = method.service :=
  ServiceRouting.two_segments_unique (OriginPaths.slash_not_in method.serviceName)
    (OriginPaths.slash_not_in method.methodName) of

theorem routed (routes : Routes serverDec z callBox server registrations iteration)
    {req : HttpRequest X' (Body Status)} {method : MethodPath} (path : req.parts.path = method.path)
    (same : server.name = method.service) :
    (Router.build registrations).call callBox iteration req = server.call serverDec z req := by
  obtain ⟨svc, last, calls⟩ := routes.last
  have one (name other : String) (svc svc' : S) (_ : .service name svc ∈ registrations)
      (_ : .service other svc' ∈ registrations) (of : PathOf name req.parts.path)
      (of' : PathOf other req.parts.path) : name = other := by
    rw [path] at of of'
    rw [method_path_of of, method_path_of of']
  have of : PathOf server.name req.parts.path := ⟨method.method, by rw [path, same]; rfl⟩
  have found := (ServiceRouting.route_entry_iff routes.order one _ svc).mpr
    ⟨server.name, rfl, last, of⟩
  simp only [Router.call, Router.route, found, Option.map_some, calls]

variable {client : Client X σ T} {codec : Codec σ δ}

theorem prepared_at_root {β : Type} (root : client.origin.pathAndQuery.elim True (·.asStr = "/"))
    (method : MethodPath) {request : Request X β} {sent : HttpRequest X β}
    (prepared : (client.grpc lib codec).prepareRequest request method.path = .ok sent) :
    sent.parts.path = method.path := by
  obtain ⟨uri, made, path⟩ := OriginPaths.prepared_path prepared
  obtain ⟨joined, join, same⟩ := OriginPaths.request_uri_path made
  have alone := OriginPaths.method_alone method
  rw [path, same]
  unfold OriginPaths.joinPaths at join
  cases given : client.origin.pathAndQuery with
  | none =>
    rw [given] at join
    cases join
    exact alone
  | some pnq =>
    rw [given] at join root
    have slash : pnq.asStr = "/" := root
    simp only [slash, ne_eq, not_true_eq_false, if_false] at join
    cases join
    exact alone

theorem told_kind {told : Reply U} {path : String} (kind : StreamingType)
    (request : Request X (Argument T kind))
    (both : Streamed clientDec z told ((client.grpc lib codec).streaming client.transport
        (request.map (schedule kind)) path) ∧
      Single told ((client.grpc lib codec).clientStreaming clientDec z client.transport
        (request.map (schedule kind)) path)) :
    Told clientDec z told kind (client.callWith lib clientDec z codec path kind request) := by
  cases kind with
  | none => exact both.2
  | server => exact both.1
  | client => exact both.2
  | bidi => exact both.1

theorem server_sends_plain (codec : Codec σ' δ') (req : HttpRequest X' (Body Status)) :
    (serverGrpc codec).acceptEncoding req = none := by
  unfold GrpcHandler.Grpc.acceptEncoding CompressionEncoding.fromAcceptEncodingHeader
  split
  · rfl
  · apply List.findSome?_eq_none_iff.mpr
    intro part _
    split
    · rename_i encoding _
      cases encoding <;> rfl
    · rfl

/-- A generated client's function of a method asks the function of the same method in the
    server's trait, with its messages and metadata, and is told the answer in its own kind. -/
theorem generated_call_refines {requests : σ → δ' → Prop} {responses : σ' → δ → Prop}
    (requestsInStep : InStep clientEnc serverDec requests)
    (responsesInStep : InStep serverEnc clientDec responses) (inverse : z.Inverse)
    (routes : Routes serverDec z callBox server registrations iteration)
    {implemented : Implemented X' σ' δ' T U} (mem : implemented ∈ server.inner)
    (asking : requests codec.encoder implemented.codec.decoder)
    (answering : responses implemented.codec.encoder codec.decoder)
    (ready : client.ready = .ok ()) (root : client.origin.pathAndQuery.elim True (·.asStr = "/"))
    (request : Request X (Argument T implemented.method.streaming))
    {sent : HttpRequest X (EncodeBody σ T)}
    (prepared : (client.grpc lib codec).prepareRequest ((client.grpc lib codec).encodeRequest
      ((withExtensions request (insert server.name implemented.method.name
        request.extensions)).map (schedule _))) (server.path implemented.method) = .ok sent)
    {req : HttpRequest X' (Body Status)} (delivered : Delivered clientEnc z sent req)
    {received : HttpResponse (Body Status)}
    (returned : ResponseArrives serverEnc z
      ((Router.build registrations).call callBox iteration req) received)
    (answers : client.transport sent = .ok received)
    (fits : Fits clientEnc z none none none codec.encoder
      (schedule _ request.message).reduceOption) :
    ∃ metadata answer, Conveyed request.metadata metadata ∧
      Asked serverDec z metadata req.parts.extensions (schedule _ request.message).reduceOption
        implemented.handler answer ∧
      (Proper (reply answer) →
        Fits serverEnc z none none none implemented.codec.encoder (reply answer).messages →
        Told clientDec z (reply answer) implemented.method.streaming
          (client.call lib insert clientDec z schema server.service implemented.method codec
            request)) := by
  have path : req.parts.path = server.path implemented.method := by
    rw [← method_path_same server mem] at prepared ⊢
    exact delivered.path.trans (prepared_at_root lib root _ prepared)
  have own := path.trans (method_path_same server mem).symm
  rw [routed serverDec z routes own rfl, Server.call, path, arm_found server mem] at returned
  have asks : requests (client.grpc lib codec).encoder (serverGrpc implemented.codec).decoder := asking
  have replies : responses (serverGrpc implemented.codec).encoder (client.grpc lib codec).decoder :=
    answering
  obtain ⟨metadata, answer, conveyed, asked, told⟩ := call_refines clientEnc clientDec serverEnc
    serverDec z requestsInStep responsesInStep inverse asks replies prepared delivered
    (by intro _ wrong; cases wrong) fits implemented.handler returned client.transport answers
  refine ⟨metadata, answer, conveyed, asked, ?_⟩
  intro proper responseFits
  rw [Client.call, ready]
  rw [← server_sends_plain implemented.codec req] at responseFits
  exact told_kind clientDec z lib _ _ (told proper responseFits).1

/-- A method that no registered service has, and how it is refused. -/
inductive Unserved (method : MethodPath) (callBox : S → HttpRequest X' (Body Status) →
    HttpResponse (ResponseBody σ' U)) (registrations : List (Registration S))
    (iteration : List (String × S)) : Status → Prop where
  | method {schema : Schema} {server : Server schema X' σ' δ' T U}
      (routes : Routes serverDec z callBox server registrations iteration)
      (same : server.name = method.service)
      (unknown : ∀ known ∈ server.service.methods, known.name ≠ method.method) :
      Unserved method callBox registrations iteration (.unimplemented "method not found")
  | service (order : iteration.Perm (Router.build registrations).routes)
      (unknown : ∀ svc, .service method.service svc ∉ registrations)
      (noFallback : lastFallback registrations = none) :
      Unserved method callBox registrations iteration (.unimplemented "service not found")

theorem unserved_answer {method : MethodPath} {status : Status}
    (unserved : Unserved serverDec z method callBox registrations iteration status)
    {req : HttpRequest X' (Body Status)} (path : req.parts.path = method.path) :
    (Router.build registrations).call callBox iteration req = Status.intoHttp status := by
  cases unserved with
  | @method schema server routes same unknown =>
    have missed : server.arm req.parts.path = none := by
      rw [arm_none_iff]
      intro known mem matched
      apply unknown known mem
      rw [path, Server.path, schema.pathForm, same, MethodPath.path, String.append_right_inj] at matched
      exact matched.symm
    rw [routed serverDec z routes path same, Server.call, missed]
  | service order unknown noFallback =>
    have missed : Router.routeEntry iteration req.parts.path = none := by
      rw [Router.routeEntry, List.find?_eq_none]
      intro entry mem matched
      obtain ⟨name, key, last⟩ := (ServiceRouting.built_routes_iff registrations entry.1 entry.2).mp
        (order.mem_iff.mp mem)
      have registered := ServiceRouting.last_under_registered last
      rw [key, path] at matched
      have same := method_path_of ((ServiceRouting.key_matches_iff _ _).mp matched)
      exact unknown entry.2 (same ▸ registered)
    simp only [Router.call, Router.route, missed, Option.map_none, ServiceRouting.built_fallback,
      noFallback]

/-- A client that knows a method which the server does not is refused, in the method's own kind,
    and no function is asked. -/
theorem unserved_call_refused {service : ServiceDef} {method : MethodDef}
    (serviceName : (schema.fullyQualifiedName service).toList.all isNameChar = true)
    (methodName : method.name.toList.all isNameChar = true) {status : Status}
    (unserved : Unserved serverDec z ⟨schema.fullyQualifiedName service, method.name, serviceName,
      methodName⟩ callBox registrations iteration status)
    (ready : client.ready = .ok ()) (root : client.origin.pathAndQuery.elim True (·.asStr = "/"))
    (request : Request X (Argument T method.streaming)) {sent : HttpRequest X (EncodeBody σ T)}
    (prepared : (client.grpc lib codec).prepareRequest ((client.grpc lib codec).encodeRequest
      ((withExtensions request (insert (schema.fullyQualifiedName service) method.name
        request.extensions)).map (schedule _)))
      (schema.grpcPath method (schema.fullyQualifiedName service)) = .ok sent)
    {req : HttpRequest X' (Body Status)} (delivered : Delivered clientEnc z sent req)
    {received : HttpResponse (Body Status)}
    (returned : ResponseArrives serverEnc z
      ((Router.build registrations).call callBox iteration req) received)
    (answers : client.transport sent = .ok received) :
    Told clientDec z (.refused status) method.streaming
      (client.call lib insert clientDec z schema service method codec request) := by
  have form := schema.pathForm method (schema.fullyQualifiedName service)
  have path : req.parts.path = (MethodPath.mk (schema.fullyQualifiedName service) method.name
      serviceName methodName).path := by
    rw [form] at prepared
    exact delivered.path.trans (prepared_at_root lib root _ prepared)
  have code : status.code ≠ .ok := by
    cases unserved <;> decide
  obtain ⟨headers, refused, written⟩ := into_http_written (σ := σ') (U := U) status
  have kept := returned.headers
  rw [unserved_answer serverDec z unserved path, refused] at kept
  have same : received.headers = headers := kept
  rw [← same] at written
  rw [Client.call, ready]
  exact told_kind clientDec z lib _ _ (refusal_told clientDec z code prepared answers written)

end Calls

section Greeter
open InterceptedMetadata (echoDecoder plainCompressors)

def dottedSchema : Schema where
  fullyQualifiedName service := (service.package.map (· ++ ".")).getD "" ++ service.name
  grpcPath method fqn := "/" ++ fqn ++ "/" ++ method.name
  pathForm _ _ := rfl

def sayHello : MethodDef := ⟨⟨"SayHello", "Bytes", "Bytes", .none, "Codec"⟩, none⟩

def countDown : MethodDef := ⟨⟨"CountDown", "Bytes", "Bytes", .server, "Codec"⟩, none⟩

def greeterService : ServiceDef := ⟨"Greeter", some "hello", [countDown, sayHello]⟩

def greeter : Server dottedSchema Unit Unit Unit Bytes Bytes where
  service := greeterService
  inner := [⟨countDown, ⟨(), ()⟩, fun r => .ok ⟨MetadataMap.new, [.item (.ok r.message), .pending]⟩⟩,
    ⟨sayHello, ⟨(), ()⟩, fun r => .ok ⟨MetadataMap.new, r.message ++ r.message⟩⟩]
  implements := rfl
  serviceName := by decide
  methodNames := by decide
  distinct := by decide

def greeterRoutes : List (Registration Unit) := [.service "hello.Greeter" ()]

def greeterCall : Unit → HttpRequest Unit (Body Status) → HttpResponse (ResponseBody Unit Bytes) :=
  fun _ => greeter.call echoDecoder plainCompressors

def insertMethod : String → String → List String → List String := fun service method names =>
  service :: method :: names

def greeterClient (received : HttpResponse (Body Status)) : Client (List String) Unit Bytes :=
  ⟨⟨none, none, some ⟨"/"⟩⟩, .ok (), fun _ => .ok received⟩

theorem greeter_routes :
    Routes echoDecoder plainCompressors greeterCall greeter greeterRoutes [("/hello.Greeter", ())] where
  order := .refl _
  last := ⟨(), rfl, rfl⟩

/-- The greeting comes back twice, though another method stands in front of its arm. -/
theorem say_hello_call_refines :
    ∃ received got, (∃ req, ResponseArrives echoEncoder plainCompressors
        ((Router.build greeterRoutes).call greeterCall [("/hello.Greeter", ())] req) received) ∧
      (greeterClient received).call OriginPaths.plainUri insertMethod echoDecoder plainCompressors
        dottedSchema greeterService sayHello ⟨(), ()⟩ ⟨MetadataMap.new, [7], []⟩ = .ok got ∧
      got.message = [7, 7] := by
  have mem : ⟨sayHello, ⟨(), ()⟩, fun r => .ok ⟨MetadataMap.new, r.message ++ r.message⟩⟩ ∈
      greeter.inner := List.mem_cons_of_mem _ List.mem_cons_self
  let client := greeterClient ⟨200, [], ⟨[], .eof⟩⟩
  obtain ⟨sent, prepared⟩ : ∃ sent, (client.grpc OriginPaths.plainUri ⟨(), ()⟩).prepareRequest
      ((client.grpc OriginPaths.plainUri ⟨(), ()⟩).encodeRequest ((withExtensions
        (⟨MetadataMap.new, [7], []⟩ : Request (List String) Bytes)
        (insertMethod greeter.name sayHello.name [])).map (schedule .none)))
      (greeter.path sayHello) = .ok sent := ⟨_, rfl⟩
  let req : HttpRequest Unit (Body Status) :=
    ⟨⟨sent.parts.path, sent.parts.headers, ()⟩, ⟨[.data [0, 0, 0, 0, 1, 7]], .eof⟩⟩
  have delivered : Delivered echoEncoder plainCompressors sent req := by
    cases prepared
    refine ⟨rfl, fun _ _ => rfl, ?_⟩
    show Carries (EncodeBody.pollFrame echoEncoder plainCompressors)
      (.newClient () (paced [some [7]]) none none) ([0, 0, 0, 0, 1, 7] ++ []) .eof
    exact .data rfl (.eof rfl)
  have path : req.parts.path = greeter.path sayHello := by
    cases prepared
    decide
  have answerFits : Fits echoEncoder plainCompressors none none none () [[7, 7]] :=
    ⟨⟨_, rfl, by decide, by decide, by decide⟩, trivial⟩
  have own := path.trans (method_path_same greeter mem).symm
  have plain : ∀ e, (client.grpc OriginPaths.plainUri (⟨(), ()⟩ : Codec Unit Unit)).sendCompressionEncoding =
      some e → (serverGrpc (⟨(), ()⟩ : Codec Unit Unit)).acceptCompressionEncodings.isEnabled e = true :=
    by intro _ wrong; cases wrong
  obtain ⟨answer, asked, served⟩ := delivered_asks echoEncoder echoDecoder plainCompressors
    echo_in_step plain_inverse trivial prepared delivered plain echo_fits
    (.unary fun r => .ok ⟨MetadataMap.new, r.message ++ r.message⟩)
  cases asked
  obtain ⟨headers, answered, _⟩ := map_response_headers (U := Bytes) (serverGrpc (⟨(), ()⟩ : Codec Unit Unit))
    ⟨MetadataMap.new, once [7, 7]⟩ none
  obtain ⟨trailers, _, carries⟩ := source_carries echoEncoder plainCompressors none none none ()
    (once [7, 7]) answerFits
  let received : HttpResponse (Body Status) := ⟨200, headers, ⟨[.data (writeAll
    (framesOf echoEncoder plainCompressors none () [[7, 7]]))], .trailers trailers⟩⟩
  have returned : ResponseArrives echoEncoder plainCompressors
      ((Router.build greeterRoutes).call greeterCall [("/hello.Greeter", ())] req) received := by
    rw [routed echoDecoder plainCompressors greeter_routes own rfl, Server.call, path,
      arm_found greeter mem]
    change ResponseArrives echoEncoder plainCompressors (serve echoDecoder plainCompressors _
      (.unary fun r => .ok ⟨MetadataMap.new, r.message ++ r.message⟩) req) received
    rw [served, server_sends_plain]
    change ResponseArrives echoEncoder plainCompressors
      ((serverGrpc ⟨(), ()⟩).mapResponse (.ok ⟨MetadataMap.new, once [7, 7]⟩) none) received
    rw [answered]
    have data : received.body.data =
        writeAll (framesOf echoEncoder plainCompressors none () [[7, 7]]) := List.append_nil _
    exact ⟨rfl, rfl, data ▸ carries⟩
  obtain ⟨metadata, answer, _, asked, told⟩ := generated_call_refines echoEncoder echoDecoder
    echoEncoder echoDecoder plainCompressors OriginPaths.plainUri insertMethod echo_in_step
    echo_in_step plain_inverse greeter_routes mem trivial trivial (rfl : (greeterClient received).ready = .ok ()) rfl
    ⟨MetadataMap.new, [7], []⟩ prepared delivered returned rfl echo_fits
  cases asked
  have single : Single _ ((greeterClient received).call OriginPaths.plainUri insertMethod echoDecoder
      plainCompressors dottedSchema greeterService sayHello ⟨(), ()⟩
      (⟨MetadataMap.new, [7], []⟩ : Request (List String) Bytes)) :=
    told (by intro _ wrong; cases wrong) answerFits
  cases got : (greeterClient received).call OriginPaths.plainUri insertMethod echoDecoder
      plainCompressors dottedSchema greeterService sayHello ⟨(), ()⟩
      (⟨MetadataMap.new, [7], []⟩ : Request (List String) Bytes) with
  | error e =>
    have message := single.message
    rw [got] at message
    exact message.elim
  | ok response =>
    have message := single.message
    rw [got] at message
    exact ⟨received, response, ⟨req, returned⟩, got, message⟩

def missing : MethodDef := ⟨⟨"Missing", "Bytes", "Bytes", .bidi, "Codec"⟩, none⟩

/-- A client of a later schema calls a method that the server has not heard of. -/
theorem missing_call_refused :
    ∃ received e, (∃ req, ResponseArrives echoEncoder plainCompressors
        ((Router.build greeterRoutes).call greeterCall [("/hello.Greeter", ())] req) received) ∧
      (greeterClient received).call OriginPaths.plainUri insertMethod echoDecoder plainCompressors
        dottedSchema greeterService missing ⟨(), ()⟩ ⟨MetadataMap.new, [some [7]], []⟩ = .error e ∧
      e.Agrees (.unimplemented "method not found") := by
  have serviceName : (dottedSchema.fullyQualifiedName greeterService).toList.all isNameChar = true := by
    decide
  have methodName : missing.name.toList.all isNameChar = true := by decide
  have unserved : Unserved echoDecoder plainCompressors
      ⟨dottedSchema.fullyQualifiedName greeterService, missing.name, serviceName, methodName⟩
      greeterCall greeterRoutes [("/hello.Greeter", ())] (.unimplemented "method not found") :=
    .method greeter_routes rfl (by
      show ∀ known ∈ [countDown, sayHello], known.name ≠ "Missing"
      decide)
  obtain ⟨sent, prepared⟩ : ∃ sent, ((greeterClient ⟨200, [], ⟨[], .eof⟩⟩).grpc OriginPaths.plainUri
      ⟨(), ()⟩).prepareRequest (((greeterClient ⟨200, [], ⟨[], .eof⟩⟩).grpc OriginPaths.plainUri
        (⟨(), ()⟩ : Codec Unit Unit)).encodeRequest ((withExtensions
        (⟨MetadataMap.new, [some [7]], []⟩ : Request (List String) (List (Option Bytes)))
        (insertMethod (dottedSchema.fullyQualifiedName greeterService) missing.name [])).map
          (schedule .bidi))) (dottedSchema.grpcPath missing
            (dottedSchema.fullyQualifiedName greeterService)) = .ok sent := ⟨_, rfl⟩
  let req : HttpRequest Unit (Body Status) :=
    ⟨⟨sent.parts.path, sent.parts.headers, ()⟩, ⟨[.data [0, 0, 0, 0, 1, 7]], .eof⟩⟩
  have delivered : Delivered echoEncoder plainCompressors sent req := by
    cases prepared
    refine ⟨rfl, fun _ _ => rfl, ?_⟩
    show Carries (EncodeBody.pollFrame echoEncoder plainCompressors)
      (.newClient () (paced [some [7]]) none none) ([0, 0, 0, 0, 1, 7] ++ []) .eof
    exact .data rfl (.eof rfl)
  obtain ⟨headers, refused, _⟩ :=
    into_http_written (σ := Unit) (U := Bytes) (.unimplemented "method not found")
  have path : req.parts.path = "/hello.Greeter/Missing" := by
    cases prepared
    decide
  have returned : ResponseArrives echoEncoder plainCompressors
      ((Router.build greeterRoutes).call greeterCall [("/hello.Greeter", ())] req)
      ⟨200, headers, ⟨[], .eof⟩⟩ := by
    rw [unserved_answer echoDecoder plainCompressors unserved path, refused]
    exact ⟨rfl, rfl, .eof rfl⟩
  have told := unserved_call_refused echoEncoder echoDecoder echoEncoder echoDecoder plainCompressors
    OriginPaths.plainUri insertMethod serviceName methodName unserved
    (rfl : (greeterClient ⟨200, headers, ⟨[], .eof⟩⟩).ready = .ok ()) rfl ⟨MetadataMap.new, [some [7]], []⟩
    prepared delivered returned rfl
  have streamed : Streamed echoDecoder plainCompressors (.refused (.unimplemented "method not found"))
      ((greeterClient ⟨200, headers, ⟨[], .eof⟩⟩).call OriginPaths.plainUri insertMethod echoDecoder
        plainCompressors dottedSchema greeterService missing ⟨(), ()⟩
        (⟨MetadataMap.new, [some [7]], []⟩ : Request (List String) (List (Option Bytes)))) := told
  cases got : (greeterClient ⟨200, headers, ⟨[], .eof⟩⟩).call OriginPaths.plainUri insertMethod
      echoDecoder plainCompressors dottedSchema greeterService missing ⟨(), ()⟩
      (⟨MetadataMap.new, [some [7]], []⟩ : Request (List String) (List (Option Bytes))) with
  | error e =>
    rw [got] at streamed
    exact ⟨_, e, ⟨req, returned⟩, got, streamed⟩
  | ok response =>
    rw [got] at streamed
    exact streamed.elim

end Greeter

end GeneratedCalls
