import PureGrpc.MessageClosure
import PureGrpc.ServerItems

/-!
The stubs generated for a FlatBuffers schema. They stand at the root of a crate beside the
private module of the generated types: an alias for each message the methods need and for each
enum, an implementation for each message a method takes or returns, and two modules for each
service. Nothing compares the names, and nothing looks for what a type names.
-/
namespace FlatStubs
open FallibleLoops Worklists MessageClosure ServerItems Relation

structure EnumDef where
  name : String
  ns : Option String
  isUnion : Bool

structure SchemaDef where
  messages : List MessageDef
  enums : List EnumDef
  services : List ServiceDef

def SchemaDef.walked (schema : SchemaDef) : MessageClosure.SchemaDef where
  messages := schema.messages
  services := schema.services.map fun svc =>
    ⟨svc.name, svc.package, svc.methods.map MethodDef.toMethodDef⟩

section Client

structure ClientModule where
  name : String
  imports : List String
  client : String
  functions : List String
  deriving DecidableEq, Repr

def clientImports (service : ServiceDef) : List String :=
  ["Grpc", "GrpcService", "Body"] ++
    (if service.methods.any fun m => m.streaming = .server || m.streaming = .bidi
      then ["Streaming"] else []) ++
    ["GrpcMethod", "IntoRequest"] ++
    (if service.methods.any fun m => m.streaming = .client || m.streaming = .bidi
      then ["IntoStreamingRequest"] else []) ++
    ["Response", "Status", "PathAndQuery", "HttpBody"]

def fixedFunctions : List String := ["connect", "new", "with_origin"]

def clientModule (n : Naming) (service : ServiceDef) : ClientModule :=
  ⟨n.toSnakeCase service.name ++ "_client", clientImports service, service.name ++ "Client",
    fixedFunctions ++ service.methods.map n.rustName⟩

def generateClient (n : Naming) (service : ServiceDef) : Except String ClientModule :=
  match n.validate service with
  | [] => .ok (clientModule n service)
  | errors => .error ("invalid ServiceDef for client codegen: " ++ "; ".intercalate errors)

/-- No two items of the module have one name, and no two functions of its client; connect is
    a function of the client of one channel, which is a client of any. -/
def ClientModule.Distinct (module : ClientModule) : Prop :=
  (module.imports ++ [module.client]).Nodup ∧ module.functions.Nodup

theorem client_imports_plain (service : ServiceDef) : (clientImports service).Nodup ∧
    ∀ x ∈ clientImports service, ¬ "Client".toList <:+ x.toList := by
  unfold clientImports
  split
  · split <;> decide
  · split <;> decide

theorem client_distinct_iff (n : Naming) (service : ServiceDef) :
    (clientModule n service).Distinct ↔ (service.methods.map n.rustName).Nodup ∧
      ∀ m ∈ service.methods, n.rustName m ∉ fixedFunctions := by
  obtain ⟨imports, plain⟩ := client_imports_plain service
  have items : (clientImports service ++ [service.name ++ "Client"]).Nodup := by
    apply List.nodup_append.mpr
    refine ⟨imports, List.nodup_singleton _, ?_⟩
    intro x mem y made same
    subst same
    cases List.mem_singleton.mp made
    exact plain _ mem (ends_append _ _)
  have fixed : fixedFunctions.Nodup := by decide
  unfold ClientModule.Distinct clientModule
  rw [and_iff_right items, List.nodup_append, and_iff_right fixed]
  constructor
  · intro distinct
    obtain ⟨names, apart⟩ := distinct
    refine ⟨names, ?_⟩
    intro m mem taken
    exact apart _ taken _ (List.mem_map_of_mem mem) rfl
  · intro distinct
    obtain ⟨names, free⟩ := distinct
    refine ⟨names, ?_⟩
    intro x taken y made same
    obtain ⟨m, mem, named⟩ := List.mem_map.mp made
    exact free m mem (by rw [named, ← same]; exact taken)

end Client

section Paths

/-- An item of the crate's root. A module comes with the types its methods name. -/
inductive RootItem where
  | reExport (path : List String) (ident : String)
  | messageImpl (ident : String) (owned reader : List String) (errLabel : String)
  | serverModule (module : ServerModule) (types : List String)
  | clientModule (module : ClientModule) (types : List String)

variable (n : Naming)

/-- A path into the private module, the namespace's parts as modules of it. -/
def generatedPathTokens (ns : Option String) (name : String) (owned : Bool) : List String :=
  let parts := match ns.filter (· ≠ "") with
    | some ns => (ns.toList.splitOn '.').map fun part => n.toSnakeCase (String.ofList part)
    | none => []
  "generated" :: parts ++ [if owned then name ++ "T" else name]

def messageExport (m : MessageDef) : RootItem :=
  .reExport (generatedPathTokens n m.ns m.name true) m.name

def enumExport (en : EnumDef) : RootItem :=
  .reExport (generatedPathTokens n en.ns en.name false) en.name

def messageImplOf (id : String) : RootItem :=
  let ns := (splitQualified id).1
  let name := (splitQualified id).2
  .messageImpl name (generatedPathTokens n ns name true) (generatedPathTokens n ns name false)
    ("invalid " ++ name ++ ": \x7be\x7d")

end Paths

section Lexing

/-- What a generator makes of a text in the schema: an identifier, or the tokens of a field. -/
inductive Demand where
  | ident (text : String)
  | tokens (field text : String)
  deriving DecidableEq, Repr

/-- Why the crate of tokens refuses to make an identifier or tokens of a text, if it does. -/
structure Lexing where
  formatIdent : String → Option String
  parse : String → Option String

def Lexing.refuses (lex : Lexing) : Demand → Option String
  | .ident text => lex.formatIdent text
  | .tokens field text =>
    (lex.parse text).map fun e => "invalid " ++ field ++ " `" ++ text ++ "`: " ++ e

def Lexing.Takes (lex : Lexing) (demands : List Demand) : Prop :=
  ∀ d ∈ demands, lex.refuses d = none

/-- A refusal is returned, or it is a panic. -/
inductive Refusal where
  | error (text : String)
  | panicked (text : String)
  deriving DecidableEq, Repr

def Lexing.meetAll (lex : Lexing) (demands : List Demand) : Except Refusal Unit :=
  match demands.findSome? lex.refuses with
  | none => .ok ()
  | some text => .error (.panicked text)

theorem meet_all_ok_iff {lex : Lexing} {demands : List Demand} :
    lex.meetAll demands = .ok () ↔ lex.Takes demands := by
  unfold Lexing.meetAll Lexing.Takes
  rw [← List.findSome?_eq_none_iff]
  cases demands.findSome? lex.refuses with
  | none => exact ⟨fun _ => rfl, fun _ => rfl⟩
  | some text => exact ⟨(by intro wrong; cases wrong), (by intro wrong; cases wrong)⟩

theorem meet_all_panics {lex : Lexing} {demands : List Demand} {text : String} :
    lex.meetAll demands ≠ .error (.error text) := by
  intro wrong
  unfold Lexing.meetAll at wrong
  cases refused : demands.findSome? lex.refuses with
  | none =>
    rw [refused] at wrong
    cases wrong
  | some other =>
    rw [refused] at wrong
    cases wrong

variable (n : Naming)

/-- What is made for an item of the root, in order; every part of a path but the private
    module. What is made for the two modules of a service is in their generators. -/
def RootItem.demands : RootItem → List Demand
  | .reExport path ident => (path.tail ++ [ident]).map .ident
  | .messageImpl ident owned reader _ => (owned.tail ++ reader.tail ++ [ident]).map .ident
  | .serverModule _ _ => []
  | .clientModule _ _ => []

def inputTokens (m : MethodDef) : Demand := .tokens "input_type" m.inputType

def outputTokens (m : MethodDef) : Demand := .tokens "output_type" m.outputType

def codecTokens (m : MethodDef) : Demand := .tokens "codec_path" m.codecPath

def streamIdents (m : MethodDef) : List Demand :=
  if m.streamsResponse then [.ident (responseStreamIdent m.name)] else []

def genTraitAssocType (m : MethodDef) : List Demand :=
  [.ident (responseStreamIdent m.name), outputTokens m]

def genTraitMethod (m : MethodDef) : List Demand :=
  [.ident (n.rustName m), inputTokens m, outputTokens m] ++ streamIdents m

def genSvcStruct (m : MethodDef) : List Demand :=
  [.ident (n.svcName m), .ident (n.rustName m), inputTokens m, outputTokens m] ++ streamIdents m

def genDispatchArm (m : MethodDef) : List Demand :=
  [.ident (n.svcName m), codecTokens m, inputTokens m, outputTokens m]

def genRpcMethod (m : MethodDef) : List Demand :=
  [.ident (n.rustName m), codecTokens m, inputTokens m, outputTokens m]

/-- The methods are gone through four times, as the parts of the module come. -/
def serverDemands (svc : ServiceDef) : List Demand :=
  [.ident svc.name, .ident (svc.name ++ "Server"), .ident (n.toSnakeCase svc.name ++ "_server")] ++
    (svc.methods.filter MethodDef.streamsResponse).flatMap genTraitAssocType ++
    svc.methods.flatMap (genTraitMethod n) ++ svc.methods.flatMap (genSvcStruct n) ++
    svc.methods.flatMap (genDispatchArm n)

def clientDemands (svc : ServiceDef) : List Demand :=
  [.ident (svc.name ++ "Client"), .ident (n.toSnakeCase svc.name ++ "_client")] ++
    svc.methods.flatMap (genRpcMethod n)

end Lexing

section Generating
variable (n : Naming) (lex : Lexing) (streamingMode : MethodDef → String)

def fbCodecPath : String := "grpc_codec_flatbuffers::FlatBuffersCodec"

def rewriteMethod (m : MethodDef) : MethodDef :=
  { m with inputType := "super::" ++ m.inputType, outputType := "super::" ++ m.outputType,
           codecPath := fbCodecPath }

def streamingRefused (m : MethodDef) : String :=
  "FlatBuffers gRPC stub generator does not yet support streaming RPC `" ++ m.name ++
    "` (mode: " ++ streamingMode m ++ ")"

def methodToIr (m : MethodDef) : Except String (List MethodDef) :=
  if m.streaming ≠ .none then .error (streamingRefused streamingMode m) else .ok [rewriteMethod m]

def serviceToIr (svc : ServiceDef) : Except String ServiceDef := do
  let methods ← gather (methodToIr streamingMode) svc.methods
  return { svc with methods }

def methodTypes (svc : ServiceDef) : List String :=
  svc.methods.flatMap fun m => [m.inputType, m.outputType]

def serviceStubs (svc : ServiceDef) : Except Refusal (List RootItem) := do
  let ir ← (serviceToIr streamingMode svc).mapError .error
  let server ← (ServerItems.generate n ir).mapError .panicked
  lex.meetAll (serverDemands n ir)
  let client ← (generateClient n ir).mapError .panicked
  lex.meetAll (clientDemands n ir)
  return [.serverModule server (methodTypes ir), .clientModule client (methodTypes ir)]

def SchemaDef.needed (schema : SchemaDef) : List MessageDef :=
  schema.messages.filter fun m => m.id ∈ collectRpcRelevantMessages schema.walked

def SchemaDef.plainEnums (schema : SchemaDef) : List EnumDef :=
  schema.enums.filter fun en => !en.isUnion

def rootItems (schema : SchemaDef) : List RootItem :=
  schema.needed.map (messageExport n) ++ schema.plainEnums.map (enumExport n) ++
    (rpcIoNames schema.walked).map (messageImplOf n)

def generateGrpcStubs (schema : SchemaDef) : Except Refusal (List RootItem) := do
  lex.meetAll ((rootItems n schema).flatMap RootItem.demands)
  let modules ← gather (serviceStubs n lex streamingMode) schema.services
  return rootItems n schema ++ modules

end Generating

section Outcomes
variable {n : Naming} {lex : Lexing} {streamingMode : MethodDef → String}

def rewritten (svc : ServiceDef) : ServiceDef :=
  { svc with methods := svc.methods.map rewriteMethod }

/-- Every method is unary, the rewritten definition has no errors, and its names and types are
    identifiers and tokens. -/
structure Supported (n : Naming) (lex : Lexing) (svc : ServiceDef) : Prop where
  unary : ∀ m ∈ svc.methods, m.streaming = .none
  valid : n.validate (rewritten svc) = []
  server : lex.Takes (serverDemands n (rewritten svc))
  client : lex.Takes (clientDemands n (rewritten svc))

/-- The names of the aliases and the parts of their paths are identifiers. -/
def RootLexes (n : Naming) (lex : Lexing) (schema : SchemaDef) : Prop :=
  lex.Takes ((rootItems n schema).flatMap RootItem.demands)

def stubsOf (n : Naming) (svc : ServiceDef) : List RootItem :=
  [.serverModule ⟨n.toSnakeCase svc.name ++ "_server", n.items (rewritten svc)⟩
      (methodTypes (rewritten svc)),
    .clientModule (clientModule n (rewritten svc)) (methodTypes (rewritten svc))]

def allStubs (n : Naming) (schema : SchemaDef) : List RootItem :=
  rootItems n schema ++ schema.services.flatMap (stubsOf n)

theorem method_to_ir_unary {m : MethodDef} (unary : m.streaming = .none) :
    methodToIr streamingMode m = .ok [rewriteMethod m] := by
  simp [methodToIr, unary]

theorem method_to_ir_ok_iff {m : MethodDef} :
    (∃ here, methodToIr streamingMode m = .ok here) ↔ m.streaming = .none := by
  unfold methodToIr
  split
  · rename_i streams
    simp [streams]
  · rename_i unary
    simp [not_not.mp unary]

theorem method_to_ir_error_iff {m : MethodDef} {text : String} :
    methodToIr streamingMode m = .error text ↔
      m.streaming ≠ .none ∧ text = streamingRefused streamingMode m := by
  unfold methodToIr
  split
  · rename_i streams
    simp [streams, eq_comm]
  · rename_i unary
    simp [not_not.mp unary]

theorem service_to_ir_unary {svc : ServiceDef} (unary : ∀ m ∈ svc.methods, m.streaming = .none) :
    serviceToIr streamingMode svc = .ok (rewritten svc) := by
  unfold serviceToIr
  rw [gather_total fun m mem => method_to_ir_unary (unary m mem), ← List.map_eq_flatMap]
  rfl

theorem service_to_ir_error_iff {svc : ServiceDef} {text : String} :
    serviceToIr streamingMode svc = .error text ↔ ∃ front m back,
      svc.methods = front ++ m :: back ∧ (∀ u ∈ front, u.streaming = .none) ∧
      m.streaming ≠ .none ∧ text = streamingRefused streamingMode m := by
  have passed_on : serviceToIr streamingMode svc = .error text ↔
      gather (methodToIr streamingMode) svc.methods = .error text := by
    unfold serviceToIr
    cases gather (methodToIr streamingMode) svc.methods with
    | error e =>
      have fails : (Except.error e >>= fun methods => pure { svc with methods }) =
          (.error e : Except String ServiceDef) := rfl
      rw [fails, Except.error.injEq, Except.error.injEq]
    | ok methods => exact ⟨(by intro wrong; cases wrong), (by intro wrong; cases wrong)⟩
  rw [passed_on, gather_error_iff]
  simp only [method_to_ir_ok_iff, method_to_ir_error_iff]

theorem service_stubs_supported {svc : ServiceDef} (supported : Supported n lex svc) :
    serviceStubs n lex streamingMode svc = .ok (stubsOf n svc) := by
  unfold serviceStubs ServerItems.generate generateClient
  rw [service_to_ir_unary supported.unary]
  simp only [Except.mapError, bind, Except.bind, supported.valid,
    meet_all_ok_iff.mpr supported.server, meet_all_ok_iff.mpr supported.client]
  rfl

theorem service_stubs_ok_iff {svc : ServiceDef} :
    (∃ here, serviceStubs n lex streamingMode svc = .ok here) ↔ Supported n lex svc := by
  constructor
  · intro made
    obtain ⟨here, run⟩ := made
    obtain ⟨ir, converted, run⟩ := bind_ok run
    obtain ⟨server, generated, run⟩ := bind_ok run
    obtain ⟨_, served, run⟩ := bind_ok run
    obtain ⟨client, _, run⟩ := bind_ok run
    obtain ⟨_, called, _⟩ := bind_ok run
    have unary : ∀ m ∈ svc.methods, m.streaming = .none := by
      obtain ⟨methods, gathered, _⟩ := bind_ok (map_error_ok converted)
      intro m mem
      exact method_to_ir_ok_iff.mp ((gather_ok gathered).1 m mem)
    cases (service_to_ir_unary unary).symm.trans (map_error_ok converted)
    have valid := map_error_ok generated
    unfold ServerItems.generate at valid
    split at valid
    · rename_i none
      exact ⟨unary, none, meet_all_ok_iff.mp served, meet_all_ok_iff.mp called⟩
    · cases valid
  · intro supported
    exact ⟨_, service_stubs_supported supported⟩

theorem panicked_not_returned {α : Type} {x : Except String α} {text : String} :
    x.mapError .panicked ≠ .error (Refusal.error text) := by
  intro wrong
  cases x with
  | error e => cases wrong
  | ok a => cases wrong

theorem service_stubs_error_iff {svc : ServiceDef} {text : String} :
    serviceStubs n lex streamingMode svc = .error (.error text) ↔
      serviceToIr streamingMode svc = .error text := by
  constructor
  · intro failed
    rcases bind_error failed with conversion | ⟨ir, _, failed⟩
    · cases converted : serviceToIr streamingMode svc with
      | error e =>
        rw [converted] at conversion
        cases conversion
        rfl
      | ok ir =>
        rw [converted] at conversion
        cases conversion
    -- what is behind it panics
    · exfalso
      rcases bind_error failed with server | ⟨_, _, failed⟩
      · exact panicked_not_returned server
      rcases bind_error failed with served | ⟨_, _, failed⟩
      · exact meet_all_panics served
      rcases bind_error failed with client | ⟨_, _, failed⟩
      · exact panicked_not_returned client
      rcases bind_error failed with called | ⟨_, _, failed⟩
      · exact meet_all_panics called
      cases failed
  · intro failed
    unfold serviceStubs
    rw [failed]
    rfl

theorem generated_iff {schema : SchemaDef} {stubs : List RootItem} :
    generateGrpcStubs n lex streamingMode schema = .ok stubs ↔ RootLexes n lex schema ∧
      (∀ svc ∈ schema.services, Supported n lex svc) ∧ stubs = allStubs n schema := by
  have whole (lexes : RootLexes n lex schema)
      (supported : ∀ svc ∈ schema.services, Supported n lex svc) :
      generateGrpcStubs n lex streamingMode schema = .ok (allStubs n schema) := by
    unfold generateGrpcStubs
    rw [meet_all_ok_iff.mpr lexes,
      gather_total fun svc mem => service_stubs_supported (supported svc mem)]
    rfl
  constructor
  · intro run
    obtain ⟨_, met, rest⟩ := bind_ok run
    obtain ⟨modules, gathered, _⟩ := bind_ok rest
    have lexes := meet_all_ok_iff.mp met
    have supported : ∀ svc ∈ schema.services, Supported n lex svc := by
      intro svc mem
      exact service_stubs_ok_iff.mp ((gather_ok gathered).1 svc mem)
    cases (whole lexes supported).symm.trans run
    exact ⟨lexes, supported, rfl⟩
  · intro made
    obtain ⟨lexes, supported, rfl⟩ := made
    exact whole lexes supported

theorem stubs_error_iff {schema : SchemaDef} {text : String} :
    generateGrpcStubs n lex streamingMode schema = .error (.error text) ↔
      RootLexes n lex schema ∧
      gather (serviceStubs n lex streamingMode) schema.services = .error (.error text) := by
  constructor
  · intro failed
    rcases bind_error failed with root | ⟨_, met, failed⟩
    · exact absurd root meet_all_panics
    rcases bind_error failed with served | ⟨_, _, failed⟩
    · exact ⟨meet_all_ok_iff.mp met, served⟩
    · cases failed
  · intro failed
    unfold generateGrpcStubs
    rw [meet_all_ok_iff.mpr failed.1, failed.2]
    rfl

end Outcomes

/-- Stubs come out exactly if the root's names are identifiers and every service is supported.
    An error is returned exactly if the root's names are, the services in front of some service
    are supported and a method of it streams, and it names the first such method; any other
    failure is a panic. -/
theorem stubs_refused_iff (n : Naming) (lex : Lexing) (streamingMode : MethodDef → String)
    (schema : SchemaDef) :
    ((∃ stubs, generateGrpcStubs n lex streamingMode schema = .ok stubs) ↔
      RootLexes n lex schema ∧ ∀ svc ∈ schema.services, Supported n lex svc) ∧
    ∀ text, generateGrpcStubs n lex streamingMode schema = .error (.error text) ↔
      RootLexes n lex schema ∧
      ∃ before svc after front m back, schema.services = before ++ svc :: after ∧
        (∀ other ∈ before, Supported n lex other) ∧ svc.methods = front ++ m :: back ∧
        (∀ u ∈ front, u.streaming = .none) ∧ m.streaming ≠ .none ∧
        text = streamingRefused streamingMode m := by
  constructor
  · constructor
    · intro made
      obtain ⟨stubs, run⟩ := made
      obtain ⟨lexes, supported, _⟩ := generated_iff.mp run
      exact ⟨lexes, supported⟩
    · intro accepted
      exact ⟨_, generated_iff.mpr ⟨accepted.1, accepted.2, rfl⟩⟩
  · intro text
    rw [stubs_error_iff, gather_error_iff]
    simp only [service_stubs_ok_iff, service_stubs_error_iff, service_to_ir_error_iff]
    constructor
    · intro failed
      obtain ⟨lexes, before, svc, after, split, passed, front, m, back, methods, unary, streams,
        told⟩ := failed
      exact ⟨lexes, before, svc, after, front, m, back, split, passed, methods, unary, streams,
        told⟩
    · intro failed
      obtain ⟨lexes, before, svc, after, front, m, back, split, passed, methods, unary, streams,
        told⟩ := failed
      exact ⟨lexes, before, svc, after, split, passed, front, m, back, methods, unary, streams,
        told⟩

section Roots

def RootItem.ident : RootItem → Option String
  | .reExport _ ident => some ident
  | .messageImpl _ _ _ _ => none
  | .serverModule module _ => some module.name
  | .clientModule module _ => some module.name

def RootItem.implemented : RootItem → Option String
  | .messageImpl ident _ _ _ => some ident
  | _ => none

def RootItem.types : RootItem → List String
  | .serverModule _ types => types
  | .clientModule _ types => types
  | _ => []

/-- What a type in a module names: an alias of the root that has an implementation. -/
def Resolves (stubs : List RootItem) (type : String) : Prop :=
  ∃ ident, type = "super::" ++ ident ∧
    ∃ owned reader errLabel, .messageImpl ident owned reader errLabel ∈ stubs

/-- No name is declared twice, at the root, in a module or in a client; each implementation is
    the one of its alias and packs what the alias stands for; each type resolves. -/
structure WellScoped (stubs : List RootItem) : Prop where
  idents : ("generated" :: stubs.filterMap RootItem.ident).Nodup
  servers : ∀ module types, .serverModule module types ∈ stubs → Distinct module
  clients : ∀ module types, .clientModule module types ∈ stubs → module.Distinct
  coherent : (stubs.filterMap RootItem.implemented).Nodup
  impls : ∀ ident owned reader errLabel, .messageImpl ident owned reader errLabel ∈ stubs →
    .reExport owned ident ∈ stubs
  types : ∀ type ∈ stubs.flatMap RootItem.types, Resolves stubs type

def SchemaDef.aliases (schema : SchemaDef) : List String :=
  schema.needed.map (·.name) ++ schema.plainEnums.map (·.name)

def serverName (n : Naming) (svc : ServiceDef) : String := n.toSnakeCase svc.name ++ "_server"

def clientName (n : Naming) (svc : ServiceDef) : String := n.toSnakeCase svc.name ++ "_client"

/-- The names in a service that keep the items of its two modules apart. -/
structure ItemsApart (n : Naming) (svc : ServiceDef) : Prop where
  unreserved : svc.name ∉ reserved (rewritten svc)
  notSvc : ∀ m ∈ svc.methods, svc.name ≠ n.camelName (rewriteMethod m) ++ "Svc"
  camel : (svc.methods.map fun m => n.camelName (rewriteMethod m)).Nodup
  free : ∀ m ∈ svc.methods, n.rustName (rewriteMethod m) ∉ fixedFunctions

/-- The names in a schema that keep the generated ones apart, and what its methods' types are:
    bare names of messages. -/
structure ScopesApart (n : Naming) (schema : SchemaDef) : Prop where
  aliases : ("generated" :: schema.aliases).Nodup
  modules : (schema.services.map fun svc => n.toSnakeCase svc.name).Nodup
  apart : ∀ svc ∈ schema.services,
    serverName n svc ∉ schema.aliases ∧ clientName n svc ∉ schema.aliases
  services : ∀ svc ∈ schema.services, ItemsApart n svc
  types : ∀ type ∈ schema.walked.rpcTypes, bareName type = type ∧
    ∃ m ∈ schema.messages, m.name = type

end Roots

section Segments

theorem before_colons_again (chars : List Char) :
    beforeColons (beforeColons chars) = beforeColons chars := by
  induction chars using beforeColons.induct with
  | case1 rest => rfl
  | case2 c rest single ih =>
    rw [beforeColons.eq_2 c rest single, beforeColons.eq_2, ih]
    -- after a colon that stays comes no other
    intro tail colon next
    cases rest with
    | nil => cases next
    | cons d rest =>
      have other : d ≠ ':' := by
        intro same
        exact single rest colon (by rw [same])
      rw [beforeColons.eq_2 d rest fun _ same _ => other same] at next
      exact other (List.cons.inj next).1
  | case3 => rfl

theorem bare_name_again (raw : String) : bareName (bareName raw) = bareName raw := by
  unfold bareName
  rw [String.toList_ofList, List.reverse_reverse, before_colons_again]

end Segments

section Messages
variable {schema : SchemaDef} {m : MessageDef} {id type : String}

theorem mem_io : id ∈ rpcIoNames schema.walked ↔ ∃ raw ∈ schema.walked.rpcTypes,
    ∃ m, firstNamed schema.walked (bareName raw) = some m ∧ m.id = id := by
  simp [rpcIoNames, collectRpcIoMessages, qualifyMessage]

theorem first_named_plain (plain : PlainNames schema.walked)
    (found : firstNamed schema.walked type = some m) :
    m ∈ schema.messages ∧ m.name = type ∧ '.' ∉ m.name.toList := by
  have mem := List.mem_of_find?_eq_some found
  exact ⟨mem, by simpa using List.find?_some found, plain m mem⟩

/-- A plain name is what is behind the last dot of the message's identifier, and the front is
    its namespace as a path is made from it. -/
theorem split_id (plain : '.' ∉ m.name.toList) (n : Naming) (owned : Bool) :
    (splitQualified m.id).2 = m.name ∧
      generatedPathTokens n (splitQualified m.id).1 m.name owned =
        generatedPathTokens n m.ns m.name owned := by
  have filtered {ns own : Option String} (same : ns.filter (· ≠ "") = own.filter (· ≠ "")) :
      generatedPathTokens n ns m.name owned = generatedPathTokens n own m.name owned := by
    unfold generatedPathTokens
    rw [same]
  by_cases root : m.Root
  · rw [root_id root, split_plain plain]
    exact ⟨rfl, filtered root.symm⟩
  · obtain ⟨ns, given, joined⟩ := joined_id root
    rw [joined, split_joined ns plain]
    refine ⟨rfl, filtered ?_⟩
    rw [given, Option.filter_some, if_pos (Option.filter_eq_some_iff.mp given).2]

theorem first_named_needed (mem : type ∈ schema.walked.rpcTypes)
    (found : firstNamed schema.walked (bareName type) = some m) : m ∈ schema.needed := by
  unfold SchemaDef.needed
  rw [List.mem_filter]
  refine ⟨List.mem_of_find?_eq_some found, decide_eq_true ?_⟩
  exact mem_collect.mpr ⟨type, mem, m, found, ReflTransGen.refl⟩

theorem impl_mem_iff (n : Naming) {ident errLabel : String} {owned reader : List String} :
    .messageImpl ident owned reader errLabel ∈ allStubs n schema ↔
      ∃ raw ∈ schema.walked.rpcTypes, ∃ m, firstNamed schema.walked (bareName raw) = some m ∧
        messageImplOf n m.id = .messageImpl ident owned reader errLabel := by
  have members : .messageImpl ident owned reader errLabel ∈ allStubs n schema ↔
      ∃ id ∈ rpcIoNames schema.walked,
        messageImplOf n id = .messageImpl ident owned reader errLabel := by
    simp [allStubs, rootItems, messageExport, enumExport, stubsOf]
  rw [members]
  constructor
  · intro made
    obtain ⟨id, mem, same⟩ := made
    obtain ⟨raw, typed, m, found, rfl⟩ := mem_io.mp mem
    exact ⟨raw, typed, m, found, same⟩
  · intro made
    obtain ⟨raw, typed, m, found, same⟩ := made
    exact ⟨m.id, mem_io.mpr ⟨raw, typed, m, found, rfl⟩, same⟩

theorem export_mem_iff (n : Naming) {path : List String} {ident : String} :
    .reExport path ident ∈ allStubs n schema ↔
      (∃ m ∈ schema.needed, messageExport n m = .reExport path ident) ∨
      ∃ en ∈ schema.plainEnums, enumExport n en = .reExport path ident := by
  simp [allStubs, rootItems, messageImplOf, stubsOf]

theorem server_mem_iff (n : Naming) {module : ServerModule} {types : List String} :
    .serverModule module types ∈ allStubs n schema ↔ ∃ svc ∈ schema.services,
      module = ⟨n.toSnakeCase svc.name ++ "_server", n.items (rewritten svc)⟩ ∧
      types = methodTypes (rewritten svc) := by
  simp [allStubs, rootItems, messageExport, enumExport, messageImplOf, stubsOf]

theorem client_mem_iff (n : Naming) {module : ClientModule} {types : List String} :
    .clientModule module types ∈ allStubs n schema ↔ ∃ svc ∈ schema.services,
      module = clientModule n (rewritten svc) ∧ types = methodTypes (rewritten svc) := by
  simp [allStubs, rootItems, messageExport, enumExport, messageImplOf, stubsOf]

end Messages

section Scopes
variable {n : Naming} {schema : SchemaDef} {svc : ServiceDef}

theorem root_idents (n : Naming) (schema : SchemaDef) :
    (allStubs n schema).filterMap RootItem.ident = schema.aliases ++
      schema.services.flatMap fun svc => [serverName n svc, clientName n svc] := by
  have messages : (schema.needed.map (messageExport n)).filterMap RootItem.ident =
      schema.needed.map (·.name) := by
    rw [List.filterMap_map]
    exact congrFun List.filterMap_eq_map _
  have enums : (schema.plainEnums.map (enumExport n)).filterMap RootItem.ident =
      schema.plainEnums.map (·.name) := by
    rw [List.filterMap_map]
    exact congrFun List.filterMap_eq_map _
  have impls (ids : List String) : (ids.map (messageImplOf n)).filterMap RootItem.ident = [] := by
    rw [List.filterMap_map]
    exact List.filterMap_eq_nil_iff.mpr fun _ _ => rfl
  unfold allStubs rootItems SchemaDef.aliases
  simp only [List.filterMap_append, messages, enums, impls, List.append_nil, List.filterMap_flatMap]
  rfl

theorem module_names_nodup_iff (services : List ServiceDef) :
    (services.flatMap fun svc => [serverName n svc, clientName n svc]).Nodup ↔
      (services.map fun svc => n.toSnakeCase svc.name).Nodup := by
  have ends (a b : String) : a ++ "_server" ≠ b ++ "_client" := by
    intro same
    have lasts := congrArg (fun s => s.toList.getLast?) same
    simp at lasts
  have disjoint_iff (a b : ServiceDef) :
      List.Disjoint [serverName n a, clientName n a] [serverName n b, clientName n b] ↔
        n.toSnakeCase a.name ≠ n.toSnakeCase b.name := by
    simp [serverName, clientName, ends, (ends _ _).symm, eq_comm]
  have single (svc : ServiceDef) : [serverName n svc, clientName n svc].Nodup := by
    simp [serverName, clientName, ends]
  rw [List.nodup_flatMap, and_iff_right fun svc _ => single svc, List.Nodup, List.pairwise_map]
  exact List.Pairwise.iff disjoint_iff

theorem rewritten_methods {P : MethodDef → Prop} :
    (∀ m ∈ (rewritten svc).methods, P m) ↔ ∀ m ∈ svc.methods, P (rewriteMethod m) :=
  List.forall_mem_map

theorem items_apart_iff (unary : ∀ m ∈ svc.methods, m.streaming = .none) :
    Distinct ⟨serverName n svc, n.items (rewritten svc)⟩ ∧
      (clientModule n (rewritten svc)).Distinct ↔ ItemsApart n svc := by
  have none_streams : (rewritten svc).methods.filter MethodDef.streamsResponse = [] := by
    apply List.filter_eq_nil_iff.mpr
    intro m mem
    obtain ⟨own, inside, rfl⟩ := List.mem_map.mp mem
    simp [MethodDef.streamsResponse, rewriteMethod, unary own inside]
  have types : ∀ ident types fns,
      .traitDef ident types fns ∈ n.items (rewritten svc) → types.Nodup := by
    intro ident types fns mem
    have made := trait_items.mp mem
    rw [Naming.serviceTrait, none_streams] at made
    cases made
    exact List.nodup_nil
  have rust (names : ((rewritten svc).methods.map n.camelName).Nodup) :
      ((rewritten svc).methods.map n.rustName).Nodup := by
    apply List.Nodup.of_map n.toUpperCamelCase
    rw [List.map_map]
    exact names
  have camel : (rewritten svc).methods.map n.camelName =
      svc.methods.map fun m => n.camelName (rewriteMethod m) := List.map_map
  unfold Distinct
  rw [and_iff_left types, idents_nodup_iff, client_distinct_iff]
  constructor
  · intro distinct
    obtain ⟨⟨unreserved, notSvc, names⟩, _, free⟩ := distinct
    exact ⟨unreserved, rewritten_methods.mp notSvc, camel ▸ names, rewritten_methods.mp free⟩
  · intro apart
    have names : ((rewritten svc).methods.map n.camelName).Nodup := camel ▸ apart.camel
    exact ⟨⟨apart.unreserved, rewritten_methods.mpr apart.notSvc, names⟩, rust names,
      rewritten_methods.mpr apart.free⟩

theorem idents_apart_iff : ("generated" :: (allStubs n schema).filterMap RootItem.ident).Nodup ↔
    ("generated" :: schema.aliases).Nodup ∧
    (schema.services.map fun svc => n.toSnakeCase svc.name).Nodup ∧
    ∀ svc ∈ schema.services,
      serverName n svc ∉ schema.aliases ∧ clientName n svc ∉ schema.aliases := by
  have made {x : String} :
      (x ∈ schema.services.flatMap fun svc => [serverName n svc, clientName n svc]) ↔
      ∃ svc ∈ schema.services, x = serverName n svc ∨ x = clientName n svc := by
    simp
  have other (svc : ServiceDef) :
      "generated" ≠ serverName n svc ∧ "generated" ≠ clientName n svc := by
    constructor
    · intro same
      have lasts := congrArg (fun s => s.toList.getLast?) same
      simp [serverName] at lasts
    · intro same
      have lasts := congrArg (fun s => s.toList.getLast?) same
      simp [clientName] at lasts
  rw [root_idents, ← List.cons_append, List.nodup_append, module_names_nodup_iff]
  constructor
  · intro distinct
    obtain ⟨aliases, modules, apart⟩ := distinct
    refine ⟨aliases, modules, ?_⟩
    intro svc mem
    constructor
    · intro taken
      exact apart _ (List.mem_cons_of_mem _ taken) _ (made.mpr ⟨svc, mem, .inl rfl⟩) rfl
    · intro taken
      exact apart _ (List.mem_cons_of_mem _ taken) _ (made.mpr ⟨svc, mem, .inr rfl⟩) rfl
  · intro distinct
    obtain ⟨aliases, modules, apart⟩ := distinct
    refine ⟨aliases, modules, ?_⟩
    intro x mem y inside same
    subst same
    obtain ⟨svc, served, named⟩ := made.mp inside
    rcases List.mem_cons.mp mem with own | mem
    · subst own
      rcases named with named | named
      · exact (other svc).1 named
      · exact (other svc).2 named
    · rcases named with named | named
      · exact (apart svc served).1 (named ▸ mem)
      · exact (apart svc served).2 (named ▸ mem)

theorem impls_of_exports (plain : PlainNames schema.walked) {ident errLabel : String}
    {owned reader : List String}
    (mem : .messageImpl ident owned reader errLabel ∈ allStubs n schema) :
    .reExport owned ident ∈ allStubs n schema := by
  obtain ⟨raw, typed, m, found, made⟩ := (impl_mem_iff n).mp mem
  obtain ⟨_, _, dotless⟩ := first_named_plain plain found
  obtain ⟨named, path⟩ := split_id dotless n true
  refine (export_mem_iff n).mpr (.inl ⟨m, first_named_needed typed found, ?_⟩)
  rw [messageImplOf, named, path] at made
  cases made
  rfl

theorem impls_coherent (plain : PlainNames schema.walked) :
    ((allStubs n schema).filterMap RootItem.implemented).Nodup := by
  have impls : (allStubs n schema).filterMap RootItem.implemented =
      (rpcIoNames schema.walked).map fun id => (splitQualified id).2 := by
    have none_of {α : Type} (items : List α) (make : α → RootItem)
        (silent : ∀ a, (make a).implemented = none) :
        (items.map make).filterMap RootItem.implemented = [] := by
      rw [List.filterMap_map]
      exact List.filterMap_eq_nil_iff.mpr fun a _ => silent a
    have modules : (schema.services.flatMap (stubsOf n)).filterMap RootItem.implemented = [] := by
      rw [List.filterMap_flatMap]
      exact List.flatMap_eq_nil_iff.mpr fun _ _ => rfl
    have own (ids : List String) : (ids.map (messageImplOf n)).filterMap RootItem.implemented =
        ids.map fun id => (splitQualified id).2 := by
      rw [List.filterMap_map]
      exact congrFun List.filterMap_eq_map _
    unfold allStubs rootItems
    simp only [List.filterMap_append, none_of _ (messageExport n) fun _ => rfl,
      none_of _ (enumExport n) fun _ => rfl, own, modules, List.nil_append, List.append_nil]
  have distinct : (rpcIoNames schema.walked).Nodup := Finset.sort_nodup _ _
  rw [impls, List.nodup_map_iff_inj_on distinct]
  intro a left b right same
  obtain ⟨_, _, m, found, rfl⟩ := mem_io.mp left
  obtain ⟨_, _, other, chosen, rfl⟩ := mem_io.mp right
  obtain ⟨_, own, dotless⟩ := first_named_plain plain found
  obtain ⟨_, others, plain'⟩ := first_named_plain plain chosen
  rw [(split_id dotless n true).1, (split_id plain' n true).1] at same
  rw [← own] at found
  rw [← others, ← same] at chosen
  cases found.symm.trans chosen
  rfl

theorem rpc_type_mem_iff {raw : String} : raw ∈ schema.walked.rpcTypes ↔
    ∃ svc ∈ schema.services, ∃ m ∈ svc.methods, raw = m.inputType ∨ raw = m.outputType := by
  simp [SchemaDef.walked, SchemaDef.rpcTypes]

theorem method_type_mem_iff {type : String} : type ∈ methodTypes (rewritten svc) ↔
    ∃ m ∈ svc.methods, type = "super::" ++ m.inputType ∨ type = "super::" ++ m.outputType := by
  simp [methodTypes, rewritten, rewriteMethod]

theorem type_mem_iff {type : String} : type ∈ (allStubs n schema).flatMap RootItem.types ↔
    ∃ raw ∈ schema.walked.rpcTypes, type = "super::" ++ raw := by
  have of_method {svc : ServiceDef} (mem : svc ∈ schema.services)
      (named : type ∈ methodTypes (rewritten svc)) :
      ∃ raw ∈ schema.walked.rpcTypes, type = "super::" ++ raw := by
    obtain ⟨m, inside, input | output⟩ := method_type_mem_iff.mp named
    · exact ⟨_, rpc_type_mem_iff.mpr ⟨svc, mem, m, inside, .inl rfl⟩, input⟩
    · exact ⟨_, rpc_type_mem_iff.mpr ⟨svc, mem, m, inside, .inr rfl⟩, output⟩
  rw [List.mem_flatMap]
  constructor
  · intro held
    obtain ⟨item, mem, named⟩ := held
    cases item with
    | reExport path ident => cases named
    | messageImpl ident owned reader errLabel => cases named
    | serverModule module types =>
      obtain ⟨svc, served, _, rfl⟩ := (server_mem_iff n).mp mem
      exact of_method served named
    | clientModule module types =>
      obtain ⟨svc, served, _, rfl⟩ := (client_mem_iff n).mp mem
      exact of_method served named
  · intro typed
    obtain ⟨raw, typed, rfl⟩ := typed
    obtain ⟨svc, served, m, inside, which⟩ := rpc_type_mem_iff.mp typed
    refine ⟨_, (server_mem_iff n).mpr ⟨svc, served, rfl, rfl⟩,
      method_type_mem_iff.mpr ⟨m, inside, ?_⟩⟩
    rcases which with rfl | rfl
    · exact .inl rfl
    · exact .inr rfl

theorem resolves_iff (plain : PlainNames schema.walked) {raw : String}
    (typed : raw ∈ schema.walked.rpcTypes) : Resolves (allStubs n schema) ("super::" ++ raw) ↔
      bareName raw = raw ∧ ∃ m ∈ schema.messages, m.name = raw := by
  constructor
  · intro resolves
    obtain ⟨ident, same, owned, reader, errLabel, mem⟩ := resolves
    cases (String.append_right_inj _).mp same
    obtain ⟨other, _, m, found, made⟩ := (impl_mem_iff n).mp mem
    obtain ⟨inside, named, dotless⟩ := first_named_plain plain found
    rw [messageImplOf, (split_id dotless n true).1] at made
    cases made
    refine ⟨?_, m, inside, rfl⟩
    rw [named, bare_name_again]
  · intro bare
    obtain ⟨bare, m, inside, named⟩ := bare
    have found : ∃ first, firstNamed schema.walked (bareName raw) = some first := by
      cases searched : firstNamed schema.walked (bareName raw) with
      | some first => exact ⟨first, rfl⟩
      | none =>
        have missed := List.find?_eq_none.mp searched m inside
        rw [bare, named] at missed
        exact absurd (decide_eq_true rfl) missed
    obtain ⟨first, found⟩ := found
    obtain ⟨_, own, dotless⟩ := first_named_plain plain found
    have made : ∃ owned reader errLabel,
        messageImplOf n first.id = .messageImpl raw owned reader errLabel := by
      rw [messageImplOf, (split_id dotless n true).1, own, bare]
      exact ⟨_, _, _, rfl⟩
    obtain ⟨owned, reader, errLabel, made⟩ := made
    exact ⟨raw, rfl, owned, reader, errLabel, (impl_mem_iff n).mpr ⟨raw, typed, first, found, made⟩⟩

end Scopes

/-- Generated stubs are well scoped exactly if the names in the schema keep the generated ones
    apart and its methods name their types by the bare names of messages. -/
theorem flat_stubs_well_scoped_iff (n : Naming) (lex : Lexing) (streamingMode : MethodDef → String)
    (schema : SchemaDef) (stubs : List RootItem) (plain : PlainNames schema.walked)
    (generated : generateGrpcStubs n lex streamingMode schema = .ok stubs) :
    WellScoped stubs ↔ ScopesApart n schema := by
  obtain ⟨_, supported, rfl⟩ := generated_iff.mp generated
  have types : (∀ type ∈ (allStubs n schema).flatMap RootItem.types,
      Resolves (allStubs n schema) type) ↔ ∀ type ∈ schema.walked.rpcTypes,
        bareName type = type ∧ ∃ m ∈ schema.messages, m.name = type := by
    constructor
    · intro resolves raw typed
      exact (resolves_iff plain typed).mp (resolves _ (type_mem_iff.mpr ⟨raw, typed, rfl⟩))
    · intro bare type mem
      obtain ⟨raw, typed, rfl⟩ := type_mem_iff.mp mem
      exact (resolves_iff plain typed).mpr (bare raw typed)
  constructor
  · intro holds
    obtain ⟨aliases, modules, apart⟩ := idents_apart_iff.mp holds.idents
    refine ⟨aliases, modules, apart, ?_, types.mp holds.types⟩
    intro svc mem
    exact (items_apart_iff (supported svc mem).unary).mp
      ⟨holds.servers _ _ ((server_mem_iff n).mpr ⟨svc, mem, rfl, rfl⟩),
        holds.clients _ _ ((client_mem_iff n).mpr ⟨svc, mem, rfl, rfl⟩)⟩
  · intro apart
    have items (svc : ServiceDef) (mem : svc ∈ schema.services) :=
      (items_apart_iff (n := n) (supported svc mem).unary).mpr (apart.services svc mem)
    refine ⟨idents_apart_iff.mpr ⟨apart.aliases, apart.modules, apart.apart⟩, ?_, ?_,
      impls_coherent plain, fun _ _ _ _ mem => impls_of_exports plain mem, types.mpr apart.types⟩
    · intro module moduleTypes mem
      obtain ⟨svc, served, rfl, _⟩ := (server_mem_iff n).mp mem
      exact (items svc served).1
    · intro module moduleTypes mem
      obtain ⟨svc, served, rfl, _⟩ := (client_mem_iff n).mp mem
      exact (items svc served).2

section Schemas

theorem aliases_sublist (schema : SchemaDef) :
    schema.aliases.Sublist (schema.messages.map (·.name) ++ schema.plainEnums.map (·.name)) :=
  (List.filter_sublist.map _).append (List.Sublist.refl _)

/-- A greeter with a mood, and a union that gets no alias. -/
def greeterFbs : SchemaDef where
  messages := [⟨"HelloRequest", some "helloworld", [⟨"name", .scalar⟩]⟩,
    ⟨"HelloReply", some "helloworld", [⟨"message", .scalar⟩]⟩]
  enums := [⟨"Mood", some "helloworld", false⟩, ⟨"Mood", none, true⟩]
  services := [⟨"Greeter", some "helloworld",
    [⟨⟨"SayHello", "HelloRequest", "HelloReply", .none, "crate::codec::Codec"⟩, some "say_hello"⟩]⟩]

theorem greeter_plain : PlainNames greeterFbs.walked := by
  intro m mem
  simp only [greeterFbs, SchemaDef.walked, List.mem_cons, List.not_mem_nil, or_false] at mem
  rcases mem with rfl | rfl
  · decide
  · decide

def letterOrUnderscore (c : Char) : Bool := c.isAlpha || c = '_'

def identContinues (c : Char) : Bool := letterOrUnderscore c || c.isDigit

/-- What the crate says of texts without letters beyond ASCII; of tokens, as far as these are
    paths of letters and underscores. -/
def sampleLexing : Lexing where
  formatIdent text := match text.toList with
    | [] => some "Ident is not allowed to be empty; use Option<Ident>"
    | c :: rest =>
      if (c :: rest).all Char.isDigit then
        some "Ident cannot be a number; use Literal instead"
      else if letterOrUnderscore c && rest.all identContinues then none
      else some ("\"" ++ text ++ "\" is not a valid Ident")
  parse text :=
    if text.toList.all (fun c => letterOrUnderscore c || c = ':') then none
    else some "cannot parse string into token stream"

theorem greeter_root_lexes : RootLexes sampleNaming sampleLexing greeterFbs := by
  have messages : ∀ m ∈ greeterFbs.messages,
      sampleLexing.Takes (messageExport sampleNaming m).demands ∧
        sampleLexing.Takes (messageImplOf sampleNaming m.id).demands := by
    unfold Lexing.Takes
    decide
  have enums : ∀ en ∈ greeterFbs.plainEnums,
      sampleLexing.Takes (enumExport sampleNaming en).demands := by
    unfold Lexing.Takes
    decide
  intro d mem
  obtain ⟨item, mem, made⟩ := List.mem_flatMap.mp mem
  simp only [rootItems, List.mem_append, List.mem_map] at mem
  rcases mem with (⟨m, needed, rfl⟩ | ⟨en, plain, rfl⟩) | ⟨id, io, rfl⟩
  · exact (messages m (List.mem_filter.mp needed).1).1 d made
  · exact enums en plain d made
  · obtain ⟨_, _, m, found, rfl⟩ := mem_io.mp io
    exact (messages m (List.mem_of_find?_eq_some found)).2 d made

theorem greeter_supported :
    ∀ svc ∈ greeterFbs.services, Supported sampleNaming sampleLexing svc := by
  intro svc mem
  cases List.mem_singleton.mp mem
  exact ⟨by decide, rfl, by unfold Lexing.Takes; decide, by unfold Lexing.Takes; decide⟩

theorem greeter_scopes_apart : ScopesApart sampleNaming greeterFbs where
  aliases := by
    refine List.Nodup.sublist ((aliases_sublist greeterFbs).cons_cons "generated") ?_
    decide
  modules := by decide
  apart svc mem := by
    cases List.mem_singleton.mp mem
    have named := (aliases_sublist greeterFbs).subset
    exact ⟨fun taken => absurd (named taken) (by decide),
      fun taken => absurd (named taken) (by decide)⟩
  services svc mem := by
    cases List.mem_singleton.mp mem
    exact ⟨by decide, by decide, by decide, by decide⟩
  types type mem := by
    have listed : type = "HelloRequest" ∨ type = "HelloReply" := by
      simpa [greeterFbs, SchemaDef.walked, SchemaDef.rpcTypes] using mem
    rcases listed with rfl | rfl
    · exact ⟨by decide, _, List.mem_cons_self, rfl⟩
    · exact ⟨by decide, _, List.mem_cons_of_mem _ List.mem_cons_self, rfl⟩

theorem greeter_stubs_well_scoped :
    ∃ stubs, generateGrpcStubs sampleNaming sampleLexing (fun _ => "unary") greeterFbs =
        .ok stubs ∧
      WellScoped stubs := by
  have generated : generateGrpcStubs sampleNaming sampleLexing (fun _ => "unary") greeterFbs =
      .ok (allStubs sampleNaming greeterFbs) :=
    generated_iff.mpr ⟨greeter_root_lexes, greeter_supported, rfl⟩
  exact ⟨_, generated, (flat_stubs_well_scoped_iff sampleNaming sampleLexing (fun _ => "unary")
    greeterFbs _ greeter_plain generated).mpr greeter_scopes_apart⟩

end Schemas

end FlatStubs
