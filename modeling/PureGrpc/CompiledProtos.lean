import PureGrpc.KeyedMultimap
import PureGrpc.ProtoServices
import Mathlib.Logic.Relation

/-!
Compiling a list of proto files into OUT_DIR. Each input is analyzed by itself, under its
base name, and its output is written before the next input is looked at: a module for each
package of its files, and descriptor.bin. The analyzer, the message generator and the
syntax check come from other crates and are parameters here.
-/
namespace CompiledProtos
open KeyedMultimap FallibleLoops ProtoServices

structure FileDescriptorProto (Message : Type) where
  name : Option String
  package : Option String
  dependency : List String
  messageType : List Message
  service : List ServiceDescriptorProto
  deriving DecidableEq, Repr

structure FileDescriptorSet (Message : Type) where
  file : List (FileDescriptorProto Message)
  deriving DecidableEq, Repr

/-- A generated module: message code, service code, and the file its FILE_DESCRIPTOR_SET
includes. -/
structure Module (Code : Type) where
  code : Option Code
  services : List Stub
  descriptorSet : Option String
  deriving DecidableEq, Repr

inductive OutFile (Message Code : Type) where
  | module (content : Module Code)
  | descriptors (set : FileDescriptorSet Message)
  deriving DecidableEq, Repr

/-- The files written into OUT_DIR; a file written again has its last content. -/
abbrev Output (Message Code : Type) := Multimap String (OutFile Message Code)

inductive ErrorKind where
  | notFound
  | invalidData
  | other
  deriving DecidableEq, Repr

inductive Failure where
  | error (kind : ErrorKind) (message : String)
  | panic (message : String)
  deriving DecidableEq, Repr

/-- The calls into the operating system: the environment, the proto files under their paths,
which the call does not write, and whether a file of OUT_DIR can be written. -/
structure Host (Path : Type) where
  outDir : Except String Unit
  metadata : Path → Except String Unit
  readToString : Path → Option String
  fileName : Path → Option String
  join : Path → String → Path
  display : Path → String
  writable : String → Except Failure Unit

structure Tools (Message Code : Type) where
  analyzeFiles : List String → (String → Option String) →
    Except String (FileDescriptorSet Message)
  generateRust : FileDescriptorSet Message → Except String (List (String × Code))
  validate : ServiceDef → List String
  parse2 : List Stub → Except String Unit

variable {Path Message Code : Type}

namespace FileDescriptorProto

def packageName (file : FileDescriptorProto Message) : String := file.package.getD ""

def named (file : FileDescriptorProto Message) (name : String) : FileDescriptorProto Message :=
  { file with name := some name }

end FileDescriptorProto

structure DirResolver (Path : Type) where
  dirs : List Path

def DirResolver.resolve (resolver : DirResolver Path) (host : Host Path) (name : String) :
    Option String :=
  resolver.dirs.findSome? fun dir => host.readToString (host.join dir name)

def Host.write (host : Host Path) (out : Output Message Code) (path : String)
    (content : OutFile Message Code) : Except Failure (Output Message Code) := do
  host.writable path
  return insertKey out path content

def descriptorFile : String := "descriptor.bin"

def packageToModName (package : String) : String :=
  if package = "" then "_.rs"
  else String.ofList (package.toList.map fun c => if c = '.' then '_' else c)

/-- The server and the client stub of one service. The generators panic on a definition
that is not valid. -/
def Tools.stubs (tools : Tools Message Code) (package : String) (proto : ServiceDescriptorProto) :
    Except Failure (List Stub) := do
  let service ← (serviceFromProto proto package "super").mapError
    fun e => .error .other ("invalid service descriptor: " ++ e)
  match tools.validate service with
  | [] => return [.server service, .client service]
  | errors =>
    .error (.panic ("invalid ServiceDef for server codegen: " ++ "; ".intercalate errors))

structure Compiled (Message Code : Type) where
  fds : FileDescriptorSet Message
  messageCode : List (String × Code)
  serviceCode : List Stub

def Host.rootName (host : Host Path) (protoPath : Path) : String :=
  (host.fileName protoPath).getD "unknown.proto"

/-- Steps 1 to 3: analysis, message types, service stubs. -/
def Tools.compile (tools : Tools Message Code) (host : Host Path) (resolver : DirResolver Path)
    (protoPath : Path) : Except Failure (Compiled Message Code) := do
  (host.metadata protoPath).mapError
    fun e => .error .notFound ("failed to read " ++ host.display protoPath ++ ": " ++ e)
  let fds ← (tools.analyzeFiles [host.rootName protoPath] (resolver.resolve host)).mapError
    fun e => .error .invalidData ("failed to analyze " ++ host.display protoPath ++ ": " ++ e)
  let messageCode ← (tools.generateRust fds).mapError
    fun e => .error .other ("codegen failed for " ++ host.display protoPath ++ ": " ++ e)
  let serviceCode ← gather
    (fun file => gather (tools.stubs file.packageName) file.service) fds.file
  if serviceCode.isEmpty then
    return ⟨fds, messageCode, serviceCode⟩
  (tools.parse2 serviceCode).mapError
    fun e => .error .other ("generated service code is invalid: " ++ e)
  return ⟨fds, messageCode, serviceCode⟩

/-- Steps 4 and 5: a module for each package, the descriptor set, and the services alone where
there is no message code. -/
def Compiled.writes (compiled : Compiled Message Code) : Output Message Code :=
  compiled.messageCode.map (fun entry =>
      (entry.1, .module ⟨some entry.2, compiled.serviceCode, some descriptorFile⟩)) ++
    (descriptorFile, .descriptors compiled.fds) ::
    if compiled.messageCode.isEmpty && !compiled.serviceCode.isEmpty then
      [(packageToModName ((compiled.fds.file.head?.bind fun file => file.package).getD "") ++ ".rs",
        .module ⟨none, compiled.serviceCode, none⟩)]
    else []

def compileProto (tools : Tools Message Code) (host : Host Path) (resolver : DirResolver Path)
    (out : Output Message Code) (protoPath : Path) : Except Failure (Output Message Code) := do
  let compiled ← tools.compile host resolver protoPath
  compiled.writes.foldlM (fun out entry => host.write out entry.1 entry.2) out

def compileProtos (tools : Tools Message Code) (host : Host Path) (protos includes : List Path) :
    Except Failure (Output Message Code) := do
  host.outDir.mapError fun e => .error .other ("OUT_DIR not set: " ++ e)
  protos.foldlM (compileProto tools host ⟨includes⟩) []

/-- A compilation that got through, by the crates' answers it is made of. -/
structure Compiles (tools : Tools Message Code) (host : Host Path) (resolver : DirResolver Path)
    (protoPath : Path) (compiled : Compiled Message Code) : Prop where
  analyzed : tools.analyzeFiles [host.rootName protoPath] (resolver.resolve host) =
    .ok compiled.fds
  generated : tools.generateRust compiled.fds = .ok compiled.messageCode
  gathered : gather (fun file => gather (tools.stubs file.packageName) file.service)
    compiled.fds.file = .ok compiled.serviceCode

section Runs

variable {tools : Tools Message Code} {host : Host Path} {resolver : DirResolver Path}

theorem compile_ok {protoPath : Path} {compiled : Compiled Message Code}
    (run : tools.compile host resolver protoPath = .ok compiled) :
    Compiles tools host resolver protoPath compiled := by
  obtain ⟨_, _, run⟩ := bind_ok run
  obtain ⟨fds, analyzed, run⟩ := bind_ok run
  obtain ⟨messageCode, generated, run⟩ := bind_ok run
  obtain ⟨serviceCode, gathered, run⟩ := bind_ok run
  have same : compiled = ⟨fds, messageCode, serviceCode⟩ := by
    split at run
    · cases run
      rfl
    · obtain ⟨_, _, run⟩ := bind_ok run
      cases run
      rfl
  subst same
  exact ⟨map_error_ok analyzed, map_error_ok generated, gathered⟩

theorem stubs_ok {package : String} {proto : ServiceDescriptorProto} {stubs : List Stub}
    (run : tools.stubs package proto = .ok stubs) :
    ∃ service, serviceFromProto proto package "super" = .ok service ∧
      stubs = [.server service, .client service] := by
  obtain ⟨service, converted, run⟩ := bind_ok run
  split at run
  · cases run
    exact ⟨service, map_error_ok converted, rfl⟩
  · cases run

theorem service_code_ok {protoPath : Path} {compiled : Compiled Message Code}
    (compiles : Compiles tools host resolver protoPath compiled) :
    (∀ file ∈ compiled.fds.file, ∀ proto ∈ file.service, ∃ service,
        serviceFromProto proto file.packageName "super" = .ok service ∧
          .server service ∈ compiled.serviceCode ∧ .client service ∈ compiled.serviceCode) ∧
      ∀ stub ∈ compiled.serviceCode, ∃ file ∈ compiled.fds.file,
        file.service ≠ [] ∧ stub.service.package = some file.packageName := by
  obtain ⟨files, members⟩ := gather_ok compiles.gathered
  constructor
  · intro file inSet proto inFile
    obtain ⟨ofFile, run⟩ := files file inSet
    obtain ⟨services, inside⟩ := gather_ok run
    obtain ⟨stubs, made⟩ := services proto inFile
    obtain ⟨service, converted, rfl⟩ := stubs_ok made
    have placed (stub : Stub) (mem : stub ∈ [Stub.server service, .client service]) :
        stub ∈ compiled.serviceCode :=
      (members stub).mpr ⟨file, inSet, ofFile, run, (inside stub).mpr ⟨proto, inFile, _, made, mem⟩⟩
    exact ⟨service, converted, placed _ (by simp), placed _ (by simp)⟩
  · intro stub mem
    obtain ⟨file, inSet, ofFile, run, mem⟩ := (members stub).mp mem
    obtain ⟨proto, inFile, stubs, made, mem⟩ := ((gather_ok run).2 stub).mp mem
    obtain ⟨service, converted, rfl⟩ := stubs_ok made
    refine ⟨file, inSet, List.ne_nil_of_mem inFile, ?_⟩
    have own := (service_from_proto_ok converted).2
    rcases List.mem_pair.mp mem with rfl | rfl
    · exact own
    · exact own

def filesOf (tools : Tools Message Code) (host : Host Path) (resolver : DirResolver Path)
    (protoPath : Path) : Output Message Code :=
  match tools.compile host resolver protoPath with
  | .ok compiled => compiled.writes
  | .error _ => []

theorem write_ok {out next : Output Message Code} {path : String} {content : OutFile Message Code}
    (run : host.write out path content = .ok next) : next = insertKey out path content := by
  obtain ⟨_, _, run⟩ := bind_ok run
  cases run
  rfl

theorem compile_proto_ok {out next : Output Message Code} {protoPath : Path}
    (run : compileProto tools host resolver out protoPath = .ok next) :
    (∃ compiled, tools.compile host resolver protoPath = .ok compiled) ∧
      next = insertAll out (filesOf tools host resolver protoPath) := by
  obtain ⟨compiled, compiles, run⟩ := bind_ok run
  refine ⟨⟨compiled, compiles⟩, ?_⟩
  have written : (∀ _ ∈ compiled.writes, True) ∧ next = insertAll out compiled.writes :=
    fold_ok (fun _ _ _ wrote => ⟨trivial, write_ok wrote⟩) run
  simp only [filesOf, compiles]
  exact written.2

/-- A call that returns Ok has compiled every input, and written their files in turn. -/
theorem compile_protos_ok {protos includes : List Path} {out : Output Message Code}
    (run : compileProtos tools host protos includes = .ok out) :
    (∀ protoPath ∈ protos, ∃ compiled, tools.compile host ⟨includes⟩ protoPath = .ok compiled) ∧
      out = insertAll [] (protos.flatMap (filesOf tools host ⟨includes⟩)) := by
  obtain ⟨_, _, run⟩ := bind_ok run
  obtain ⟨each, last⟩ := fold_ok (fun _ _ _ => compile_proto_ok) run
  rw [last, insert_batches]
  exact ⟨each, rfl⟩

end Runs

end CompiledProtos
