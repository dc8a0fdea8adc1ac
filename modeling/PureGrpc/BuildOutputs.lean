import PureGrpc.CompiledProtos

/-!
What is left in OUT_DIR of the inputs. Every input writes all its stubs into each of its
modules and the whole of descriptor.bin, so what stays is what the last input to write a
file put there.
-/
namespace BuildOutputs
open KeyedMultimap ProtoServices CompiledProtos

variable {Path Message Code : Type}

section Imports

variable (parse : String → Option (FileDescriptorProto Message))
  (resolve : String → Option String)

def Imports (a b : String) : Prop :=
  ∃ file, (resolve a).bind parse = some file ∧ b ∈ file.dependency

/-- A file of the analysis of a root: the root's own or a transitive import, as resolved. -/
def Reached (root : String) (file : FileDescriptorProto Message) : Prop :=
  ∃ name plain, Relation.ReflTransGen (Imports parse resolve) root name ∧
    (resolve name).bind parse = some plain ∧ file = plain.named name

end Imports

structure Analyzes (parse : String → Option (FileDescriptorProto Message))
    (tools : Tools Message Code) : Prop where
  root {root resolve fds} : tools.analyzeFiles [root] resolve = .ok fds →
    ∃ plain, (resolve root).bind parse = some plain
  files {root resolve fds} : tools.analyzeFiles [root] resolve = .ok fds →
    ∀ file, file ∈ fds.file ↔ Reached parse resolve root file

/-- The message generator returns one path and code for each package, and the code defines
the messages of the package's files. -/
structure PerPackage (modPath : String → String) (defines : Code → Message → Prop)
    (tools : Tools Message Code) : Prop where
  distinct : Function.Injective modPath
  apart : ∀ package, modPath package ≠ descriptorFile
  packages {fds pairs} : tools.generateRust fds = .ok pairs →
    ∀ path, (∃ code, (path, code) ∈ pairs) ↔ ∃ file ∈ fds.file, path = modPath file.packageName
  messages {fds pairs} : tools.generateRust fds = .ok pairs → ∀ path code, (path, code) ∈ pairs →
    ∀ file ∈ fds.file, path = modPath file.packageName →
      ∀ message ∈ file.messageType, defines code message

section Property

variable (parse : String → Option (FileDescriptorProto Message)) (host : Host Path)

def Given (protoPath : Path) (file : FileDescriptorProto Message) : Prop :=
  (host.readToString protoPath).bind parse = some file

/-- Nothing of the inputs is lost: their messages and stubs are in the modules of their
packages, no stub is in another module, and the one descriptor set that the modules include
has the descriptors of all of them. -/
structure Complete (modPath : String → String) (defines : Code → Message → Prop)
    (protos : List Path) (out : Output Message Code) : Prop where
  messages : ∀ protoPath ∈ protos, ∀ file, Given parse host protoPath file →
    ∀ message ∈ file.messageType, ∃ content code,
      getKey out (modPath file.packageName) = some (.module content) ∧
        content.code = some code ∧ defines code message
  services : ∀ protoPath ∈ protos, ∀ file, Given parse host protoPath file →
    ∀ proto ∈ file.service, ∃ service content,
      serviceFromProto proto file.packageName "super" = .ok service ∧
        getKey out (modPath file.packageName) = some (.module content) ∧
        .server service ∈ content.services ∧ .client service ∈ content.services
  own : ∀ path content, getKey out path = some (.module content) →
    ∀ stub ∈ content.services, ∃ package, stub.service.package = some package ∧
      path = modPath package
  included : ∀ path content, getKey out path = some (.module content) →
    content.descriptorSet = some descriptorFile
  described : ∀ protoPath ∈ protos, ∀ file, Given parse host protoPath file →
    ∃ fds, getKey out descriptorFile = some (.descriptors fds) ∧
      ∃ name, file.named name ∈ fds.file

variable (includes protos : List Path)

def InClosure (protoPath : Path) (file : FileDescriptorProto Message) : Prop :=
  Reached parse (DirResolver.resolve ⟨includes⟩ host) (host.rootName protoPath) file

def HasPackage (protoPath : Path) (package : String) : Prop :=
  ∃ file, InClosure parse host includes protoPath file ∧ file.packageName = package

/-- No later input has a file of the package. -/
def LastOf (protoPath : Path) (package : String) : Prop :=
  ∃ front back, protos = front ++ protoPath :: back ∧
    HasPackage parse host includes protoPath package ∧
    ∀ later ∈ back, ¬ HasPackage parse host includes later package

/-- Every input is among the files the last input's base name leads to, and where an input is
the last with a package, all its files with services are of that package. -/
structure Undisturbed : Prop where
  covered : ∀ protoPath ∈ protos, ∀ file, Given parse host protoPath file →
    ∃ last, protos.getLast? = some last ∧ ∃ name, InClosure parse host includes last (file.named name)
  alone : ∀ protoPath package, LastOf parse host includes protos protoPath package →
    ∀ file, InClosure parse host includes protoPath file → file.service ≠ [] →
      file.packageName = package

end Property

section Written

variable {parse : String → Option (FileDescriptorProto Message)} {modPath : String → String}
  {defines : Code → Message → Prop} {tools : Tools Message Code} {host : Host Path}
  {includes : List Path} {protoPath : Path}

theorem writes_iff {compiled : Compiled Message Code} (analyzes : Analyzes parse tools)
    (perPackage : PerPackage modPath defines tools)
    (compiles : Compiles tools host ⟨includes⟩ protoPath compiled) (path : String)
    (content : OutFile Message Code) :
    (path, content) ∈ compiled.writes ↔
      (path = descriptorFile ∧ content = .descriptors compiled.fds) ∨
        ∃ code, (path, code) ∈ compiled.messageCode ∧
          content = .module ⟨some code, compiled.serviceCode, some descriptorFile⟩ := by
  obtain ⟨plain, parsed⟩ := analyzes.root compiles.analyzed
  have root : plain.named (host.rootName protoPath) ∈ compiled.fds.file :=
    (analyzes.files compiles.analyzed _).mpr ⟨_, plain, .refl, parsed, rfl⟩
  obtain ⟨code, pair⟩ := (perPackage.packages compiles.generated _).mpr ⟨_, root, rfl⟩
  have some_code : compiled.messageCode.isEmpty = false :=
    List.isEmpty_eq_false_iff.mpr (List.ne_nil_of_mem pair)
  simp only [Compiled.writes, some_code, Bool.false_and, Bool.false_eq_true, if_false,
    List.mem_append, List.mem_map, List.mem_singleton, Prod.mk.injEq, Prod.exists]
  constructor
  · intro either
    rcases either with ⟨path, code, pair, rfl, rfl⟩ | here
    · exact .inr ⟨code, pair, rfl⟩
    · exact .inl here
  · intro either
    rcases either with here | ⟨code, pair, rfl⟩
    · exact .inr here
    · exact .inl ⟨path, code, pair, rfl, rfl⟩

theorem files_iff (analyzes : Analyzes parse tools) (perPackage : PerPackage modPath defines tools)
    (each : ∃ compiled, tools.compile host ⟨includes⟩ protoPath = .ok compiled) :
    ∃ compiled, Compiles tools host ⟨includes⟩ protoPath compiled ∧
      ∀ path content, (path, content) ∈ filesOf tools host ⟨includes⟩ protoPath ↔
        (path = descriptorFile ∧ content = .descriptors compiled.fds) ∨
          ∃ code, (path, code) ∈ compiled.messageCode ∧
            content = .module ⟨some code, compiled.serviceCode, some descriptorFile⟩ := by
  obtain ⟨compiled, run⟩ := each
  have compiles := compile_ok run
  refine ⟨compiled, compiles, ?_⟩
  intro path content
  rw [filesOf, run]
  exact writes_iff analyzes perPackage compiles path content

theorem closure_iff {compiled : Compiled Message Code} (analyzes : Analyzes parse tools)
    (compiles : Compiles tools host ⟨includes⟩ protoPath compiled)
    (file : FileDescriptorProto Message) :
    file ∈ compiled.fds.file ↔ InClosure parse host includes protoPath file :=
  analyzes.files compiles.analyzed file

theorem writes_module_iff (analyzes : Analyzes parse tools)
    (perPackage : PerPackage modPath defines tools)
    (each : ∃ compiled, tools.compile host ⟨includes⟩ protoPath = .ok compiled) (package : String) :
    (∃ content, (modPath package, content) ∈ filesOf tools host ⟨includes⟩ protoPath) ↔
      HasPackage parse host includes protoPath package := by
  obtain ⟨compiled, compiles, files⟩ := files_iff analyzes perPackage each
  have pairs := perPackage.packages compiles.generated (modPath package)
  constructor
  · intro written
    obtain ⟨content, wrote⟩ := written
    rcases (files _ _).mp wrote with ⟨descriptor, _⟩ | ⟨code, pair, _⟩
    · exact absurd descriptor (perPackage.apart package)
    · obtain ⟨file, mem, same⟩ := pairs.mp ⟨code, pair⟩
      exact ⟨file, (closure_iff analyzes compiles file).mp mem, (perPackage.distinct same).symm⟩
  · intro has
    obtain ⟨file, inside, same⟩ := has
    obtain ⟨code, pair⟩ :=
      pairs.mpr ⟨file, (closure_iff analyzes compiles file).mpr inside, congrArg modPath same.symm⟩
    exact ⟨_, (files _ _).mpr (.inr ⟨code, pair, rfl⟩)⟩

variable {protos : List Path} {out : Output Message Code}

theorem last_module (analyzes : Analyzes parse tools) (perPackage : PerPackage modPath defines tools)
    (run : compileProtos tools host protos includes = .ok out) {package : String}
    (last : LastOf parse host includes protos protoPath package) :
    ∃ compiled code, Compiles tools host ⟨includes⟩ protoPath compiled ∧
      (modPath package, code) ∈ compiled.messageCode ∧
      getKey out (modPath package) =
        some (.module ⟨some code, compiled.serviceCode, some descriptorFile⟩) := by
  obtain ⟨front, back, rfl, has, later⟩ := last
  obtain ⟨each, rfl⟩ := compile_protos_ok run
  have compiled_here := each protoPath (by simp)
  have wrote := (writes_module_iff analyzes perPackage compiled_here package).mpr has
  have unwritten (other) (after : other ∈ back) :
      ¬ ∃ content, (modPath package, content) ∈ filesOf tools host ⟨includes⟩ other := by
    rw [writes_module_iff analyzes perPackage (each other (by simp [after]))]
    exact later other after
  obtain ⟨content, mem, found⟩ :=
    get_last_batch (filesOf tools host ⟨includes⟩) [] front wrote unwritten
  obtain ⟨compiled, compiles, files⟩ := files_iff analyzes perPackage compiled_here
  rcases (files _ _).mp mem with ⟨descriptor, _⟩ | ⟨code, pair, rfl⟩
  · exact absurd descriptor (perPackage.apart package)
  · exact ⟨compiled, code, compiles, pair, found⟩

theorem module_last (analyzes : Analyzes parse tools) (perPackage : PerPackage modPath defines tools)
    (run : compileProtos tools host protos includes = .ok out) {path : String}
    {content : Module Code} (found : getKey out path = some (.module content)) :
    ∃ protoPath package compiled, LastOf parse host includes protos protoPath package ∧
      Compiles tools host ⟨includes⟩ protoPath compiled ∧ path = modPath package ∧
      content.services = compiled.serviceCode ∧ content.descriptorSet = some descriptorFile := by
  obtain ⟨each, rfl⟩ := compile_protos_ok run
  obtain ⟨front, protoPath, back, rfl, wrote, later⟩ := last_batch_of_get found
  have compiled_here := each protoPath (by simp)
  obtain ⟨compiled, compiles, files⟩ := files_iff analyzes perPackage compiled_here
  rcases (files _ _).mp wrote with ⟨_, wrong⟩ | ⟨code, pair, same⟩
  · cases wrong
  · cases same
    obtain ⟨file, mem, rfl⟩ := (perPackage.packages compiles.generated path).mp ⟨code, pair⟩
    refine ⟨protoPath, file.packageName, compiled, ⟨front, back, rfl, ?_, ?_⟩, compiles, rfl, rfl, rfl⟩
    · exact (writes_module_iff analyzes perPackage compiled_here _).mp ⟨_, wrote⟩
    · intro other after
      rw [← writes_module_iff analyzes perPackage (each other (by simp [after]))]
      exact later other after

theorem last_descriptors (analyzes : Analyzes parse tools)
    (perPackage : PerPackage modPath defines tools)
    (run : compileProtos tools host protos includes = .ok out)
    (last : protos.getLast? = some protoPath) :
    ∃ compiled, Compiles tools host ⟨includes⟩ protoPath compiled ∧
      getKey out descriptorFile = some (.descriptors compiled.fds) := by
  obtain ⟨front, rfl⟩ := List.getLast?_eq_some_iff.mp last
  obtain ⟨each, rfl⟩ := compile_protos_ok run
  obtain ⟨compiled, compiles, files⟩ :=
    files_iff analyzes perPackage (each protoPath (by simp))
  have wrote := (files descriptorFile (.descriptors compiled.fds)).mpr (.inl ⟨rfl, rfl⟩)
  obtain ⟨content, mem, found⟩ := get_last_batch (filesOf tools host ⟨includes⟩) [] front
    ⟨_, wrote⟩ (fun _ after => absurd after List.not_mem_nil)
  rcases (files _ _).mp mem with ⟨_, rfl⟩ | ⟨code, pair, _⟩
  · exact ⟨compiled, compiles, found⟩
  · obtain ⟨file, _, same⟩ := (perPackage.packages compiles.generated _).mp ⟨code, pair⟩
    exact absurd same.symm (perPackage.apart _)

theorem complete_undisturbed (analyzes : Analyzes parse tools)
    (perPackage : PerPackage modPath defines tools)
    (run : compileProtos tools host protos includes = .ok out)
    (complete : Complete parse host modPath defines protos out) :
    Undisturbed parse host includes protos := by
  constructor
  · intro protoPath mem file given
    obtain ⟨last, isLast⟩ := Option.isSome_iff_exists.mp
      (List.getLast?_isSome.mpr (List.ne_nil_of_mem mem))
    obtain ⟨compiled, compiles, held⟩ := last_descriptors analyzes perPackage run isLast
    obtain ⟨fds, found, name, described⟩ := complete.described protoPath mem file given
    rw [held] at found
    cases found
    exact ⟨last, isLast, name, (closure_iff analyzes compiles _).mp described⟩
  · intro protoPath package last file inside services
    obtain ⟨compiled, code, compiles, _, held⟩ := last_module analyzes perPackage run last
    obtain ⟨proto, inFile⟩ := List.exists_mem_of_ne_nil _ services
    obtain ⟨service, converted, server, _⟩ := (service_code_ok compiles).1 file
      ((closure_iff analyzes compiles file).mpr inside) proto inFile
    obtain ⟨own, named, same⟩ := complete.own _ _ held _ server
    have itsPackage := (service_from_proto_ok converted).2
    rw [Stub.service, itsPackage] at named
    cases named
    exact (perPackage.distinct same).symm

theorem last_input (isLast : protos.getLast? = some protoPath)
    {file : FileDescriptorProto Message} (inside : InClosure parse host includes protoPath file) :
    LastOf parse host includes protos protoPath file.packageName := by
  obtain ⟨front, rfl⟩ := List.getLast?_eq_some_iff.mp isLast
  exact ⟨front, [], rfl, ⟨file, inside, rfl⟩, fun _ after => absurd after List.not_mem_nil⟩

theorem covered_module (analyzes : Analyzes parse tools)
    (perPackage : PerPackage modPath defines tools)
    (run : compileProtos tools host protos includes = .ok out)
    (undisturbed : Undisturbed parse host includes protos) (mem : protoPath ∈ protos)
    {file : FileDescriptorProto Message} (given : Given parse host protoPath file) :
    ∃ last compiled code name, Compiles tools host ⟨includes⟩ last compiled ∧
      file.named name ∈ compiled.fds.file ∧
      (modPath file.packageName, code) ∈ compiled.messageCode ∧
      getKey out (modPath file.packageName) =
        some (.module ⟨some code, compiled.serviceCode, some descriptorFile⟩) := by
  obtain ⟨last, isLast, name, inside⟩ := undisturbed.covered protoPath mem file given
  obtain ⟨compiled, code, compiles, pair, held⟩ :=
    last_module analyzes perPackage run (last_input isLast inside)
  exact ⟨last, compiled, code, name, compiles, (closure_iff analyzes compiles _).mpr inside, pair,
    held⟩

theorem undisturbed_complete (analyzes : Analyzes parse tools)
    (perPackage : PerPackage modPath defines tools)
    (run : compileProtos tools host protos includes = .ok out)
    (undisturbed : Undisturbed parse host includes protos) :
    Complete parse host modPath defines protos out := by
  constructor
  · intro protoPath mem file given message isMessage
    obtain ⟨last, compiled, code, name, compiles, inSet, pair, held⟩ :=
      covered_module analyzes perPackage run undisturbed mem given
    have defined := perPackage.messages compiles.generated _ code pair (file.named name) inSet rfl
    exact ⟨_, code, held, rfl, defined message isMessage⟩
  · intro protoPath mem file given proto inFile
    obtain ⟨last, compiled, code, name, compiles, inSet, _, held⟩ :=
      covered_module analyzes perPackage run undisturbed mem given
    obtain ⟨service, converted, server, client⟩ :=
      (service_code_ok compiles).1 (file.named name) inSet proto inFile
    exact ⟨service, _, converted, held, server, client⟩
  · intro path content found stub mem
    obtain ⟨protoPath, package, compiled, last, compiles, rfl, services, _⟩ :=
      module_last analyzes perPackage run found
    rw [services] at mem
    obtain ⟨file, inSet, some_service, named⟩ := (service_code_ok compiles).2 stub mem
    have alone := undisturbed.alone protoPath package last file
      ((closure_iff analyzes compiles file).mp inSet) some_service
    exact ⟨package, by rw [named, alone], rfl⟩
  · intro path content found
    obtain ⟨_, _, _, _, _, _, _, included⟩ := module_last analyzes perPackage run found
    exact included
  · intro protoPath mem file given
    obtain ⟨last, isLast, name, inside⟩ := undisturbed.covered protoPath mem file given
    obtain ⟨compiled, compiles, held⟩ := last_descriptors analyzes perPackage run isLast
    exact ⟨compiled.fds, held, name, (closure_iff analyzes compiles _).mpr inside⟩

/-- Of a call that returns Ok, nothing of the inputs is lost exactly when every input is among
the files the last input's base name leads to, and where an input is the last with a package,
all its files with services are of that package. -/
theorem complete_iff (analyzes : Analyzes parse tools)
    (perPackage : PerPackage modPath defines tools)
    (run : compileProtos tools host protos includes = .ok out) :
    Complete parse host modPath defines protos out ↔ Undisturbed parse host includes protos :=
  ⟨complete_undisturbed analyzes perPackage run, undisturbed_complete analyzes perPackage run⟩

end Written

section Crates

variable (parse : String → Option (FileDescriptorProto Message))
  (resolve : String → Option String)

def importsOf (name : String) : List String :=
  ((resolve name).bind parse).elim [] FileDescriptorProto.dependency

def spread : Nat → List String → List String
  | 0, names => names
  | depth + 1, names => spread depth (names ++ names.flatMap (importsOf parse resolve))

def closedNames (names : List String) : Bool :=
  names.all fun name => ((resolve name).bind parse).isSome &&
    (importsOf parse resolve name).all (names.contains ·)

def filesAt (names : List String) : List (FileDescriptorProto Message) :=
  names.filterMap fun name => ((resolve name).bind parse).map (·.named name)

/-- An analyzer that follows imports to a fixed depth, and fails if that is not enough. -/
def analyze (depth : Nat) (roots : List String) : Except String (FileDescriptorSet Message) :=
  if closedNames parse resolve (spread parse resolve depth roots).eraseDups then
    .ok ⟨filesAt parse resolve (spread parse resolve depth roots).eraseDups⟩
  else .error "unresolved import"

variable {parse resolve}

theorem imports_iff (a b : String) : b ∈ importsOf parse resolve a ↔ Imports parse resolve a b := by
  unfold importsOf Imports
  cases (resolve a).bind parse <;> simp

theorem spread_reached {depth : Nat} {names : List String} {name : String}
    (mem : name ∈ spread parse resolve depth names) :
    ∃ root ∈ names, Relation.ReflTransGen (Imports parse resolve) root name := by
  induction depth generalizing names with
  | zero => exact ⟨name, mem, .refl⟩
  | succ depth ih =>
    obtain ⟨middle, here, reached⟩ := ih mem
    rcases List.mem_append.mp here with root | imported
    · exact ⟨middle, root, reached⟩
    · obtain ⟨root, start, first⟩ := List.mem_flatMap.mp imported
      exact ⟨root, start, reached.head ((imports_iff root middle).mp first)⟩

theorem spread_roots {depth : Nat} {names : List String} {name : String} (mem : name ∈ names) :
    name ∈ spread parse resolve depth names := by
  induction depth generalizing names with
  | zero => exact mem
  | succ depth ih => exact ih (List.mem_append_left _ mem)

theorem closed_names_iff (names : List String) :
    closedNames parse resolve names = true ↔ ∀ name ∈ names,
      (∃ plain, (resolve name).bind parse = some plain) ∧
        ∀ next, Imports parse resolve name next → next ∈ names := by
  simp only [closedNames, List.all_eq_true, Bool.and_eq_true, Option.isSome_iff_exists,
    List.contains_iff_mem, imports_iff]

theorem closed_reached {names : List String} {root name : String}
    (closed : closedNames parse resolve names = true) (start : root ∈ names)
    (reached : Relation.ReflTransGen (Imports parse resolve) root name) : name ∈ names := by
  rw [closed_names_iff] at closed
  induction reached with
  | refl => exact start
  | tail _ imported ih => exact (closed _ ih).2 _ imported

theorem files_at_iff (names : List String) (file : FileDescriptorProto Message) :
    file ∈ filesAt parse resolve names ↔ ∃ name plain, name ∈ names ∧
      (resolve name).bind parse = some plain ∧ file = plain.named name := by
  simp only [filesAt, List.mem_filterMap, Option.map_eq_some_iff]
  constructor
  · intro listed
    obtain ⟨name, mem, plain, found, rfl⟩ := listed
    exact ⟨name, plain, mem, found, rfl⟩
  · intro listed
    obtain ⟨name, plain, mem, found, rfl⟩ := listed
    exact ⟨name, mem, plain, found, rfl⟩

theorem analyze_files {depth : Nat} {root : String} {fds : FileDescriptorSet Message}
    (run : analyze parse resolve depth [root] = .ok fds) :
    (∃ plain, (resolve root).bind parse = some plain) ∧
      ∀ file, file ∈ fds.file ↔ Reached parse resolve root file := by
  unfold analyze at run
  split at run
  next closed =>
    cases run
    have start : root ∈ (spread parse resolve depth [root]).eraseDups :=
      List.mem_eraseDups.mpr (spread_roots (List.mem_singleton_self root))
    refine ⟨((closed_names_iff _).mp closed root start).1, ?_⟩
    intro file
    rw [files_at_iff]
    constructor
    · intro listed
      obtain ⟨name, plain, mem, found, rfl⟩ := listed
      obtain ⟨first, isRoot, reached⟩ := spread_reached (List.mem_eraseDups.mp mem)
      rw [List.mem_singleton.mp isRoot] at reached
      exact ⟨name, plain, reached, found, rfl⟩
    · intro inClosure
      obtain ⟨name, plain, reached, found, rfl⟩ := inClosure
      exact ⟨name, plain, closed_reached closed start reached, found, rfl⟩
  · cases run

def generate (fds : FileDescriptorSet Message) : Except String (List (String × List Message)) :=
  .ok ((fds.file.map (·.packageName)).eraseDups.map fun package =>
    (package ++ ".rs", (fds.file.filter (·.packageName = package)).flatMap (·.messageType)))

variable (parse)

def crates (depth : Nat) : Tools Message (List Message) :=
  ⟨fun roots resolve => analyze parse resolve depth roots, generate, fun _ => [], fun _ => .ok ()⟩

theorem crates_analyze (depth : Nat) : Analyzes parse (crates parse depth) :=
  ⟨fun run => (analyze_files run).1, fun run => (analyze_files run).2⟩

theorem rs_apart (package : String) : package ++ ".rs" ≠ descriptorFile := by
  intro same
  have last := congrArg (fun path => path.toList.getLast?) same
  simp [String.toList_append, List.getLast?_append, descriptorFile] at last

theorem crates_per_package (depth : Nat) :
    PerPackage (· ++ ".rs") (fun code message => message ∈ code) (crates parse depth) := by
  refine ⟨fun _ _ => (String.append_left_inj ".rs").mp, rs_apart, ?_, ?_⟩
  · intro fds pairs run path
    cases run
    simp [Prod.ext_iff, List.mem_eraseDups, eq_comm]
  · intro fds pairs run path code pair file mem same message isMessage
    cases run
    obtain ⟨package, _, entry⟩ := List.mem_map.mp pair
    cases entry
    have own := (String.append_left_inj ".rs").mp same
    exact List.mem_flatMap.mpr ⟨file, List.mem_filter.mpr ⟨mem, by simp [own]⟩, isMessage⟩

end Crates

def sourceTree (files : List (List String × String)) : Host (List String) where
  outDir := .ok ()
  metadata path := if (List.lookup path files).isSome then .ok () else .error "not found"
  readToString path := List.lookup path files
  fileName := List.getLast?
  join dir name := dir ++ [name]
  display := "/".intercalate
  writable _ := .ok ()

def protoTexts : List (String × FileDescriptorProto String) :=
  [("package a; message A", ⟨none, some "a", [], ["A"], []⟩),
    ("package a; import a.proto; message B; service S",
      ⟨none, some "a", ["a.proto"], ["B"], [⟨some "S", []⟩]⟩),
    ("package c; import a.proto; service T", ⟨none, some "c", ["a.proto"], [], [⟨some "T", []⟩]⟩)]

def parseText (text : String) : Option (FileDescriptorProto String) := List.lookup text protoTexts

def protoTree : Host (List String) :=
  sourceTree [(["proto", "a.proto"], "package a; message A"),
    (["proto", "b.proto"], "package a; import a.proto; message B; service S"),
    (["proto", "c.proto"], "package c; import a.proto; service T")]

def outputOf (protos : List (List String)) : Output String (List String) :=
  match compileProtos (crates parseText 1) protoTree protos [["proto"]] with
  | .ok out => out
  | .error _ => []

def Kept (protos : List (List String)) : Prop :=
  Complete parseText protoTree (· ++ ".rs") (fun code message => message ∈ code) protos
    (outputOf protos)

theorem complete_iff_imported_first :
    Kept [["proto", "a.proto"], ["proto", "b.proto"]] ↔
      Undisturbed parseText protoTree [["proto"]] [["proto", "a.proto"], ["proto", "b.proto"]] :=
  complete_iff (crates_analyze parseText 1) (crates_per_package parseText 1) rfl

def importedLast : List (List String) := [["proto", "b.proto"], ["proto", "a.proto"]]

def twoPackages : List (List String) := [["proto", "c.proto"]]

theorem imported_last_module : getKey (outputOf importedLast) ("a" ++ ".rs") =
    some (.module ⟨some ["A"], [], some "descriptor.bin"⟩) := by decide

theorem two_packages_module : getKey (outputOf twoPackages) ("a" ++ ".rs") =
    some (.module ⟨some ["A"],
      [.server ⟨"T", some "c", []⟩, .client ⟨"T", some "c", []⟩], some "descriptor.bin"⟩) := by
  decide

/-- After b.proto, a.proto of the same package takes its messages, its stubs and its descriptor
away; and c.proto's stubs stand in the module of the package it imports. -/
theorem outputs_lost :
    Analyzes parseText (crates parseText 1) ∧
      PerPackage (· ++ ".rs") (fun code message => message ∈ code) (crates parseText 1) ∧
      (compileProtos (crates parseText 1) protoTree importedLast [["proto"]] =
          .ok (outputOf importedLast) ∧
        (outputOf importedLast).map Prod.fst = ["a.rs", "descriptor.bin"] ∧
        ¬ Kept importedLast) ∧
      compileProtos (crates parseText 1) protoTree twoPackages [["proto"]] =
          .ok (outputOf twoPackages) ∧
        ¬ Kept twoPackages := by
  refine ⟨crates_analyze _ 1, crates_per_package _ 1, ⟨rfl, by decide, ?_⟩, rfl, ?_⟩
  · intro kept
    obtain ⟨content, code, found, isCode, defined⟩ :=
      kept.messages ["proto", "b.proto"] (List.mem_cons_self ..) _ rfl "B" (List.mem_singleton_self _)
    cases imported_last_module.symm.trans found
    cases isCode
    exact absurd defined (by decide)
  · intro kept
    obtain ⟨package, isPackage, path⟩ := kept.own _ _ two_packages_module
      (.server ⟨"T", some "c", []⟩) (List.mem_cons_self ..)
    cases isPackage
    exact absurd path (by decide)

end BuildOutputs
