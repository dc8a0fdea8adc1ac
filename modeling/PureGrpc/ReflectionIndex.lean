import PureGrpc.ProtoServices
import PureGrpc.RichDetails

/-!
The reflection service's index. Every registered file is re-encoded and stored under its
name and under each symbol it declares; a later file takes a name over. Encoding and
decoding of descriptors is prost's and a parameter.
-/
namespace ReflectionIndex
open KeyedMultimap LengthFraming FallibleLoops GrpcStatus ProtoServices RichDetails

structure EnumDescriptorProto where
  name : Option String
  deriving DecidableEq, Repr

inductive DescriptorProto where
  | mk (name : Option String) (nestedType : List DescriptorProto)
      (enumType : List EnumDescriptorProto)

/-- A file; `others` are the fields that nothing here reads. -/
structure FileDescriptorProto (R : Type) where
  name : Option String
  package : Option String
  dependency : List String
  messageType : List DescriptorProto
  enumType : List EnumDescriptorProto
  service : List ServiceDescriptorProto
  others : R

variable {R : Type}

structure Prost (R : Type) where
  decodeSet : Bytes → Except String (List (FileDescriptorProto R))
  encodeFile : FileDescriptorProto R → Except String Bytes
  decodeFile : Bytes → Except String (FileDescriptorProto R)
  inverts : ∀ file bytes, encodeFile file = .ok bytes → decodeFile bytes = .ok file

abbrev Index := Multimap String Bytes

def makeFqn (package name : String) : String := if package = "" then name else package ++ "." ++ name

def indexEnums (symbols : Index) (parentFqn : String) (fileBytes : Bytes)
    (enums : List EnumDescriptorProto) : Index :=
  enums.foldl (fun symbols enum =>
    match enum.name with
    | some name => insertKey symbols (makeFqn parentFqn name) fileBytes
    | none => symbols) symbols

mutual
/-- A message without a name hides what is nested in it. -/
def indexMessage (symbols : Index) (parentFqn : String) (fileBytes : Bytes) :
    DescriptorProto → Index
  | .mk none _ _ => symbols
  | .mk (some name) nestedType enumType =>
    let fqn := makeFqn parentFqn name
    let symbols := insertKey symbols fqn fileBytes
    let symbols := indexMessageTypes symbols fqn fileBytes nestedType
    indexEnums symbols fqn fileBytes enumType

def indexMessageTypes (symbols : Index) (parentFqn : String) (fileBytes : Bytes) :
    List DescriptorProto → Index
  | [] => symbols
  | message :: rest =>
    indexMessageTypes (indexMessage symbols parentFqn fileBytes message) parentFqn fileBytes rest
end

def indexMethods (symbols : Index) (fqn : String) (fileBytes : Bytes)
    (methods : List MethodDescriptorProto) : Index :=
  methods.foldl (fun symbols method =>
    match method.name with
    | some name => insertKey symbols (fqn ++ "." ++ name) fileBytes
    | none => symbols) symbols

structure ReflectionServerBuilder where
  serviceNames : List String
  symbols : Index
  files : Index
  deriving DecidableEq, Repr

def ReflectionServerBuilder.new : ReflectionServerBuilder := ⟨[], [], []⟩

def ReflectionServerBuilder.indexService (package : String) (fileBytes : Bytes)
    (self : ReflectionServerBuilder) (svc : ServiceDescriptorProto) : ReflectionServerBuilder :=
  match svc.name with
  | none => self
  | some name =>
    let fqn := makeFqn package name
    { self with
      serviceNames := self.serviceNames ++ [fqn]
      symbols := indexMethods (insertKey self.symbols fqn fileBytes) fqn fileBytes svc.method }

def ReflectionServerBuilder.registerFile (self : ReflectionServerBuilder)
    (file : FileDescriptorProto R) (fileBytes : Bytes) : ReflectionServerBuilder :=
  let files := match file.name with
    | some name => insertKey self.files name fileBytes
    | none => self.files
  let package := file.package.getD ""
  let self := file.service.foldl (ReflectionServerBuilder.indexService package fileBytes)
    { self with files }
  let symbols := indexMessageTypes self.symbols package fileBytes file.messageType
  { self with symbols := indexEnums symbols package fileBytes file.enumType }

section Registering
variable (p : Prost R)

def ReflectionServerBuilder.encodeAndRegister (self : ReflectionServerBuilder)
    (file : FileDescriptorProto R) : Except Status ReflectionServerBuilder :=
  match p.encodeFile file with
  | .error e => .error (.internal ("failed to re-encode FileDescriptorProto: " ++ e))
  | .ok fileBytes => .ok (self.registerFile file fileBytes)

def ReflectionServerBuilder.registerEncodedFileDescriptorSet (self : ReflectionServerBuilder)
    (encoded : Bytes) : Except Status ReflectionServerBuilder :=
  match p.decodeSet encoded with
  | .error e => .error
      (.internal ("invalid FileDescriptorSet: descriptor bytes are corrupt: " ++ e))
  | .ok fds => fds.foldlM (ReflectionServerBuilder.encodeAndRegister p) self

def ReflectionServerBuilder.registerService (self : ReflectionServerBuilder) (name : String) :
    ReflectionServerBuilder :=
  { self with serviceNames := self.serviceNames ++ [name] }

inductive Registration where
  | encodedFileDescriptorSet (encoded : Bytes)
  | service (name : String)
  deriving DecidableEq, Repr

def ReflectionServerBuilder.register (self : ReflectionServerBuilder) :
    Registration → Except Status ReflectionServerBuilder
  | .encodedFileDescriptorSet encoded => self.registerEncodedFileDescriptorSet p encoded
  | .service name => .ok (self.registerService name)

end Registering

structure ReflectionState where
  serviceNames : List String
  symbols : Index
  files : Index
  deriving DecidableEq, Repr

def reflectionName : String := "grpc.reflection.v1.ServerReflection"

def ReflectionServerBuilder.build (self : ReflectionServerBuilder) : ReflectionState :=
  let serviceNames := if self.serviceNames.contains reflectionName then self.serviceNames
    else self.serviceNames ++ [reflectionName]
  ⟨serviceNames, self.symbols, self.files⟩

structure ExtensionRequest where
  containingType : String
  extensionNumber : Int32
  deriving DecidableEq

inductive MessageRequest where
  | fileByFilename (filename : String)
  | fileContainingSymbol (symbol : String)
  | fileContainingExtension (extension : ExtensionRequest)
  | allExtensionNumbersOfType (type : String)
  | listServices (content : String)
  deriving DecidableEq

structure ServerReflectionRequest where
  host : String
  messageRequest : Option MessageRequest
  deriving DecidableEq

structure ServiceResponse where
  name : String
  deriving DecidableEq

inductive MessageResponse where
  | fileDescriptorResponse (fileDescriptorProto : List Bytes)
  | listServicesResponse (service : List ServiceResponse)
  | errorResponse (errorCode : Int32) (errorMessage : String)
  deriving DecidableEq

structure ServerReflectionResponse where
  validHost : String
  originalRequest : Option ServerReflectionRequest
  messageResponse : Option MessageResponse
  deriving DecidableEq

def handleReflectionRequest (state : ReflectionState) (req : ServerReflectionRequest) :
    ServerReflectionResponse :=
  let response : MessageResponse := match req.messageRequest with
    | some (.listServices _) => .listServicesResponse (state.serviceNames.map .mk)
    | some (.fileContainingSymbol symbol) =>
      match getKey state.symbols symbol with
      | some fileBytes => .fileDescriptorResponse [fileBytes]
      | none => .errorResponse (Code.asI32 .notFound) ("symbol not found: " ++ symbol)
    | some (.fileByFilename filename) =>
      match getKey state.files filename with
      | some fileBytes => .fileDescriptorResponse [fileBytes]
      | none => .errorResponse (Code.asI32 .notFound) ("file not found: " ++ filename)
    | some (.allExtensionNumbersOfType _) =>
      .errorResponse (Code.asI32 .unimplemented) "extensions not supported"
    | _ => .errorResponse (Code.asI32 .invalidArgument) "unknown request type"
  ⟨"", some req, some response⟩

section Declarations

/-- The symbols a message declares in its scope, at any depth under messages with names. -/
inductive MessageDeclares : String → DescriptorProto → String → Prop where
  | itself {scope name nestedType enumType} :
      MessageDeclares scope (.mk (some name) nestedType enumType) (makeFqn scope name)
  | nested {scope name nestedType enumType inner s} (mem : inner ∈ nestedType)
      (declares : MessageDeclares (makeFqn scope name) inner s) :
      MessageDeclares scope (.mk (some name) nestedType enumType) s
  | enum {scope name nestedType enumType inner enumName} (mem : inner ∈ enumType)
      (named : inner.name = some enumName) :
      MessageDeclares scope (.mk (some name) nestedType enumType)
        (makeFqn (makeFqn scope name) enumName)

/-- The fully qualified names of a file's services, methods, messages and enums. -/
inductive Declares (file : FileDescriptorProto R) : String → Prop where
  | service {svc name} (mem : svc ∈ file.service) (named : svc.name = some name) :
      Declares file (makeFqn (file.package.getD "") name)
  | method {svc name method methodName} (mem : svc ∈ file.service) (named : svc.name = some name)
      (inside : method ∈ svc.method) (methodNamed : method.name = some methodName) :
      Declares file (makeFqn (file.package.getD "") name ++ "." ++ methodName)
  | message {message s} (mem : message ∈ file.messageType)
      (declares : MessageDeclares (file.package.getD "") message s) : Declares file s
  | enum {inner name} (mem : inner ∈ file.enumType) (named : inner.name = some name) :
      Declares file (makeFqn (file.package.getD "") name)

end Declarations

section Names

def enumNames (scope : String) (enums : List EnumDescriptorProto) : List String :=
  enums.filterMap fun enum => enum.name.map (makeFqn scope)

mutual
def messageNames (scope : String) : DescriptorProto → List String
  | .mk none _ _ => []
  | .mk (some name) nestedType enumType =>
    makeFqn scope name :: (messageTypesNames (makeFqn scope name) nestedType ++
      enumNames (makeFqn scope name) enumType)

def messageTypesNames (scope : String) : List DescriptorProto → List String
  | [] => []
  | message :: rest => messageNames scope message ++ messageTypesNames scope rest
end

def methodNames (fqn : String) (methods : List MethodDescriptorProto) : List String :=
  methods.filterMap fun method => method.name.map (fqn ++ "." ++ ·)

def serviceNames (scope : String) (svc : ServiceDescriptorProto) : List String :=
  match svc.name with
  | none => []
  | some name => makeFqn scope name :: methodNames (makeFqn scope name) svc.method

def symbolNames (file : FileDescriptorProto R) : List String :=
  let package := file.package.getD ""
  file.service.flatMap (serviceNames package) ++ messageTypesNames package file.messageType ++
    enumNames package file.enumType

theorem enum_names_iff (scope : String) (enums : List EnumDescriptorProto) (s : String) :
    s ∈ enumNames scope enums ↔
      ∃ enum ∈ enums, ∃ name, enum.name = some name ∧ makeFqn scope name = s := by
  simp only [enumNames, List.mem_filterMap, Option.map_eq_some_iff]

mutual
theorem message_names_iff (scope : String) (message : DescriptorProto) (s : String) :
    s ∈ messageNames scope message ↔ MessageDeclares scope message s := by
  cases message with
  | mk name nestedType enumType =>
    cases name with
    | none =>
      rw [messageNames]
      constructor
      · intro mem
        cases mem
      · intro declares
        cases declares
    | some name =>
      rw [messageNames, List.mem_cons, List.mem_append, enum_names_iff,
        message_types_names_iff (makeFqn scope name) nestedType s]
      constructor
      · intro mem
        rcases mem with same | ⟨inner, mem, declares⟩ | ⟨enum, mem, enumName, named, same⟩
        · subst same
          exact .itself
        · exact .nested mem declares
        · subst same
          exact .enum mem named
      · intro declares
        cases declares with
        | itself => exact .inl rfl
        | nested mem declares => exact .inr (.inl ⟨_, mem, declares⟩)
        | enum mem named => exact .inr (.inr ⟨_, mem, _, named, rfl⟩)

theorem message_types_names_iff (scope : String) (messages : List DescriptorProto) (s : String) :
    s ∈ messageTypesNames scope messages ↔ ∃ message ∈ messages, MessageDeclares scope message s := by
  cases messages with
  | nil =>
    rw [messageTypesNames]
    simp
  | cons message rest =>
    rw [messageTypesNames, List.mem_append, message_names_iff scope message s,
      message_types_names_iff scope rest s, List.exists_mem_cons_iff]
end

theorem symbol_names_iff (file : FileDescriptorProto R) (s : String) :
    s ∈ symbolNames file ↔ Declares file s := by
  simp only [symbolNames, List.mem_append, List.mem_flatMap, message_types_names_iff, enum_names_iff]
  constructor
  · intro mem
    rcases mem with (⟨svc, mem, named⟩ | ⟨message, mem, declares⟩) | ⟨enum, mem, name, named, same⟩
    · unfold serviceNames at named
      split at named
      · cases named
      · rename_i name svcName
        rcases List.mem_cons.mp named with same | method
        · subst same
          exact .service mem svcName
        · simp only [methodNames, List.mem_filterMap, Option.map_eq_some_iff] at method
          obtain ⟨method, inside, methodName, methodNamed, same⟩ := method
          subst same
          exact .method mem svcName inside methodNamed
    · exact .message mem declares
    · subst same
      exact .enum mem named
  · intro declares
    cases declares with
    | service mem named => exact .inl (.inl ⟨_, mem, by simp [serviceNames, named]⟩)
    | @method svc name method methodName mem named inside methodNamed =>
      refine .inl (.inl ⟨svc, mem, ?_⟩)
      simp only [serviceNames, named, List.mem_cons, methodNames, List.mem_filterMap,
        Option.map_eq_some_iff]
      exact .inr ⟨method, inside, methodName, methodNamed, rfl⟩
    | message mem declares => exact .inl (.inr ⟨_, mem, declares⟩)
    | enum mem named => exact .inr ⟨_, mem, _, named, rfl⟩

end Names

section Writes

def writes (fileBytes : Bytes) (names : List String) : Index := names.map fun name => (name, fileBytes)

theorem insert_writes_append (m : Index) (fileBytes : Bytes) (front back : List String) :
    insertAll m (writes fileBytes (front ++ back)) =
      insertAll (insertAll m (writes fileBytes front)) (writes fileBytes back) := by
  rw [writes, List.map_append, insert_all_append]
  rfl

theorem insert_writes_cons (m : Index) (fileBytes : Bytes) (name : String) (rest : List String) :
    insertAll m (writes fileBytes (name :: rest)) =
      insertAll (insertKey m name fileBytes) (writes fileBytes rest) := rfl

theorem insert_named {α : Type} (nameOf : α → Option String) (fqn : String → String)
    (fileBytes : Bytes) (items : List α) (m : Index) :
    items.foldl (fun m item =>
        match nameOf item with
        | some name => insertKey m (fqn name) fileBytes
        | none => m) m =
      insertAll m (writes fileBytes (items.filterMap fun item => (nameOf item).map fqn)) := by
  induction items generalizing m with
  | nil => rfl
  | cons item rest ih =>
    rw [List.foldl_cons, ih, List.filterMap_cons]
    cases nameOf item with
    | none => rfl
    | some name => rfl

theorem index_enums_writes (symbols : Index) (scope : String) (fileBytes : Bytes)
    (enums : List EnumDescriptorProto) :
    indexEnums symbols scope fileBytes enums =
      insertAll symbols (writes fileBytes (enumNames scope enums)) :=
  insert_named EnumDescriptorProto.name (makeFqn scope) fileBytes enums symbols

mutual
theorem index_message_writes (symbols : Index) (scope : String) (fileBytes : Bytes)
    (message : DescriptorProto) :
    indexMessage symbols scope fileBytes message =
      insertAll symbols (writes fileBytes (messageNames scope message)) := by
  cases message with
  | mk name nestedType enumType =>
    cases name with
    | none =>
      rw [indexMessage, messageNames]
      rfl
    | some name =>
      rw [indexMessage, messageNames, insert_writes_cons, insert_writes_append, index_enums_writes,
        index_message_types_writes _ _ _ nestedType]

theorem index_message_types_writes (symbols : Index) (scope : String) (fileBytes : Bytes)
    (messages : List DescriptorProto) :
    indexMessageTypes symbols scope fileBytes messages =
      insertAll symbols (writes fileBytes (messageTypesNames scope messages)) := by
  cases messages with
  | nil =>
    rw [indexMessageTypes, messageTypesNames]
    rfl
  | cons message rest =>
    rw [indexMessageTypes, messageTypesNames, insert_writes_append,
      index_message_writes _ _ _ message, index_message_types_writes _ _ _ rest]
end

theorem index_service_writes (package : String) (fileBytes : Bytes)
    (self : ReflectionServerBuilder) (svc : ServiceDescriptorProto) :
    (self.indexService package fileBytes svc).symbols =
        insertAll self.symbols (writes fileBytes (serviceNames package svc)) ∧
      (self.indexService package fileBytes svc).files = self.files := by
  unfold ReflectionServerBuilder.indexService serviceNames
  cases svc.name with
  | none => exact ⟨rfl, rfl⟩
  | some name =>
    refine ⟨?_, rfl⟩
    rw [insert_writes_cons]
    exact insert_named MethodDescriptorProto.name (makeFqn package name ++ "." ++ ·) fileBytes
      svc.method _

theorem index_services_writes (package : String) (fileBytes : Bytes)
    (services : List ServiceDescriptorProto) (self : ReflectionServerBuilder) :
    (services.foldl (ReflectionServerBuilder.indexService package fileBytes) self).symbols =
        insertAll self.symbols (writes fileBytes (services.flatMap (serviceNames package))) ∧
      (services.foldl (ReflectionServerBuilder.indexService package fileBytes) self).files =
        self.files := by
  induction services generalizing self with
  | nil => exact ⟨rfl, rfl⟩
  | cons svc rest ih =>
    obtain ⟨first, kept⟩ := index_service_writes package fileBytes self svc
    obtain ⟨later, still⟩ := ih (self.indexService package fileBytes svc)
    rw [List.foldl_cons, List.flatMap_cons, insert_writes_append, ← first]
    exact ⟨later, still.trans kept⟩

/-- What registering a file stores under which symbols, and under which file name. -/
def symbolBatch (entry : FileDescriptorProto R × Bytes) : Index :=
  writes entry.2 (symbolNames entry.1)

def fileBatch (entry : FileDescriptorProto R × Bytes) : Index :=
  writes entry.2 entry.1.name.toList

theorem register_file_writes (self : ReflectionServerBuilder) (file : FileDescriptorProto R)
    (fileBytes : Bytes) :
    (self.registerFile file fileBytes).symbols =
        insertAll self.symbols (symbolBatch (file, fileBytes)) ∧
      (self.registerFile file fileBytes).files = insertAll self.files (fileBatch (file, fileBytes)) := by
  have services := index_services_writes (file.package.getD "") fileBytes file.service
  unfold ReflectionServerBuilder.registerFile
  constructor
  · dsimp only
    rw [symbolBatch, symbolNames, insert_writes_append, insert_writes_append, index_enums_writes,
      index_message_types_writes, (services _).1]
  · dsimp only
    rw [(services _).2, fileBatch]
    cases file.name with
    | none => rfl
    | some name => rfl

theorem mem_symbol_batch {entry : FileDescriptorProto R × Bytes} {s : String} {bytes : Bytes} :
    (s, bytes) ∈ symbolBatch entry ↔ Declares entry.1 s ∧ bytes = entry.2 := by
  rw [← symbol_names_iff]
  simp only [symbolBatch, writes, List.mem_map, Prod.mk.injEq]
  constructor
  · intro written
    obtain ⟨name, mem, same, held⟩ := written
    exact ⟨same ▸ mem, held.symm⟩
  · intro declared
    exact ⟨s, declared.1, rfl, declared.2.symm⟩

theorem mem_file_batch {entry : FileDescriptorProto R × Bytes} {f : String} {bytes : Bytes} :
    (f, bytes) ∈ fileBatch entry ↔ entry.1.name = some f ∧ bytes = entry.2 := by
  simp only [fileBatch, writes, List.mem_map, Prod.mk.injEq, Option.mem_toList]
  constructor
  · intro written
    obtain ⟨name, named, same, held⟩ := written
    exact ⟨same ▸ named, held.symm⟩
  · intro named
    exact ⟨f, named.1, rfl, named.2.symm⟩

/-- An index that batches were stored in, and what a batch of an entry holds: a key is found
    exactly if some entry has it, with the bytes of an entry that has it. -/
theorem index_exact {α : Type} {batch : α × Bytes → Index} (has : α → String → Prop)
    (holds : ∀ entry key bytes, (key, bytes) ∈ batch entry ↔ has entry.1 key ∧ bytes = entry.2)
    (entries : List (α × Bytes)) (key : String) :
    ((∃ entry ∈ entries, has entry.1 key) →
      ∃ bytes, getKey (insertAll [] (entries.flatMap batch)) key = some bytes) ∧
    ∀ bytes, getKey (insertAll [] (entries.flatMap batch)) key = some bytes →
      ∃ entry ∈ entries, has entry.1 key ∧ bytes = entry.2 := by
  constructor
  · intro given
    obtain ⟨front, entry, back, rfl, here, later⟩ :=
      exists_last (P := fun entry : α × Bytes => has entry.1 key) given
    obtain ⟨bytes, _, found⟩ := get_last_batch batch [] front
      ⟨entry.2, (holds entry key entry.2).mpr ⟨here, rfl⟩⟩
      (fun other mem written => by
        obtain ⟨bytes, written⟩ := written
        exact later other mem ((holds other key bytes).mp written).1)
    exact ⟨bytes, found⟩
  · intro bytes found
    obtain ⟨front, entry, back, rfl, written, _⟩ := last_batch_of_get found
    exact ⟨entry, by simp, (holds entry key bytes).mp written⟩

end Writes

section Runs
variable (p : Prost R)

/-- From one builder to another, these files were encoded and stored, in order. -/
def Indexed (files : List (FileDescriptorProto R)) (s t : ReflectionServerBuilder) : Prop :=
  ∃ entries : List (FileDescriptorProto R × Bytes), entries.map (·.1) = files ∧
    (∀ entry ∈ entries, p.encodeFile entry.1 = .ok entry.2) ∧
    t.symbols = insertAll s.symbols (entries.flatMap symbolBatch) ∧
    t.files = insertAll s.files (entries.flatMap fileBatch)

variable {p}

theorem indexed_none {s t : ReflectionServerBuilder} (symbols : t.symbols = s.symbols)
    (files : t.files = s.files) : Indexed p [] s t :=
  ⟨[], rfl, (fun _ mem => nomatch mem), symbols, files⟩

theorem indexed_append {fs gs : List (FileDescriptorProto R)} {s t u : ReflectionServerBuilder}
    (first : Indexed p fs s t) (second : Indexed p gs t u) : Indexed p (fs ++ gs) s u := by
  obtain ⟨front, frontFiles, frontEncoded, frontSymbols, frontNames⟩ := first
  obtain ⟨back, backFiles, backEncoded, backSymbols, backNames⟩ := second
  refine ⟨front ++ back, by rw [List.map_append, frontFiles, backFiles], ?_, ?_, ?_⟩
  · intro entry mem
    rcases List.mem_append.mp mem with mem | mem
    · exact frontEncoded entry mem
    · exact backEncoded entry mem
  · rw [List.flatMap_append, insert_all_append, ← frontSymbols, backSymbols]
  · rw [List.flatMap_append, insert_all_append, ← frontNames, backNames]

theorem indexed_file {s t : ReflectionServerBuilder} {file : FileDescriptorProto R}
    (run : s.encodeAndRegister p file = .ok t) : Indexed p [file] s t := by
  unfold ReflectionServerBuilder.encodeAndRegister at run
  split at run
  · cases run
  · rename_i fileBytes encoded
    cases run
    obtain ⟨symbols, files⟩ := register_file_writes s file fileBytes
    refine ⟨[(file, fileBytes)], rfl, ?_, ?_, ?_⟩
    · intro entry mem
      cases List.mem_singleton.mp mem
      exact encoded
    · rw [symbols, List.flatMap_singleton]
    · rw [files, List.flatMap_singleton]

theorem indexed_files {fds : List (FileDescriptorProto R)} {s t : ReflectionServerBuilder}
    (run : fds.foldlM (ReflectionServerBuilder.encodeAndRegister p) s = .ok t) :
    Indexed p fds s t := by
  induction fds generalizing s with
  | nil =>
    cases run
    exact indexed_none rfl rfl
  | cons file rest ih =>
    rw [List.foldlM_cons] at run
    obtain ⟨next, first, later⟩ := bind_ok run
    exact indexed_append (indexed_file first) (ih later)

variable (p)

def Registration.files : Registration → List (FileDescriptorProto R)
  | .encodedFileDescriptorSet encoded =>
    match p.decodeSet encoded with
    | .ok fds => fds
    | .error _ => []
  | .service _ => []

variable {p}

theorem indexed_registration {registration : Registration} {s t : ReflectionServerBuilder}
    (run : s.register p registration = .ok t) : Indexed p (registration.files p) s t := by
  cases registration with
  | service name =>
    cases run
    exact indexed_none rfl rfl
  | encodedFileDescriptorSet encoded =>
    unfold ReflectionServerBuilder.register
      ReflectionServerBuilder.registerEncodedFileDescriptorSet at run
    dsimp only at run
    unfold Registration.files
    split at run
    · cases run
    · rename_i fds decoded
      simp only [decoded]
      exact indexed_files run

theorem indexed_run {registrations : List Registration} {s t : ReflectionServerBuilder}
    (run : registrations.foldlM (ReflectionServerBuilder.register p) s = .ok t) :
    Indexed p (registrations.flatMap (Registration.files p)) s t := by
  induction registrations generalizing s with
  | nil =>
    cases run
    exact indexed_none rfl rfl
  | cons registration rest ih =>
    rw [List.foldlM_cons] at run
    obtain ⟨next, first, later⟩ := bind_ok run
    exact indexed_append (indexed_registration first) (ih later)

end Runs

section Answers

def Serves (state : ReflectionState) (request : MessageRequest) (bytes : Bytes) : Prop :=
  ∀ host, (handleReflectionRequest state ⟨host, some request⟩).messageResponse =
    some (.fileDescriptorResponse [bytes])

theorem serves_symbol_iff (state : ReflectionState) (s : String) (bytes : Bytes) :
    Serves state (.fileContainingSymbol s) bytes ↔ getKey state.symbols s = some bytes := by
  unfold Serves handleReflectionRequest
  dsimp only
  cases getKey state.symbols s with
  | some held => simp
  | none => simp

theorem serves_file_iff (state : ReflectionState) (f : String) (bytes : Bytes) :
    Serves state (.fileByFilename f) bytes ↔ getKey state.files f = some bytes := by
  unfold Serves handleReflectionRequest
  dsimp only
  cases getKey state.files f with
  | some held => simp
  | none => simp

theorem serves_request {state : ReflectionState} {request : MessageRequest} {bytes : Bytes}
    (served : Serves state request bytes) :
    (∃ s, request = .fileContainingSymbol s) ∨ ∃ f, request = .fileByFilename f := by
  cases request with
  | fileContainingSymbol s => exact .inl ⟨s, rfl⟩
  | fileByFilename f => exact .inr ⟨f, rfl⟩
  | fileContainingExtension extension => cases served ""
  | allExtensionNumbersOfType type => cases served ""
  | listServices content => cases served ""

def registered (p : Prost R) (registrations : List Registration) : List (FileDescriptorProto R) :=
  registrations.flatMap (Registration.files p)

/-- The bytes of a registered file, which decode to it, and what the file has. -/
def BytesOf (p : Prost R) (registrations : List Registration)
    (has : FileDescriptorProto R → Prop) (bytes : Bytes) : Prop :=
  ∃ file ∈ registered p registrations, has file ∧ p.encodeFile file = .ok bytes ∧
    p.decodeFile bytes = .ok file

variable {p : Prost R} {registrations : List Registration}

theorem index_bytes {batch : FileDescriptorProto R × Bytes → Index}
    (has : FileDescriptorProto R → String → Prop)
    (holds : ∀ entry key bytes, (key, bytes) ∈ batch entry ↔ has entry.1 key ∧ bytes = entry.2)
    {entries : List (FileDescriptorProto R × Bytes)}
    (files : entries.map (·.1) = registered p registrations)
    (encoded : ∀ entry ∈ entries, p.encodeFile entry.1 = .ok entry.2) {index : Index}
    (stored : index = insertAll [] (entries.flatMap batch)) (key : String) :
    ((∃ bytes, getKey index key = some bytes) ↔
      ∃ file ∈ registered p registrations, has file key) ∧
    ∀ bytes, getKey index key = some bytes → BytesOf p registrations (has · key) bytes := by
  obtain ⟨complete, sound⟩ := index_exact has holds entries key
  rw [← stored] at complete sound
  have bytes_of : ∀ bytes, getKey index key = some bytes →
      BytesOf p registrations (has · key) bytes := by
    intro bytes found
    obtain ⟨entry, mem, here, same⟩ := sound bytes found
    subst same
    have given : entry.1 ∈ registered p registrations := files ▸ List.mem_map_of_mem mem
    have whole := encoded entry mem
    exact ⟨entry.1, given, here, whole, p.inverts _ _ whole⟩
  refine ⟨?_, bytes_of⟩
  constructor
  · intro found
    obtain ⟨bytes, found⟩ := found
    obtain ⟨file, given, here, _⟩ := bytes_of bytes found
    exact ⟨file, given, here⟩
  · intro given
    obtain ⟨file, mem, here⟩ := given
    rw [← files] at mem
    obtain ⟨entry, inside, same⟩ := List.mem_map.mp mem
    exact complete ⟨entry, inside, same ▸ here⟩

variable {builder : ReflectionServerBuilder}
  (run : registrations.foldlM (ReflectionServerBuilder.register p) .new = .ok builder)
include run

theorem symbol_served (s : String) :
    ((∃ bytes, Serves builder.build (.fileContainingSymbol s) bytes) ↔
      ∃ file ∈ registered p registrations, Declares file s) ∧
    ∀ bytes, Serves builder.build (.fileContainingSymbol s) bytes →
      BytesOf p registrations (Declares · s) bytes := by
  obtain ⟨entries, files, encoded, symbols, _⟩ := indexed_run run
  simp only [serves_symbol_iff]
  exact index_bytes Declares (fun _ _ _ => mem_symbol_batch) files encoded symbols s

theorem file_served (f : String) :
    ((∃ bytes, Serves builder.build (.fileByFilename f) bytes) ↔
      ∃ file ∈ registered p registrations, file.name = some f) ∧
    ∀ bytes, Serves builder.build (.fileByFilename f) bytes →
      BytesOf p registrations (·.name = some f) bytes := by
  obtain ⟨entries, files, encoded, _, names⟩ := indexed_run run
  simp only [serves_file_iff]
  exact index_bytes (fun file f => file.name = some f) (fun _ _ _ => mem_file_batch) files encoded
    names f

theorem served_registered {request : MessageRequest} {bytes : Bytes}
    (served : Serves builder.build request bytes) :
    ∃ file ∈ registered p registrations, p.decodeFile bytes = .ok file := by
  rcases serves_request served with ⟨s, rfl⟩ | ⟨f, rfl⟩
  · obtain ⟨file, given, _, _, decoded⟩ := (symbol_served run s).2 bytes served
    exact ⟨file, given, decoded⟩
  · obtain ⟨file, given, _, _, decoded⟩ := (file_served run f).2 bytes served
    exact ⟨file, given, decoded⟩

omit run in
/-- The index is complete and sound: symbols and file names are found exactly if a registered
    file has them, in the bytes of such a file, and with every import registered the imports of
    a file that is served are served too. -/
theorem reflection_index_exact (p : Prost R) (registrations : List Registration)
    (builder : ReflectionServerBuilder)
    (run : registrations.foldlM (ReflectionServerBuilder.register p) .new = .ok builder) :
    (∀ s, ((∃ bytes, Serves builder.build (.fileContainingSymbol s) bytes) ↔
        ∃ file ∈ registered p registrations, Declares file s) ∧
      ∀ bytes, Serves builder.build (.fileContainingSymbol s) bytes →
        BytesOf p registrations (Declares · s) bytes) ∧
    (∀ f, ((∃ bytes, Serves builder.build (.fileByFilename f) bytes) ↔
        ∃ file ∈ registered p registrations, file.name = some f) ∧
      ∀ bytes, Serves builder.build (.fileByFilename f) bytes →
        BytesOf p registrations (·.name = some f) bytes) ∧
    ((∀ file ∈ registered p registrations, ∀ d ∈ file.dependency,
        ∃ other ∈ registered p registrations, other.name = some d) →
      ∀ request bytes, Serves builder.build request bytes →
        ∃ file, p.decodeFile bytes = .ok file ∧
          ∀ d ∈ file.dependency, ∃ more, Serves builder.build (.fileByFilename d) more) := by
  refine ⟨symbol_served run, file_served run, ?_⟩
  intro closed request bytes served
  obtain ⟨file, given, decoded⟩ := served_registered run served
  refine ⟨file, decoded, ?_⟩
  intro d mem
  exact (file_served run d).1.mpr (closed file given d mem)

end Answers

section Nested

def nestedFile : FileDescriptorProto Unit where
  name := some "test.proto"
  package := some "pkg"
  dependency := []
  messageType := [.mk (some "Outer") [.mk (some "Inner") [] []] [⟨some "Status"⟩]]
  enumType := []
  service := []
  others := ()

def nestedBytes : Bytes :=
  [10, 10, 116, 101, 115, 116, 46, 112, 114, 111, 116, 111, 18, 3, 112, 107, 103, 34, 26, 10, 5, 79,
    117, 116, 101, 114, 26, 7, 10, 5, 73, 110, 110, 101, 114, 34, 8, 10, 6, 83, 116, 97, 116, 117,
    115]

def nestedSet : Bytes := 10 :: 45 :: nestedBytes

def nestedProst : Prost Unit where
  decodeSet encoded := if encoded = nestedSet then .ok [nestedFile] else .error "another set"
  encodeFile
    | ⟨some "test.proto", some "pkg", [], [.mk (some "Outer") [.mk (some "Inner") [] []]
        [⟨some "Status"⟩]], [], [], ()⟩ => .ok nestedBytes
    | _ => .error "another file"
  decodeFile encoded := if encoded = nestedBytes then .ok nestedFile else .error "another file"
  inverts := by
    intro file bytes encoded
    split at encoded
    · cases encoded
      rfl
    · cases encoded

theorem nested_types_served :
    ∃ builder, [Registration.encodedFileDescriptorSet nestedSet].foldlM
        (ReflectionServerBuilder.register nestedProst) .new = .ok builder ∧
      (∃ bytes, Serves builder.build (.fileContainingSymbol "pkg.Outer.Inner") bytes) ∧
      ¬ ∃ bytes, Serves builder.build (.fileByFilename "other.proto") bytes := by
  obtain ⟨symbols, files, _⟩ := reflection_index_exact nestedProst
    [Registration.encodedFileDescriptorSet nestedSet] _ rfl
  refine ⟨_, rfl, ?_, ?_⟩
  · exact (symbols "pkg.Outer.Inner").1.mpr ⟨nestedFile, List.mem_singleton.mpr rfl,
      .message (List.mem_singleton.mpr rfl)
        (.nested (List.mem_singleton.mpr rfl) .itself)⟩
  · intro served
    obtain ⟨file, mem, named⟩ := (files "other.proto").1.mp served
    cases List.mem_singleton.mp mem
    exact absurd named (by decide)

end Nested

end ReflectionIndex
