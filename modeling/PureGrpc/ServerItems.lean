import PureGrpc.ProtoServices
import Mathlib.Data.List.Nodup

/-!
The names in a generated server module. A method's struct and its response stream are named
by rewriting the method's name, into one module with the service's own items and the imports;
the rewrites are not injective and nothing compares their results.
-/
namespace ServerItems
open ProtoServices

section Suffixes

def stripSuffix (s suffix : String) : Option String :=
  if suffix.toList <:+ s.toList then
    some (String.ofList (s.toList.take (s.toList.length - suffix.toList.length)))
  else none

theorem strip_suffix_append (base suffix : String) :
    stripSuffix (base ++ suffix) suffix = some base := by
  simp [stripSuffix]

theorem strip_suffix_some_iff {s suffix base : String} :
    stripSuffix s suffix = some base ↔ s = base ++ suffix := by
  constructor
  · intro stripped
    unfold stripSuffix at stripped
    split at stripped
    · rename_i ends
      obtain ⟨front, same⟩ := ends
      cases stripped
      rw [← same, List.length_append, Nat.add_sub_cancel, List.take_left]
      apply String.toList_inj.mp
      rw [String.toList_append, String.toList_ofList, same]
    · cases stripped
  · intro same
    subst same
    exact strip_suffix_append base suffix

theorem stripped_same_iff {a b suffix : String} (different : a ≠ b) :
    (stripSuffix a suffix).getD a = (stripSuffix b suffix).getD b ↔
      (a = b ++ suffix ∧ stripSuffix b suffix = none) ∨
        (b = a ++ suffix ∧ stripSuffix a suffix = none) := by
  cases left : stripSuffix a suffix with
  | some base =>
    cases right : stripSuffix b suffix with
    | some other =>
      rw [strip_suffix_some_iff] at left right
      subst left right
      simp only [Option.getD_some, reduceCtorEq, and_false, or_self, iff_false]
      intro same
      exact different (congrArg (· ++ suffix) same)
    | none =>
      rw [strip_suffix_some_iff] at left
      subst left
      simp
  | none =>
    cases right : stripSuffix b suffix with
    | some other =>
      rw [strip_suffix_some_iff] at right
      subst right
      simp [eq_comm]
    | none =>
      simp only [Option.getD_none, different, and_true, false_iff, not_or]
      constructor
      · intro same
        rw [same, strip_suffix_append] at left
        cases left
      · intro same
        rw [same, strip_suffix_append] at right
        cases right

end Suffixes

structure MethodDef extends ProtoServices.MethodDef where
  rustName : Option String
  deriving DecidableEq, Repr

structure ServiceDef where
  name : String
  package : Option String
  methods : List MethodDef
  deriving DecidableEq, Repr

/-- What the generator takes from the crates it uses: the name a method has in Rust, the two
    case conversions, and the errors of a definition. -/
structure Naming where
  rustName : MethodDef → String
  toSnakeCase : String → String
  toUpperCamelCase : String → String
  validate : ServiceDef → List String

inductive Item where
  | imported (ident : String)
  | typeAlias (ident : String)
  | traitDef (ident : String) (types : List String) (fns : List String)
  | structDef (ident : String)
  deriving DecidableEq, Repr

def Item.ident : Item → String
  | .imported ident => ident
  | .typeAlias ident => ident
  | .traitDef ident _ _ => ident
  | .structDef ident => ident

structure ServerModule where
  name : String
  items : List Item
  deriving DecidableEq, Repr

def responseStreamIdent (protoName : String) : String :=
  (stripSuffix protoName "Stream").getD protoName ++ "ResponseStream"

def MethodDef.streamsResponse (method : MethodDef) : Bool :=
  method.streaming = .server || method.streaming = .bidi

def ServiceDef.needsStreamingImports (service : ServiceDef) : Bool :=
  service.methods.any fun m => m.streaming != .none

def streamingImports (service : ServiceDef) : List String :=
  if service.needsStreamingImports then ["Stream", "Streaming"] else []

def imports (service : ServiceDef) : List String :=
  ["Infallible", "Future", "Pin", "Arc", "Context", "Poll"] ++ streamingImports service ++
    ["Body", "Request", "Response", "Status"]

section Generating
variable (n : Naming)

def Naming.camelName (method : MethodDef) : String := n.toUpperCamelCase (n.rustName method)

def Naming.svcName (method : MethodDef) : String := n.camelName method ++ "Svc"

def Naming.serviceTrait (service : ServiceDef) : Item :=
  .traitDef service.name
    ((service.methods.filter MethodDef.streamsResponse).map fun m => responseStreamIdent m.name)
    (service.methods.map n.rustName)

def Naming.items (service : ServiceDef) : List Item :=
  (imports service).map .imported ++ [.typeAlias "BoxFuture", n.serviceTrait service,
    .structDef (service.name ++ "Server")] ++
    service.methods.map fun m => .structDef (n.svcName m)

/-- The server module of a service; a definition with errors is a panic. -/
def generate (service : ServiceDef) : Except String ServerModule :=
  match n.validate service with
  | [] => .ok ⟨n.toSnakeCase service.name ++ "_server", n.items service⟩
  | errors => .error ("invalid ServiceDef for server codegen: " ++ "; ".intercalate errors)

end Generating

/-- No two items of the module have one name, and no two types of a trait in it. -/
def Distinct (module : ServerModule) : Prop :=
  (module.items.map Item.ident).Nodup ∧
    ∀ ident types fns, .traitDef ident types fns ∈ module.items → types.Nodup

def reserved (service : ServiceDef) : List String := imports service ++ ["BoxFuture"]

/-- The names in a definition that keep the generated ones apart. -/
structure NamesApart (n : Naming) (service : ServiceDef) : Prop where
  methods : (service.methods.map n.camelName).Nodup
  streams : ∀ a ∈ service.methods, ∀ b ∈ service.methods, a.streamsResponse → b.streamsResponse →
    a.name = b.name ++ "Stream" → ∃ base, b.name = base ++ "Stream"
  unreserved : service.name ∉ reserved service
  notSvc : ∀ m ∈ service.methods, service.name ≠ n.camelName m ++ "Svc"

section Idents
variable {n : Naming} {service : ServiceDef}

theorem reserved_nodup (service : ServiceDef) : (reserved service).Nodup := by
  unfold reserved imports streamingImports
  split
  · decide
  · decide

theorem reserved_plain {x : String} (mem : x ∈ reserved service) :
    ¬ "Server".toList <:+ x.toList ∧ ¬ "Svc".toList <:+ x.toList := by
  have every : ∀ streaming : List String, (streaming = [] ∨ streaming = ["Stream", "Streaming"]) →
      ∀ x ∈ ["Infallible", "Future", "Pin", "Arc", "Context", "Poll"] ++ streaming ++
        ["Body", "Request", "Response", "Status"] ++ ["BoxFuture"],
      ¬ "Server".toList <:+ x.toList ∧ ¬ "Svc".toList <:+ x.toList := by
    intro streaming either
    rcases either with rfl | rfl
    · decide
    · decide
  apply every (streamingImports service) _ x mem
  unfold streamingImports
  split
  · exact .inr rfl
  · exact .inl rfl

theorem ends_append (base suffix : String) : suffix.toList <:+ (base ++ suffix).toList := by
  rw [String.toList_append]
  exact List.suffix_append _ _

theorem server_ne_svc (a b : String) : a ++ "Server" ≠ b ++ "Svc" := by
  intro same
  have lasts := congrArg (fun s => s.toList.getLast?) same
  simp at lasts

theorem own_ne_server (name : String) : name ≠ name ++ "Server" := by
  intro same
  have lengths := congrArg (fun s => s.toList.length) same
  simp at lengths

theorem items_idents (n : Naming) (service : ServiceDef) :
    (n.items service).map Item.ident =
      reserved service ++ [service.name, service.name ++ "Server"] ++
        service.methods.map n.svcName := by
  unfold Naming.items reserved
  simp only [List.map_append, List.map_map, List.map_cons, List.map_nil, List.append_assoc]
  have kept (names : List String) : names.map (Item.ident ∘ Item.imported) = names :=
    List.map_id names
  rw [kept]
  rfl

theorem trait_items {ident : String} {types fns : List String} :
    .traitDef ident types fns ∈ n.items service ↔
      .traitDef ident types fns = n.serviceTrait service := by
  simp [Naming.items, Naming.serviceTrait]

theorem svc_names_nodup_iff :
    (service.methods.map n.svcName).Nodup ↔ (service.methods.map n.camelName).Nodup := by
  have appended : service.methods.map n.svcName =
      (service.methods.map n.camelName).map (· ++ "Svc") := by
    rw [List.map_map]
    rfl
  rw [appended]
  apply List.nodup_map_iff
  intro a b same
  exact (String.append_left_inj "Svc").mp same

/-- The names that are made are apart from the fixed ones and from each other; what is left
    is the service's name and the methods among themselves. -/
theorem idents_nodup_iff :
    ((n.items service).map Item.ident).Nodup ↔
      service.name ∉ reserved service ∧
      (∀ m ∈ service.methods, service.name ≠ n.camelName m ++ "Svc") ∧
      (service.methods.map n.camelName).Nodup := by
  have svc_mem {x : String} : x ∈ service.methods.map n.svcName ↔
      ∃ m ∈ service.methods, n.camelName m ++ "Svc" = x := List.mem_map
  rw [items_idents, ← svc_names_nodup_iff]
  constructor
  · intro nodup
    obtain ⟨front, svcs, apart⟩ := List.nodup_append.mp nodup
    obtain ⟨_, _, unreserved⟩ := List.nodup_append.mp front
    refine ⟨?_, ?_, svcs⟩
    · intro mem
      exact unreserved _ mem _ List.mem_cons_self rfl
    · intro m mem
      exact apart _ (List.mem_append_right _ List.mem_cons_self) _ (List.mem_map_of_mem mem)
  · intro named
    obtain ⟨unreserved, notSvc, svcs⟩ := named
    have own : [service.name, service.name ++ "Server"].Nodup := by
      simp [own_ne_server]
    have front : (reserved service ++ [service.name, service.name ++ "Server"]).Nodup := by
      apply List.nodup_append.mpr
      refine ⟨reserved_nodup service, own, ?_⟩
      intro x fixed y made same
      subst same
      rcases List.mem_cons.mp made with trait | made
      · subst trait
        exact unreserved fixed
      · cases List.mem_singleton.mp made
        exact (reserved_plain fixed).1 (ends_append _ _)
    apply List.nodup_append.mpr
    refine ⟨front, svcs, ?_⟩
    intro x mem y made same
    subst same
    obtain ⟨m, inside, named⟩ := svc_mem.mp made
    subst named
    rcases List.mem_append.mp mem with fixed | mem
    · exact (reserved_plain fixed).2 (ends_append _ _)
    · rcases List.mem_cons.mp mem with trait | server
      · exact notSvc m inside trait.symm
      · exact server_ne_svc _ _ (List.mem_singleton.mp server).symm

/-- Of methods with different names, two have one response stream if one is named as the
    other with a Stream more. -/
theorem types_nodup_iff (names : (service.methods.map (·.name)).Nodup) :
    ((service.methods.filter MethodDef.streamsResponse).map
        fun m => responseStreamIdent m.name).Nodup ↔
      ∀ a ∈ service.methods, ∀ b ∈ service.methods, a.streamsResponse → b.streamsResponse →
        a.name = b.name ++ "Stream" → ∃ base, b.name = base ++ "Stream" := by
  have distinct {a b : MethodDef} (left : a ∈ service.methods) (right : b ∈ service.methods)
      (same : a.name = b.name) : a = b := List.inj_on_of_nodup_map names left right same
  rw [List.nodup_map_iff_inj_on (names.of_map.filter _)]
  simp only [List.mem_filter, responseStreamIdent, String.append_left_inj]
  constructor
  · intro injective a left b right streamsA streamsB longer
    cases ends : stripSuffix b.name "Stream" with
    | some base => exact ⟨base, strip_suffix_some_iff.mp ends⟩
    | none =>
      have different : a.name ≠ b.name := by
        intro same
        rw [longer] at same
        have lengths := congrArg (fun s => s.toList.length) same
        simp at lengths
      have same := injective a ⟨left, streamsA⟩ b ⟨right, streamsB⟩
        ((stripped_same_iff different).mpr (.inl ⟨longer, ends⟩))
      exact absurd (congrArg (·.name) same) different
  · intro apart a left b right same
    by_contra different
    have named : a.name ≠ b.name := mt (distinct left.1 right.1) different
    have longer {a b : MethodDef} (left : a ∈ service.methods ∧ a.streamsResponse)
        (right : b ∈ service.methods ∧ b.streamsResponse) (more : a.name = b.name ++ "Stream")
        (ends : stripSuffix b.name "Stream" = none) : False := by
      obtain ⟨base, has⟩ := apart a left.1 b right.1 left.2 right.2 more
      rw [has, strip_suffix_append] at ends
      cases ends
    rcases (stripped_same_iff named).mp same with ⟨more, ends⟩ | ⟨more, ends⟩
    · exact longer left right more ends
    · exact longer right left more ends

end Idents

/-- The items of a generated module are distinct, and so are the response streams of its
    trait, exactly if the names of the definition keep them apart. -/
theorem server_items_distinct_iff (n : Naming) (service : ServiceDef) (module : ServerModule)
    (names : (service.methods.map (·.name)).Nodup) (generated : generate n service = .ok module) :
    Distinct module ↔ NamesApart n service := by
  have items : module.items = n.items service := by
    unfold generate at generated
    split at generated
    · cases generated
      rfl
    · cases generated
  unfold Distinct
  rw [items, idents_nodup_iff]
  constructor
  · intro distinct
    obtain ⟨⟨unreserved, notSvc, methods⟩, types⟩ := distinct
    exact ⟨methods, (types_nodup_iff names).mp (types _ _ _ (trait_items.mpr rfl)), unreserved,
      notSvc⟩
  · intro apart
    refine ⟨⟨apart.unreserved, apart.notSvc, apart.methods⟩, ?_⟩
    intro ident types fns mem
    cases trait_items.mp mem
    exact (types_nodup_iff names).mpr apart.streams

section Services

/-- The case conversions and Rust names as far as these services go; none has an error. -/
def sampleNaming : Naming where
  rustName m := m.rustName.getD <| match m.name with
    | "Chat" => "chat"
    | "ChatStream" => "chat_stream"
    | "GetFoo" => "get_foo"
    | "Echo" => "echo"
    | name => name
  toSnakeCase
    | "Greeter" => "greeter"
    | "Chats" => "chats"
    | "Foos" => "foos"
    | "Status" => "status"
    | "EchoSvc" => "echo_svc"
    | name => name
  toUpperCamelCase
    | "say_hello" => "SayHello"
    | "say_hello_stream" => "SayHelloStream"
    | "chat" => "Chat"
    | "chat_stream" => "ChatStream"
    | "get_foo" => "GetFoo"
    | "echo" => "Echo"
    | name => name
  validate _ := []

def sampleMethod (name : String) (streaming : StreamingType) (rustName : Option String) :
    MethodDef :=
  ⟨⟨name, "super::HelloRequest", "super::HelloReply", streaming, defaultCodecPath⟩, rustName⟩

def greeter : ServiceDef :=
  ⟨"Greeter", some "helloworld", [sampleMethod "SayHello" .none (some "say_hello"),
    sampleMethod "SayHelloStream" .server (some "say_hello_stream")]⟩

theorem greeter_items_distinct :
    ∃ module, generate sampleNaming greeter = .ok module ∧ Distinct module := by
  refine ⟨_, rfl, (server_items_distinct_iff sampleNaming greeter _ (by decide) rfl).mpr ?_⟩
  refine ⟨by decide, ?_, by decide, by decide⟩
  intro a left b right streamsA streamsB longer
  simp only [greeter, List.mem_cons, List.not_mem_nil, or_false] at left right
  rcases left with rfl | rfl
  · cases streamsA
  · rcases right with rfl | rfl
    · cases streamsB
    · exact absurd longer (by decide)

/-- Two streams of one name; two structs of one name; a service named as an import, and one
    named as the struct of its method. -/
theorem four_services_clash :
    let named (service : String) (methods : List MethodDef) : ServiceDef :=
      ⟨service, some "helloworld", methods⟩
    ∀ service ∈ [
      named "Chats" [sampleMethod "Chat" .server none, sampleMethod "ChatStream" .bidi none],
      named "Foos" [sampleMethod "GetFoo" .none none, sampleMethod "get_foo" .none none],
      named "Status" [],
      named "EchoSvc" [sampleMethod "Echo" .none none]],
    (service.methods.map (·.name)).Nodup ∧
      ∃ module, generate sampleNaming service = .ok module ∧ ¬ Distinct module := by
  intro named service mem
  have clash {service : ServiceDef}
      (doubled : ¬ ((sampleNaming.items service).map Item.ident).Nodup) :
      ∃ module, generate sampleNaming service = .ok module ∧ ¬ Distinct module :=
    ⟨_, rfl, fun distinct => doubled distinct.1⟩
  simp only [List.mem_cons, List.not_mem_nil, or_false] at mem
  rcases mem with rfl | rfl | rfl | rfl
  · refine ⟨by decide, _, rfl, ?_⟩
    intro distinct
    exact absurd (distinct.2 _ _ _ (trait_items.mpr rfl)) (by decide)
  · exact ⟨by decide, clash (by decide)⟩
  · exact ⟨by decide, clash (by decide)⟩
  · exact ⟨by decide, clash (by decide)⟩

end Services

end ServerItems
