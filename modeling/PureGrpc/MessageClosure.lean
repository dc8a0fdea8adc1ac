import PureGrpc.ProtoServices
import PureGrpc.Worklists
import Mathlib.Data.Finset.Sort
import Mathlib.Data.List.TakeWhile
import Mathlib.Data.String.Basic

/-!
The messages a FlatBuffers schema's RPCs need. Messages are followed from the inputs and
outputs by worklist, under their qualified names, which are split and looked up again at each
visit; a lookup without a namespace takes the first message of the name.
-/
namespace MessageClosure
open Worklists ProtoServices Relation

/-- The type of a field, as far as it can refer to messages. -/
inductive SchemaType where
  | scalar
  | enum
  | foreignKey
  | message (name : String) (package : Option String)
  | vector (inner : SchemaType)
  | optional (inner : SchemaType)
  | map (key value : SchemaType)
  | oneOf (variants : List SchemaType)

structure FieldDef where
  name : String
  ty : SchemaType

structure MessageDef where
  name : String
  ns : Option String
  fields : List FieldDef

structure SchemaDef where
  messages : List MessageDef
  services : List ServiceDef

def qualifiedName (ns : Option String) (name : String) : String :=
  match ns.filter (· ≠ "") with
  | some ns => ns ++ "." ++ name
  | none => name

def MessageDef.id (m : MessageDef) : String := qualifiedName m.ns m.name

def splitQualified (id : String) : Option String × String :=
  let tail := id.toList.reverse
  match tail.dropWhile (· ≠ '.') with
  | [] => (none, id)
  | _ :: front =>
    (some (String.ofList front.reverse), String.ofList (tail.takeWhile (· ≠ '.')).reverse)

/-- What a lookup in this namespace accepts; none and the empty one accept everything. -/
def accepts (ns : Option String) (own : Option String) : Bool :=
  match ns, own with
  | none, _ => true
  | some req, some have_ => req = "" || req = have_
  | some req, none => req = ""

def findMessage (schema : SchemaDef) (ns : Option String) (name : String) : Option MessageDef :=
  schema.messages.find? fun m => m.name = name && accepts ns m.ns

/-- What is left of reversed characters before the first pair of colons. -/
def beforeColons : List Char → List Char
  | ':' :: ':' :: _ => []
  | c :: rest => c :: beforeColons rest
  | [] => []

def bareName (raw : String) : String :=
  String.ofList (beforeColons raw.toList.reverse).reverse

def firstNamed (schema : SchemaDef) (name : String) : Option MessageDef :=
  schema.messages.find? fun m => m.name = name

def qualifyMessage (schema : SchemaDef) (raw : String) : Option String :=
  (firstNamed schema (bareName raw)).map MessageDef.id

def SchemaDef.rpcTypes (schema : SchemaDef) : List String :=
  schema.services.flatMap fun svc => svc.methods.flatMap fun method =>
    [method.inputType, method.outputType]

def collectRpcIoMessages (schema : SchemaDef) : Finset String :=
  (schema.rpcTypes.filterMap (qualifyMessage schema)).toFinset

mutual
/-- The frontier is a stack, its top first. -/
def collectReferencedMessages (schema : SchemaDef) : SchemaType → List String → List String
  | .scalar, frontier => frontier
  | .enum, frontier => frontier
  | .foreignKey, frontier => frontier
  | .message name package, frontier =>
    match findMessage schema package name with
    | some msg => msg.id :: frontier
    | none => frontier
  | .vector inner, frontier => collectReferencedMessages schema inner frontier
  | .optional inner, frontier => collectReferencedMessages schema inner frontier
  | .map key value, frontier =>
    collectReferencedMessages schema value (collectReferencedMessages schema key frontier)
  | .oneOf variants, frontier => collectVariants schema variants frontier

def collectVariants (schema : SchemaDef) : List SchemaType → List String → List String
  | [], frontier => frontier
  | ty :: rest, frontier =>
    collectVariants schema rest (collectReferencedMessages schema ty frontier)
end

def lookup (schema : SchemaDef) (id : String) : Option MessageDef :=
  findMessage schema (splitQualified id).1 (splitQualified id).2

def visit (schema : SchemaDef) (id : String) (frontier : List String) : List String :=
  match lookup schema id with
  | none => frontier
  | some msg => msg.fields.foldl
      (fun frontier field => collectReferencedMessages schema field.ty frontier) frontier

section Pushing

/-- Whatever the frontier, a step pushes the same names, those with a property. -/
def Pushes (step : List String → List String) (pushed : String → Prop) : Prop :=
  ∃ ids, (∀ frontier, step frontier = ids ++ frontier) ∧ ∀ id, id ∈ ids ↔ pushed id

variable {step first second : List String → List String} {pushed these those : String → Prop}

theorem pushes_nothing : Pushes (fun frontier => frontier) fun _ => False :=
  ⟨[], fun _ => rfl, fun _ => List.mem_nil_iff _⟩

theorem pushes_one (id : String) : Pushes (id :: ·) (id = ·) :=
  ⟨[id], fun _ => rfl, fun other => by rw [List.mem_singleton, eq_comm]⟩

theorem pushes_same (steps : ∀ frontier, step frontier = first frontier)
    (ids : ∀ id, pushed id ↔ these id) (pushes : Pushes first these) : Pushes step pushed := by
  obtain ⟨names, firsts, mem⟩ := pushes
  exact ⟨names, fun frontier => (steps frontier).trans (firsts frontier),
    fun id => (mem id).trans (ids id).symm⟩

theorem pushes_both (one : Pushes first these) (two : Pushes second those) :
    Pushes (fun frontier => second (first frontier)) fun id => these id ∨ those id := by
  obtain ⟨front, firsts, these⟩ := one
  obtain ⟨back, seconds, those⟩ := two
  refine ⟨back ++ front, ?_, ?_⟩
  · intro frontier
    dsimp only
    rw [firsts, seconds, List.append_assoc]
  · intro id
    rw [List.mem_append, these, those, or_comm]

theorem pushes_all {β : Type} {step : β → List String → List String} {pushed : β → String → Prop}
    (items : List β) (each : ∀ item, Pushes (step item) (pushed item)) :
    Pushes (fun frontier => items.foldl (fun frontier item => step item frontier) frontier)
      fun id => ∃ item ∈ items, pushed item id := by
  induction items with
  | nil => exact pushes_same (fun _ => rfl) (fun _ => by simp) pushes_nothing
  | cons item items ih =>
    exact pushes_same (fun _ => rfl) (fun _ => by simp) (pushes_both (each item) ih)

end Pushing

section References

/-- A type refers to this name in this package, at any depth. -/
inductive Mentions : SchemaType → Option String → String → Prop where
  | message (name package) : Mentions (.message name package) package name
  | vector {inner package name} (h : Mentions inner package name) :
      Mentions (.vector inner) package name
  | optional {inner package name} (h : Mentions inner package name) :
      Mentions (.optional inner) package name
  | key {key value package name} (h : Mentions key package name) :
      Mentions (.map key value) package name
  | value {key value package name} (h : Mentions value package name) :
      Mentions (.map key value) package name
  | variant {ty variants package name} (mem : ty ∈ variants) (h : Mentions ty package name) :
      Mentions (.oneOf variants) package name

variable (schema : SchemaDef)

/-- A reference in the type is looked up as a message with this name. -/
def Refers (ty : SchemaType) (id : String) : Prop :=
  ∃ package name m, Mentions ty package name ∧ findMessage schema package name = some m ∧ m.id = id

variable {schema} {id : String}

theorem refers_mute {ty : SchemaType} (mute : ∀ package name, ¬ Mentions ty package name) :
    Refers schema ty id ↔ False := by
  constructor
  · intro refers
    obtain ⟨package, name, _, mention, _⟩ := refers
    exact mute package name mention
  · exact False.elim

theorem refers_message {name : String} {package : Option String} :
    Refers schema (.message name package) id ↔
      ∃ m, findMessage schema package name = some m ∧ m.id = id := by
  constructor
  · intro refers
    obtain ⟨_, _, m, mention, found⟩ := refers
    cases mention
    exact ⟨m, found⟩
  · intro found
    obtain ⟨m, found⟩ := found
    exact ⟨package, name, m, .message name package, found⟩

theorem refers_inner {ty inner : SchemaType}
    (same : ∀ package name, Mentions ty package name ↔ Mentions inner package name) :
    Refers schema ty id ↔ Refers schema inner id := by
  simp only [Refers, same]

theorem refers_map {key value : SchemaType} :
    Refers schema (.map key value) id ↔ Refers schema key id ∨ Refers schema value id := by
  constructor
  · intro refers
    obtain ⟨package, name, m, mention, found⟩ := refers
    cases mention with
    | key h => exact .inl ⟨package, name, m, h, found⟩
    | value h => exact .inr ⟨package, name, m, h, found⟩
  · intro either
    rcases either with ⟨package, name, m, h, found⟩ | ⟨package, name, m, h, found⟩
    · exact ⟨package, name, m, .key h, found⟩
    · exact ⟨package, name, m, .value h, found⟩

theorem refers_one_of {variants : List SchemaType} :
    Refers schema (.oneOf variants) id ↔ ∃ ty ∈ variants, Refers schema ty id := by
  constructor
  · intro refers
    obtain ⟨package, name, m, mention, found⟩ := refers
    cases mention with
    | variant mem h => exact ⟨_, mem, package, name, m, h, found⟩
  · intro some_variant
    obtain ⟨ty, mem, package, name, m, h, found⟩ := some_variant
    exact ⟨package, name, m, .variant mem h, found⟩

variable (schema)

mutual
theorem referenced_pushes (ty : SchemaType) :
    Pushes (collectReferencedMessages schema ty) (Refers schema ty) := by
  cases ty with
  | scalar =>
    exact pushes_same (fun _ => by rw [collectReferencedMessages])
      (fun _ => refers_mute fun _ _ mention => nomatch mention) pushes_nothing
  | enum =>
    exact pushes_same (fun _ => by rw [collectReferencedMessages])
      (fun _ => refers_mute fun _ _ mention => nomatch mention) pushes_nothing
  | foreignKey =>
    exact pushes_same (fun _ => by rw [collectReferencedMessages])
      (fun _ => refers_mute fun _ _ mention => nomatch mention) pushes_nothing
  | message name package =>
    cases found : findMessage schema package name with
    | none =>
      exact pushes_same (fun _ => by simp only [collectReferencedMessages, found])
        (fun _ => by simp [refers_message, found]) pushes_nothing
    | some msg =>
      exact pushes_same (fun _ => by simp only [collectReferencedMessages, found])
        (fun _ => by simp [refers_message, found]) (pushes_one msg.id)
  | vector inner =>
    refine pushes_same (fun _ => by rw [collectReferencedMessages]) ?_ (referenced_pushes inner)
    intro id
    apply refers_inner
    intro package name
    exact ⟨fun | .vector h => h, .vector⟩
  | optional inner =>
    refine pushes_same (fun _ => by rw [collectReferencedMessages]) ?_ (referenced_pushes inner)
    intro id
    apply refers_inner
    intro package name
    exact ⟨fun | .optional h => h, .optional⟩
  | map key value =>
    exact pushes_same (fun _ => by rw [collectReferencedMessages]) (fun _ => refers_map)
      (pushes_both (referenced_pushes key) (referenced_pushes value))
  | oneOf variants =>
    exact pushes_same (fun _ => by rw [collectReferencedMessages]) (fun _ => refers_one_of)
      (variants_pushes variants)

theorem variants_pushes (variants : List SchemaType) :
    Pushes (collectVariants schema variants) fun id => ∃ ty ∈ variants, Refers schema ty id := by
  cases variants with
  | nil => exact pushes_same (fun _ => by rw [collectVariants]) (fun _ => by simp) pushes_nothing
  | cons ty rest =>
    exact pushes_same (fun _ => by rw [collectVariants]) (fun _ => by simp)
      (pushes_both (referenced_pushes ty) (variants_pushes rest))
end

theorem visit_pushes (id : String) :
    Pushes (visit schema id) fun next =>
      ∃ msg, lookup schema id = some msg ∧ ∃ field ∈ msg.fields, Refers schema field.ty next := by
  cases found : lookup schema id with
  | none =>
    exact pushes_same (fun _ => by simp only [visit, found]) (fun _ => by simp) pushes_nothing
  | some msg =>
    exact pushes_same (fun _ => by simp only [visit, found]) (fun _ => by simp)
      (pushes_all msg.fields fun field => referenced_pushes schema field.ty)

end References

section Closure
variable (schema : SchemaDef)

def graph : Graph String where
  push := visit schema
  pushes id frontier := by
    obtain ⟨ids, steps, _⟩ := visit_pushes schema id
    rw [steps, steps, List.append_nil]
  nodes := (schema.messages.map MessageDef.id).toFinset
  closed id next mem := by
    obtain ⟨ids, steps, pushed⟩ := visit_pushes schema id
    rw [steps, List.append_nil, pushed] at mem
    obtain ⟨_, _, _, _, _, _, m, _, found, same⟩ := mem
    rw [List.mem_toFinset, ← same]
    exact List.mem_map_of_mem (List.mem_of_find?_eq_some found)

/-- The frontier starts with the names in order and is popped from its end. -/
def collectRpcRelevantMessages : Finset String :=
  (graph schema).collect ∅ ((collectRpcIoMessages schema).sort (· ≤ ·)).reverse

def rpcIoNames : List String := (collectRpcIoMessages schema).sort (· ≤ ·)

variable {schema} {id next : String}

theorem edge_iff : (graph schema).Edge id next ↔
    ∃ msg, lookup schema id = some msg ∧ ∃ field ∈ msg.fields, Refers schema field.ty next := by
  obtain ⟨ids, steps, pushed⟩ := visit_pushes schema id
  have pushing : (graph schema).push id [] = ids ++ [] := steps []
  rw [Graph.Edge, pushing, List.append_nil]
  exact pushed next

theorem mem_collect : id ∈ collectRpcRelevantMessages schema ↔
    ∃ raw ∈ schema.rpcTypes, ∃ m, firstNamed schema (bareName raw) = some m ∧
      ReflTransGen (graph schema).Edge m.id id := by
  unfold collectRpcRelevantMessages collectRpcIoMessages
  rw [mem_collect_iff]
  simp only [List.mem_reverse, Finset.mem_sort, List.mem_toFinset, List.mem_filterMap,
    qualifyMessage, Option.map_eq_some_iff]
  constructor
  · intro reached
    obtain ⟨start, ⟨raw, mem, m, chosen, rfl⟩, path⟩ := reached
    exact ⟨raw, mem, m, chosen, path⟩
  · intro reached
    obtain ⟨raw, mem, m, chosen, path⟩ := reached
    exact ⟨m.id, ⟨raw, mem, m, chosen, rfl⟩, path⟩

end Closure

section Names
variable {id name : String}

theorem split_plain (plain : '.' ∉ id.toList) : splitQualified id = (none, id) := by
  have dropped : id.toList.reverse.dropWhile (· ≠ '.') = [] := by
    rw [List.dropWhile_eq_nil_iff]
    intro c mem
    simp only [ne_eq, decide_not, Bool.not_eq_eq_eq_not, Bool.not_true, decide_eq_false_iff_not]
    rintro rfl
    exact plain (List.mem_reverse.mp mem)
  simp only [splitQualified, dropped]

theorem split_joined (ns : String) (plain : '.' ∉ name.toList) :
    splitQualified (ns ++ "." ++ name) = (some ns, name) := by
  have chars : (ns ++ "." ++ name).toList.reverse =
      name.toList.reverse ++ '.' :: ns.toList.reverse := by
    simp
  have kept : ∀ c ∈ name.toList.reverse, decide (c ≠ '.') = true := by
    intro c mem
    simp only [ne_eq, decide_eq_true_eq]
    rintro rfl
    exact plain (List.mem_reverse.mp mem)
  have taken (rest : List Char) : (name.toList.reverse ++ rest).takeWhile (· ≠ '.') =
      name.toList.reverse ++ rest.takeWhile (· ≠ '.') := List.takeWhile_append_of_pos kept
  have dropped (rest : List Char) : (name.toList.reverse ++ rest).dropWhile (· ≠ '.') =
      rest.dropWhile (· ≠ '.') := List.dropWhile_append_of_pos kept
  simp only [splitQualified, chars, taken, dropped]
  simp

theorem split_cases (id : String) : splitQualified id = (none, id) ∨
    ∃ front name, splitQualified id = (some front, name) ∧ front ++ "." ++ name = id := by
  have whole := List.takeWhile_append_dropWhile (p := (· ≠ '.')) (l := id.toList.reverse)
  unfold splitQualified
  dsimp only
  split
  · exact .inl rfl
  · rename_i c front dropped
    have dot := List.head?_dropWhile_not (· ≠ '.') id.toList.reverse
    rw [dropped, List.head?_cons] at dot
    simp only [ne_eq, decide_not, Bool.not_eq_eq_eq_not, Bool.not_false, decide_eq_true_eq] at dot
    subst dot
    rw [dropped] at whole
    refine .inr ⟨_, _, rfl, ?_⟩
    apply String.toList_inj.mp
    have turned := congrArg List.reverse whole
    rw [List.reverse_append, List.reverse_reverse] at turned
    simpa using turned

end Names

section Denoting

def MessageDef.Root (m : MessageDef) : Prop := m.ns.filter (· ≠ "") = none

instance (m : MessageDef) : Decidable m.Root := inferInstanceAs (Decidable (_ = none))

/-- What a reference means: with a package the message of that namespace; without one the
    message of the root namespace, or else the first message of the name. -/
def denoted (schema : SchemaDef) (package : Option String) (name : String) : Option MessageDef :=
  match package.filter (· ≠ "") with
  | some req => schema.messages.find? fun m => m.name = name && m.ns = some req
  | none => (schema.messages.find? fun m => m.name = name && decide m.Root).or
      (firstNamed schema name)

inductive Reached (schema : SchemaDef) : MessageDef → Prop where
  | rpc {raw m} (mem : raw ∈ schema.rpcTypes) (chosen : firstNamed schema (bareName raw) = some m) :
      Reached schema m
  | field {m field package name next} (reached : Reached schema m) (mem : field ∈ m.fields)
      (mention : Mentions field.ty package name)
      (denotes : denoted schema package name = some next) : Reached schema next

/-- The names collected are those of the messages reached. -/
def ClosureExact (schema : SchemaDef) : Prop :=
  ∀ id, id ∈ collectRpcRelevantMessages schema ↔ ∃ m, Reached schema m ∧ m.id = id

variable {schema : SchemaDef} {package : Option String} {name : String} {m : MessageDef}

theorem find_anywhere (empty : package.filter (· ≠ "") = none) :
    findMessage schema package name = firstNamed schema name := by
  have every (own : Option String) : accepts package own = true := by
    cases package with
    | none => rfl
    | some req =>
      have nothing : req = "" := by simpa using empty
      subst nothing
      cases own with
      | none => rfl
      | some have_ => rfl
  simp only [findMessage, firstNamed, every, Bool.and_true]

theorem find_inside {req : String} (given : package.filter (· ≠ "") = some req) :
    findMessage schema package name =
      schema.messages.find? fun m => m.name = name && m.ns = some req := by
  obtain ⟨rfl, nonempty⟩ := Option.filter_eq_some_iff.mp given
  have only (own : Option String) : accepts (some req) own = decide (own = some req) := by
    have filled : req ≠ "" := by simpa using nonempty
    cases own with
    | none => simp [accepts, filled]
    | some have_ => simp [accepts, filled, eq_comm]
  simp only [findMessage, only]

theorem first_named_mem (found : firstNamed schema name = some m) :
    m ∈ schema.messages ∧ m.name = name :=
  ⟨List.mem_of_find?_eq_some found, by simpa using List.find?_some found⟩

theorem found_named {q : MessageDef → Bool}
    (found : (schema.messages.find? fun other => other.name = name && q other) = some m) :
    m.name = name ∧ q m = true := by
  have same := List.find?_some found
  rwa [Bool.and_eq_true, decide_eq_true_eq] at same

theorem find_message_cases (found : findMessage schema package name = some m) :
    m ∈ schema.messages ∧ (¬ m.Root ∨ firstNamed schema m.name = some m) := by
  refine ⟨List.mem_of_find?_eq_some found, ?_⟩
  cases asked : package.filter (· ≠ "") with
  | none =>
    rw [find_anywhere asked] at found
    right
    rw [(first_named_mem found).2]
    exact found
  | some req =>
    rw [find_inside asked] at found
    left
    obtain ⟨_, filled⟩ := Option.filter_eq_some_iff.mp asked
    rw [MessageDef.Root, of_decide_eq_true (found_named found).2, Option.filter_some,
      if_pos filled]
    exact Option.some_ne_none req

theorem root_id (root : m.Root) : m.id = m.name := by
  unfold MessageDef.Root at root
  simp only [MessageDef.id, qualifiedName, root]

theorem joined_id (inside : ¬ m.Root) :
    ∃ ns, m.ns.filter (· ≠ "") = some ns ∧ m.id = ns ++ "." ++ m.name := by
  obtain ⟨ns, given⟩ := Option.ne_none_iff_exists'.mp inside
  exact ⟨ns, given, by simp only [MessageDef.id, qualifiedName, given]⟩

end Denoting

section Exactness
variable {schema : SchemaDef} {m : MessageDef}

/-- The message's own name leads back to it. -/
def LooksUp (schema : SchemaDef) (m : MessageDef) : Prop := lookup schema m.id = some m

theorem looks_up_root (looks : LooksUp schema m) (root : m.Root) :
    firstNamed schema m.name = some m := by
  unfold LooksUp lookup at looks
  rw [root_id root] at looks
  rcases split_cases m.name with bare | ⟨front, last, parts, whole⟩
  · rw [bare] at looks
    rw [← looks]
    exact (find_anywhere rfl).symm
  · rw [parts] at looks
    rw [(found_named looks).1] at whole
    have lengths := congrArg (fun s => s.toList.length) whole
    simp only [String.toList_append, List.length_append] at lengths
    have one : ".".toList.length = 1 := rfl
    omega

variable (looks : ∀ m, Reached schema m → LooksUp schema m)
include looks

/-- Where every name leads back, a reference is looked up as what it means. -/
theorem found_denoted {field : FieldDef} {package : Option String} {name : String}
    (reached : Reached schema m) (mem : field ∈ m.fields) (mention : Mentions field.ty package name) :
    findMessage schema package name = denoted schema package name := by
  have means {next : MessageDef} (denotes : denoted schema package name = some next) :
      Reached schema next := .field reached mem mention denotes
  cases asked : package.filter (· ≠ "") with
  | some req =>
    rw [find_inside asked]
    simp only [denoted, asked]
  | none =>
    rw [find_anywhere asked]
    simp only [denoted, asked] at means ⊢
    cases root : schema.messages.find? fun m => m.name = name && decide m.Root with
    | none => rw [Option.none_or]
    | some r =>
      rw [root, Option.some_or] at means
      obtain ⟨named, here⟩ := found_named root
      rw [Option.some_or, ← named]
      exact looks_up_root (looks r (means rfl)) (of_decide_eq_true here)

theorem collected_reached {id : String} (mem : id ∈ collectRpcRelevantMessages schema) :
    ∃ m, Reached schema m ∧ m.id = id := by
  obtain ⟨raw, given, first, chosen, path⟩ := mem_collect.mp mem
  induction path with
  | refl => exact ⟨first, .rpc given chosen, rfl⟩
  | tail path edge ih =>
    obtain ⟨m, reached, same⟩ := ih (mem_collect.mpr ⟨raw, given, first, chosen, path⟩)
    obtain ⟨msg, found, field, inside, package, name, next, mention, target, named⟩ :=
      edge_iff.mp edge
    rw [← same] at found
    cases (looks m reached).symm.trans found
    rw [found_denoted looks reached inside mention] at target
    exact ⟨next, .field reached inside mention target, named⟩

theorem reached_collected (reached : Reached schema m) :
    m.id ∈ collectRpcRelevantMessages schema := by
  induction reached with
  | rpc mem chosen => exact mem_collect.mpr ⟨_, mem, _, chosen, .refl⟩
  | @field m field package name next reached mem mention denotes ih =>
    obtain ⟨raw, given, first, chosen, path⟩ := mem_collect.mp ih
    rw [← found_denoted looks reached mem mention] at denotes
    have edge := edge_iff.mpr ⟨m, looks m reached, field, mem, package, name, next, mention,
      denotes, rfl⟩
    exact mem_collect.mpr ⟨raw, given, first, chosen, path.tail edge⟩

theorem looks_up_exact : ClosureExact schema := by
  intro id
  constructor
  · exact collected_reached looks
  · intro named
    obtain ⟨m, reached, rfl⟩ := named
    exact reached_collected looks reached

end Exactness

section Identifiers
variable {schema : SchemaDef} {m : MessageDef}

/-- Message names are identifiers, which have no dots. -/
def PlainNames (schema : SchemaDef) : Prop := ∀ m ∈ schema.messages, '.' ∉ m.name.toList

def DistinctMessages (schema : SchemaDef) : Prop :=
  (schema.messages.map fun m => (m.ns, m.name)).Nodup

theorem find_unique {p : MessageDef → Bool} (mem : m ∈ schema.messages) (holds : p m = true)
    (unique : ∀ other ∈ schema.messages, p other = true → other = m) :
    schema.messages.find? p = some m := by
  cases found : schema.messages.find? p with
  | none => exact absurd holds (List.find?_eq_none.mp found m mem)
  | some other =>
    rw [unique other (List.mem_of_find?_eq_some found) (List.find?_some found)]

theorem find_narrower {p q : MessageDef → Bool} (narrower : ∀ other, q other = true → p other = true)
    (found : schema.messages.find? p = some m) (holds : q m = true) :
    schema.messages.find? q = some m := by
  obtain ⟨_, front, back, split, before⟩ := List.find?_eq_some_iff_append.mp found
  refine List.find?_eq_some_iff_append.mpr ⟨holds, front, back, split, ?_⟩
  intro other mem
  rw [Bool.not_eq_eq_eq_not, Bool.not_true, Bool.eq_false_iff]
  intro matched
  simpa [narrower other matched] using before other mem

theorem looks_up_iff (distinct : DistinctMessages schema) (mem : m ∈ schema.messages)
    (plain : '.' ∉ m.name.toList) :
    LooksUp schema m ↔ (m.Root → firstNamed schema m.name = some m) := by
  constructor
  · exact looks_up_root
  · intro first
    unfold LooksUp lookup
    by_cases root : m.Root
    · rw [root_id root, split_plain plain]
      exact (find_anywhere rfl).trans (first root)
    · obtain ⟨ns, given, named⟩ := joined_id root
      obtain ⟨own, filled⟩ := Option.filter_eq_some_iff.mp given
      have asked : (some ns).filter (· ≠ "") = some ns := by
        rw [Option.filter_some, if_pos filled]
      rw [named, split_joined ns plain, find_inside asked]
      apply find_unique mem
      · simp [own]
      · intro other inside same
        simp only [Bool.and_eq_true, decide_eq_true_eq] at same
        apply List.inj_on_of_nodup_map distinct inside mem
        rw [same.1, same.2, own]

theorem reached_mem (reached : Reached schema m) : m ∈ schema.messages := by
  cases reached with
  | rpc mem chosen => exact (first_named_mem chosen).1
  | @field _ _ package name _ _ _ mention denotes =>
    unfold denoted at denotes
    split at denotes
    · exact List.mem_of_find?_eq_some denotes
    · rcases Option.or_eq_some_iff.mp denotes with root | ⟨_, first⟩
      · exact List.mem_of_find?_eq_some root
      · exact (first_named_mem first).1

/-- A message of the root namespace is reached as the first of its name there, if not as the
    first of its name. -/
theorem reached_root (reached : Reached schema m) (root : m.Root) :
    firstNamed schema m.name = some m ∨
      (schema.messages.find? fun other => other.name = m.name && decide other.Root) = some m := by
  cases reached with
  | rpc mem chosen =>
    left
    rw [(first_named_mem chosen).2]
    exact chosen
  | @field _ _ package name _ _ _ mention denotes =>
    unfold denoted at denotes
    split at denotes
    · rename_i req asked
      unfold MessageDef.Root at root
      rw [of_decide_eq_true (found_named denotes).2, Option.filter_some,
        if_pos (Option.filter_eq_some_iff.mp asked).2] at root
      cases root
    · rcases Option.or_eq_some_iff.mp denotes with here | ⟨_, first⟩
      · right
        rw [(found_named here).1]
        exact here
      · left
        rw [(first_named_mem first).2]
        exact first

/-- Whatever is collected is the name of a message in a namespace, or of the first message
    of its name. -/
theorem collected_first {id : String} (mem : id ∈ collectRpcRelevantMessages schema) :
    ∃ g ∈ schema.messages, g.id = id ∧ (¬ g.Root ∨ firstNamed schema g.name = some g) := by
  obtain ⟨raw, given, first, chosen, path⟩ := mem_collect.mp mem
  cases path with
  | refl =>
    obtain ⟨inside, named⟩ := first_named_mem chosen
    exact ⟨first, inside, rfl, .inr (named ▸ chosen)⟩
  | tail path edge =>
    obtain ⟨_, _, _, _, _, _, next, _, found, same⟩ := edge_iff.mp edge
    obtain ⟨inside, kind⟩ := find_message_cases found
    exact ⟨next, inside, same, kind⟩

/-- A message of the root namespace that is not the first of its name is never collected. -/
theorem exact_root (plain : PlainNames schema) (exactly : ClosureExact schema)
    (reached : Reached schema m) (root : m.Root) : firstNamed schema m.name = some m := by
  obtain ⟨g, inside, same, kind⟩ := collected_first ((exactly m.id).mpr ⟨m, reached, rfl⟩)
  rw [root_id root] at same
  have own : g.Root := by
    by_contra joined
    obtain ⟨ns, _, named⟩ := joined_id joined
    rw [named] at same
    apply plain m (reached_mem reached)
    rw [← same]
    simp
  have first := kind.resolve_left (not_not_intro own)
  rw [root_id own] at same
  rw [same] at first
  rcases reached_root reached root with here | here
  · exact here
  · have front : (schema.messages.find? fun other => other.name = m.name && decide other.Root) =
        some g := by
      apply find_narrower _ first
      · simp [same, own]
      · intro other matched
        exact (Bool.and_eq_true _ _ ▸ matched).1
    rw [front] at here
    cases here
    exact first

/-- The closure is exact where every message that is reached is found under its own name. With
    identifiers for names, it is exact just if every message of the root namespace that is
    reached is the first one of its name. -/
theorem message_closure_exact_iff (schema : SchemaDef) (distinct : DistinctMessages schema) :
    ((∀ m, Reached schema m → LooksUp schema m) → ClosureExact schema) ∧
    (PlainNames schema → (ClosureExact schema ↔
      ∀ m, Reached schema m → m.Root → firstNamed schema m.name = some m)) := by
  refine ⟨looks_up_exact, ?_⟩
  intro plain
  constructor
  · intro exactly m reached root
    exact exact_root plain exactly reached root
  · intro first
    apply looks_up_exact
    intro m reached
    have mem := reached_mem reached
    exact (looks_up_iff distinct mem (plain m mem)).mpr (first m reached)

end Identifiers

section Schemas

def sampleMethod (input output : String) : ServiceDef :=
  ⟨"Greeter", some "helloworld", [⟨"SayHello", input, output, .none, "crate::codec::Codec"⟩]⟩

def greeterSchema : SchemaDef where
  messages := [
    ⟨"HelloRequest", some "helloworld",
      [⟨"name", .scalar⟩, ⟨"more", .vector (.message "HelloRequest" (some "helloworld"))⟩]⟩,
    ⟨"HelloReply", some "helloworld", [⟨"message", .scalar⟩]⟩]
  services := [sampleMethod "HelloRequest" "HelloReply"]

theorem greeter_closure_exact : ClosureExact greeterSchema := by
  have distinct : DistinctMessages greeterSchema := by
    unfold DistinctMessages
    decide
  have plain : PlainNames greeterSchema := by
    intro m mem
    simp only [greeterSchema, List.mem_cons, List.not_mem_nil, or_false] at mem
    rcases mem with rfl | rfl
    · decide
    · decide
  refine ((message_closure_exact_iff greeterSchema distinct).2 plain).mpr ?_
  intro m reached root
  have mem := reached_mem reached
  simp only [greeterSchema, List.mem_cons, List.not_mem_nil, or_false] at mem
  rcases mem with rfl | rfl
  · exact absurd root (by decide)
  · exact absurd root (by decide)

/-- A message of the root namespace behind one of its name in a namespace. -/
def shadowedSchema : SchemaDef where
  messages := [
    ⟨"Foo", some "a", []⟩,
    ⟨"Foo", none, [⟨"bar", .message "Bar" none⟩]⟩,
    ⟨"Bar", none, []⟩,
    ⟨"Req", none, [⟨"foo", .message "Foo" none⟩]⟩]
  services := [sampleMethod "Req" "Req"]

/-- The request's Foo is the root one, and it is not collected. -/
theorem root_message_missed :
    DistinctMessages shadowedSchema ∧ PlainNames shadowedSchema ∧
      (∃ foo, Reached shadowedSchema foo ∧ foo.id = "Foo" ∧
        "Foo" ∉ collectRpcRelevantMessages shadowedSchema) ∧
      ¬ ClosureExact shadowedSchema := by
  have distinct : DistinctMessages shadowedSchema := by
    unfold DistinctMessages
    decide
  have plain : PlainNames shadowedSchema := by
    intro m mem
    simp only [shadowedSchema, List.mem_cons, List.not_mem_nil, or_false] at mem
    rcases mem with rfl | rfl | rfl | rfl
    · decide
    · decide
    · decide
    · decide
  have req : Reached shadowedSchema ⟨"Req", none, [⟨"foo", .message "Foo" none⟩]⟩ :=
    @Reached.rpc shadowedSchema "Req" _ (by decide) rfl
  have foo : Reached shadowedSchema ⟨"Foo", none, [⟨"bar", .message "Bar" none⟩]⟩ :=
    .field req List.mem_cons_self (.message "Foo" none) rfl
  have missed : "Foo" ∉ collectRpcRelevantMessages shadowedSchema := by
    intro mem
    obtain ⟨g, inside, named, kind⟩ := collected_first mem
    simp only [shadowedSchema, List.mem_cons, List.not_mem_nil, or_false] at inside
    rcases inside with rfl | rfl | rfl | rfl
    · exact absurd named (by decide)
    · rcases kind with joined | first
      · exact joined rfl
      · cases first
    · exact absurd named (by decide)
    · exact absurd named (by decide)
  refine ⟨distinct, plain, ⟨_, foo, rfl, missed⟩, ?_⟩
  intro exactly
  exact missed ((exactly "Foo").mpr ⟨_, foo, rfl⟩)

end Schemas

end MessageClosure
