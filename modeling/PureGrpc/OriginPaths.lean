import Mathlib.Data.List.TakeWhile
import PureGrpc.GrpcClient

/-!
Origin and method path. The client puts the path of a method behind the path of
its origin, unless the origin's path and query is a single slash. What makes a
path and a URI of text and parts is the http library's; a path and query is its
text, with the query from the first question mark on.
-/
namespace OriginPaths
open GrpcStatus HttpBodies GrpcClient

structure PathAndQuery where
  data : String
  deriving DecidableEq, Repr

def withoutQuery (data : List Char) : List Char := data.takeWhile (· ≠ '?')

def orSlash (text : List Char) : List Char := if text = [] then ['/'] else text

def PathAndQuery.path (self : PathAndQuery) : String :=
  String.ofList (orSlash (withoutQuery self.data.toList))

def PathAndQuery.asStr (self : PathAndQuery) : String := String.ofList (orSlash self.data.toList)

/-- Shown with a slash in front if it has none. -/
def PathAndQuery.display (self : PathAndQuery) : String :=
  match self.data.toList with
  | '/' :: _ => self.data
  | '*' :: _ => self.data
  | _ => "/" ++ self.data

structure Parts where
  scheme : Option String
  authority : Option String
  pathAndQuery : Option PathAndQuery
  deriving DecidableEq, Repr

def Parts.path (self : Parts) : String := (self.pathAndQuery.map PathAndQuery.path).getD ""

/-- The http library: text without a fragment is parsed to itself, and a URI is the parts it
    was made of. Either may be refused. -/
structure HttpUri where
  parse : String → Except String PathAndQuery
  fromParts : Parts → Except String Parts
  parsed : ∀ text pnq, '#' ∉ text.toList → parse text = .ok pnq → pnq.data = text
  kept : ∀ parts uri, fromParts parts = .ok uri → uri = parts

def joinPaths (lib : HttpUri) (origin : Parts) (path : PathAndQuery) :
    Except Status PathAndQuery :=
  match origin.pathAndQuery with
  | some pnq =>
    if pnq.asStr ≠ "/" then
      match lib.parse (pnq.path ++ path.display) with
      | .error e => .error (.internal ("invalid path_and_query: " ++ e))
      | .ok joined => .ok joined
    else .ok path
  | none => .ok path

def requestUri (lib : HttpUri) (origin : Parts) (path : PathAndQuery) : Except Status Parts :=
  match joinPaths lib origin path with
  | .error status => .error status
  | .ok joined =>
    match lib.fromParts { origin with pathAndQuery := some joined } with
    | .error e => .error (.internal ("invalid URI: " ++ e))
    | .ok uri => .ok uri

section Client
variable {X β σ δ : Type}

def Grpc.withOrigin (self : Grpc σ δ) (lib : HttpUri) (origin : Parts) : Grpc σ δ :=
  { self with uri := fun path => (requestUri lib origin ⟨path⟩).map Parts.path }

theorem prepared_path {self : Grpc σ δ} {lib : HttpUri} {origin : Parts} {path : String}
    {request : GrpcHandler.Request X β} {sent : HttpRequest X β}
    (prepared : (Grpc.withOrigin self lib origin).prepareRequest request path = .ok sent) :
    ∃ uri, requestUri lib origin ⟨path⟩ = .ok uri ∧ sent.parts.path = uri.path := by
  unfold Grpc.prepareRequest at prepared
  split at prepared
  · cases prepared
  · rename_i text made
    cases prepared
    simp only [Grpc.withOrigin] at made
    cases uri : requestUri lib origin ⟨path⟩ with
    | error status =>
      rw [uri] at made
      cases made
    | ok parts =>
      rw [uri] at made
      cases made
      exact ⟨parts, rfl, rfl⟩

end Client

/-- An origin that can be written as a URI: its path is empty or starts with a slash, and a
    fragment is not part of it. -/
structure Origin where
  parts : Parts
  rooted : ∀ pnq, parts.pathAndQuery = some pnq →
    ∀ c rest, pnq.data.toList = c :: rest → c = '/' ∨ c = '?'
  unfragmented : ∀ pnq, parts.pathAndQuery = some pnq → '#' ∉ pnq.data.toList

def isNameChar (c : Char) : Bool := c ≠ '/' && c ≠ '?' && c ≠ '#'

structure MethodPath where
  service : String
  method : String
  serviceName : service.toList.all isNameChar = true
  methodName : method.toList.all isNameChar = true

def MethodPath.text (m : MethodPath) : List Char :=
  '/' :: (m.service.toList ++ '/' :: m.method.toList)

def MethodPath.path (m : MethodPath) : String := "/" ++ m.service ++ "/" ++ m.method

/-- What stands between and after the slashes of a path. -/
def slashed : List Char → List (List Char)
  | '/' :: rest => rest.splitOn '/'
  | _ => []

def endsWithSlash (path : List Char) : Bool := path.getLast? = some '/'

def trimmed (path : List Char) : List Char := if endsWithSlash path then path.dropLast else path

/-- The segments of a path; a slash at its end adds none. -/
def segments (path : List Char) : List (List Char) := slashed (trimmed path)

/-- What a join of an origin and a method is to give: the segments of both with none
    between them, and the method's path once the origin's is taken off. -/
structure Joined (origin : Parts) (m : MethodPath) (path : String) : Prop where
  split : slashed path.toList =
    segments origin.path.toList ++ [m.service.toList, m.method.toList]
  stripped : path.toList = trimmed origin.path.toList ++ m.text

/-- The origin has no path and query, or it is a slash, or its path does not end with one. -/
def JoinsCleanly (origin : Parts) : Prop :=
  ∀ pnq, origin.pathAndQuery = some pnq → pnq.asStr = "/" ∨ endsWithSlash pnq.path.toList = false

theorem method_path_text (m : MethodPath) : m.path.toList = m.text := by
  simp [MethodPath.path, MethodPath.text]

theorem text_has_no {m : MethodPath} {c : Char} (mark : c = '?' ∨ c = '#') : c ∉ m.text := by
  have service := List.all_eq_true.mp m.serviceName
  have method := List.all_eq_true.mp m.methodName
  have bad : isNameChar c = false ∧ c ≠ '/' := by
    rcases mark with rfl | rfl <;> decide
  intro mem
  simp only [MethodPath.text, List.mem_cons, List.mem_append] at mem
  rcases mem with slash | inService | slash | inMethod
  · exact bad.2 slash
  · exact Bool.false_ne_true (bad.1.symm.trans (service c inService))
  · exact bad.2 slash
  · exact Bool.false_ne_true (bad.1.symm.trans (method c inMethod))

theorem slash_not_in {name : String} (valid : name.toList.all isNameChar = true) :
    '/' ∉ name.toList := by
  intro mem
  have name_char := List.all_eq_true.mp valid '/' mem
  exact absurd name_char (by decide)

theorem slashed_alone (m : MethodPath) : slashed m.text = [m.service.toList, m.method.toList] := by
  simp only [slashed, MethodPath.text, List.splitOn_append_cons_self,
    List.splitOn_eq_singleton (slash_not_in m.serviceName),
    List.splitOn_eq_singleton (slash_not_in m.methodName), List.cons_append, List.nil_append]

theorem slashed_text (path : List Char) (m : MethodPath) :
    slashed ('/' :: (path ++ m.text)) =
      slashed ('/' :: path) ++ [m.service.toList, m.method.toList] := by
  rw [← slashed_alone m]
  simp only [slashed, MethodPath.text, List.splitOn_append_cons_self]

theorem without_query_plain {path : List Char} (plain : '?' ∉ path) : withoutQuery path = path := by
  refine List.takeWhile_eq_self_iff.mpr ?_
  intro c mem
  exact decide_eq_true (ne_of_mem_of_not_mem mem plain)

theorem no_query_left (data : List Char) : '?' ∉ withoutQuery data := by
  intro mem
  have kept := List.mem_takeWhile_imp mem
  simp at kept

theorem or_slash_rooted {text : List Char} (rooted : ∀ c rest, text = c :: rest → c = '/') :
    ∃ rest, orSlash text = '/' :: rest := by
  cases text with
  | nil => exact ⟨[], rfl⟩
  | cons c rest =>
    cases rooted c rest rfl
    exact ⟨rest, rfl⟩

theorem origin_path_rooted (origin : Origin) {pnq : PathAndQuery}
    (given : origin.parts.pathAndQuery = some pnq) :
    ∃ rest, pnq.path.toList = '/' :: rest ∧ '?' ∉ rest ∧ '#' ∉ rest := by
  have rooted := origin.rooted pnq given
  have unfragmented := origin.unfragmented pnq given
  have started : ∀ c rest, withoutQuery pnq.data.toList = c :: rest → c = '/' := by
    intro c rest eq
    cases text : pnq.data.toList with
    | nil =>
      rw [text] at eq
      cases eq
    | cons first more =>
      rcases rooted first more text with slash | mark
      · subst slash
        rw [text, withoutQuery, List.takeWhile_cons_of_pos (by decide)] at eq
        cases eq
        rfl
      · subst mark
        rw [text, withoutQuery, List.takeWhile_cons_of_neg (by decide)] at eq
        cases eq
  obtain ⟨rest, eq⟩ := or_slash_rooted started
  refine ⟨rest, by rw [PathAndQuery.path, String.toList_ofList, eq], ?_⟩
  cases cut : withoutQuery pnq.data.toList with
  | nil =>
    rw [cut] at eq
    cases eq
    exact ⟨List.not_mem_nil, List.not_mem_nil⟩
  | cons c more =>
    rw [cut] at eq
    cases eq
    have inside : ∀ d ∈ rest, d ∈ withoutQuery pnq.data.toList := by
      intro d mem
      rw [cut]
      exact List.mem_cons_of_mem _ mem
    constructor
    · exact fun mem => no_query_left _ (inside _ mem)
    · exact fun mem => unfragmented ((List.takeWhile_sublist _).subset (inside _ mem))

theorem as_str_slash {pnq : PathAndQuery} (slash : pnq.asStr = "/") :
    pnq.path.toList = ['/'] := by
  have text : orSlash pnq.data.toList = ['/'] := String.ofList_inj.mp slash
  rw [PathAndQuery.path, String.toList_ofList]
  unfold orSlash at text
  split at text
  · rename_i empty
    rw [empty]
    rfl
  · rw [text]
    rfl

theorem trimmed_of_not {path : List Char} (plain : endsWithSlash path = false) :
    trimmed path = path := by
  rw [trimmed, plain]
  rfl

theorem joined_root {origin : Parts} (m : MethodPath)
    (root : trimmed origin.path.toList = []) : Joined origin m m.path := by
  constructor
  · rw [method_path_text, segments, root]
    exact slashed_alone m
  · rw [root, method_path_text, List.nil_append]

/-- Behind a path the method's segments follow, unless the path ends with a slash: that slash
    then has an empty segment after it. -/
theorem joined_behind {origin : Parts} {m : MethodPath} {path : String} {rest : List Char}
    (front : origin.path.toList = '/' :: rest) (text : path.toList = '/' :: (rest ++ m.text)) :
    Joined origin m path ↔ endsWithSlash origin.path.toList = false := by
  constructor
  · intro joined
    by_contra ends
    rw [Bool.not_eq_false] at ends
    have size := congrArg List.length joined.stripped
    have trim : trimmed origin.path.toList = origin.path.toList.dropLast := by
      rw [trimmed, ends]
      rfl
    rw [trim, text, front, List.length_append, List.length_dropLast, List.length_cons,
      List.length_cons, List.length_append] at size
    omega
  · intro plain
    have trim := trimmed_of_not plain
    constructor
    · rw [segments, trim, text, front]
      exact slashed_text rest m
    · rw [trim, text, front]
      rfl

theorem path_of_rooted {pnq : PathAndQuery} {rest : List Char}
    (text : pnq.data.toList = '/' :: rest) (plain : '?' ∉ rest) : pnq.path = pnq.data := by
  have whole : withoutQuery pnq.data.toList = '/' :: rest := by
    rw [text]
    refine without_query_plain ?_
    simp only [List.mem_cons, not_or]
    exact ⟨by decide, plain⟩
  rw [PathAndQuery.path, whole, orSlash, if_neg (List.cons_ne_nil _ _), ← text,
    String.ofList_toList]

theorem method_text_cons (m : MethodPath) :
    m.text = '/' :: (m.service.toList ++ '/' :: m.method.toList) := rfl

theorem method_display (m : MethodPath) : (PathAndQuery.mk m.path).display = m.path := by
  have text : (PathAndQuery.mk m.path).data.toList = _ :=
    (method_path_text m).trans (method_text_cons m)
  unfold PathAndQuery.display
  rw [text]
  rfl

theorem method_alone (m : MethodPath) : (PathAndQuery.mk m.path).path = m.path := by
  have plain := text_has_no (m := m) (c := '?') (.inl rfl)
  rw [method_text_cons] at plain
  exact path_of_rooted ((method_path_text m).trans (method_text_cons m))
    (fun mem => plain (List.mem_cons_of_mem _ mem))

theorem request_uri_path {lib : HttpUri} {origin uri : Parts} {path : PathAndQuery}
    (made : requestUri lib origin path = .ok uri) :
    ∃ joined, joinPaths lib origin path = .ok joined ∧ uri.path = joined.path := by
  unfold requestUri at made
  split at made
  · cases made
  · rename_i joined join
    split at made
    · cases made
    · rename_i given accepted
      cases made
      refine ⟨joined, join, ?_⟩
      rw [lib.kept _ _ accepted]
      rfl

theorem appended_joined {lib : HttpUri} {origin : Origin} {pnq parsed : PathAndQuery}
    {m : MethodPath} (given : origin.parts.pathAndQuery = some pnq)
    (accepted : lib.parse (pnq.path ++ (PathAndQuery.mk m.path).display) = .ok parsed) :
    Joined origin.parts m parsed.path ↔ endsWithSlash pnq.path.toList = false := by
  have shown : origin.parts.path = pnq.path := by
    rw [Parts.path, given]
    rfl
  obtain ⟨rest, front, noQuery, noFragment⟩ := origin_path_rooted origin given
  have text : (pnq.path ++ (PathAndQuery.mk m.path).display).toList =
      '/' :: (rest ++ m.text) := by
    rw [method_display, String.toList_append, front, method_path_text]
    rfl
  have unfragmented : '#' ∉ (pnq.path ++ (PathAndQuery.mk m.path).display).toList := by
    rw [text]
    simp only [List.mem_cons, List.mem_append, not_or]
    exact ⟨by decide, noFragment, text_has_no (.inr rfl)⟩
  have plain : '?' ∉ rest ++ m.text := by
    rw [List.mem_append, not_or]
    exact ⟨noQuery, text_has_no (.inl rfl)⟩
  rw [← lib.parsed _ _ unfragmented accepted] at text
  rw [path_of_rooted text plain, ← shown]
  exact joined_behind (shown ▸ front) text

theorem joins_cleanly_behind {origin : Parts} {pnq : PathAndQuery}
    (given : origin.pathAndQuery = some pnq) :
    JoinsCleanly origin ↔ pnq.asStr = "/" ∨ endsWithSlash pnq.path.toList = false := by
  constructor
  · intro clean
    exact clean pnq given
  · intro either other some_path
    cases given.symm.trans some_path
    exact either

theorem method_joined {origin : Parts} (m : MethodPath)
    (root : origin.pathAndQuery.elim True fun pnq => pnq.asStr = "/") :
    Joined origin m (PathAndQuery.mk m.path).path := by
  rw [method_alone]
  apply joined_root
  unfold Parts.path
  cases given : origin.pathAndQuery with
  | none => rfl
  | some pnq =>
    rw [given] at root
    rw [Option.map_some, Option.getD_some, as_str_slash root]
    rfl

/-- The request goes to the origin's segments and then the method's, exactly when the origin
    has no path, or is a slash, or its path does not end with one. -/
theorem origin_and_method_join_iff {X β σ δ : Type} (lib : HttpUri) (origin : Origin)
    (m : MethodPath) (self : Grpc σ δ) (request : GrpcHandler.Request X β)
    (sent : HttpRequest X β)
    (prepared : (Grpc.withOrigin self lib origin.parts).prepareRequest request m.path = .ok sent) :
    Joined origin.parts m sent.parts.path ↔ JoinsCleanly origin.parts := by
  obtain ⟨uri, made, path⟩ := prepared_path prepared
  obtain ⟨joined, join, same⟩ := request_uri_path made
  rw [path, same]
  unfold joinPaths at join
  cases given : origin.parts.pathAndQuery with
  | none =>
    rw [given] at join
    cases join
    have clean : JoinsCleanly origin.parts := by
      intro pnq some_path
      cases given.symm.trans some_path
    exact iff_of_true (method_joined m (by rw [given]; trivial)) clean
  | some pnq =>
    rw [given] at join
    dsimp only at join
    rw [joins_cleanly_behind given]
    split at join
    · rename_i branch
      split at join
      · cases join
      · rename_i parsed accepted
        cases join
        rw [appended_joined given accepted, or_iff_right branch]
    · rename_i branch
      rw [not_not] at branch
      cases join
      exact iff_of_true (method_joined m (by rw [given]; exact branch)) (.inl branch)

def plainUri : HttpUri := ⟨fun text => .ok ⟨text⟩, .ok, fun _ _ _ h => by cases h; rfl,
  fun _ _ h => by cases h; rfl⟩

def proxied (data : String) : Parts := ⟨some "http", some "proxy:8080", some ⟨data⟩⟩

def testMethod : MethodPath := ⟨"test.Svc", "Method", by decide, by decide⟩

def bareClient : Grpc Unit Unit := ⟨(), (), .ok, ⟨false, false, false⟩, none, none, none⟩

def emptyRequest : GrpcHandler.Request Unit Unit := ⟨.new, (), ()⟩

theorem trailing_slash_doubled :
    ∃ sent, (Grpc.withOrigin bareClient plainUri (proxied "/prefix/")).prepareRequest emptyRequest
        testMethod.path = .ok sent ∧
      sent.parts.path = "/prefix//test.Svc/Method" ∧
      ¬ Joined (proxied "/prefix/") testMethod sent.parts.path := by
  refine ⟨_, rfl, by decide, ?_⟩
  intro joined
  exact absurd joined.split (by decide)

/-- A root with a query takes the branch for a path. -/
example : requestUri plainUri (proxied "/?x=1") ⟨testMethod.path⟩ =
    .ok (proxied "//test.Svc/Method") := by decide

theorem prefix_joined :
    ∃ sent, (Grpc.withOrigin bareClient plainUri (proxied "/prefix")).prepareRequest emptyRequest
        testMethod.path = .ok sent ∧
      (Joined (proxied "/prefix") testMethod sent.parts.path ↔ JoinsCleanly (proxied "/prefix")) :=
  ⟨_, rfl, origin_and_method_join_iff plainUri
    ⟨proxied "/prefix", by
      intro pnq given c rest text
      cases given
      cases text
      exact .inl rfl, by
      intro pnq given
      cases given
      decide⟩ testMethod bareClient emptyRequest _ rfl⟩

end OriginPaths
