import Mathlib.Data.List.Induction
import PureGrpc.GrpcHandler

/-!
The router: a map from slash and service name to a service, scanned in whatever
order it iterates for a key that stands in front of a slash in the path. Names hold
no slash, so at most one key does, and the scan finds what was registered last
under the first segment of the path.
-/
namespace ServiceRouting
open KeyedMultimap GrpcStatus HttpBodies GrpcHandler

variable {S : Type}

/-- The entries of the map of routes, which may iterate in any order of them. -/
structure Router (S : Type) where
  routes : Multimap String S
  fallback : Option S

def Router.new : Router S := ⟨[], none⟩

def Router.addService (self : Router S) (name : String) (svc : S) : Router S :=
  { self with routes := insertKey self.routes ("/" ++ name) svc }

def Router.addFallback (self : Router S) (svc : S) : Router S := { self with fallback := some svc }

def startsWith (s start : String) : Bool := start.toList.isPrefixOf s.toList

/-- The key stands at the front of the path, and a slash behind it. -/
def keyMatches (path key : String) : Bool :=
  startsWith path key && startsWith (String.ofList (path.toList.drop key.toList.length)) "/"

def Router.routeEntry (iteration : List (String × S)) (path : String) : Option (String × S) :=
  iteration.find? fun entry => keyMatches path entry.1

def Router.route (iteration : List (String × S)) (path : String) : Option S :=
  (Router.routeEntry iteration path).map (·.2)

section Serving
variable {X β σ U : Type} (callBox : S → HttpRequest X β → HttpResponse (ResponseBody σ U))

def Router.call (self : Router S) (iteration : List (String × S)) (req : HttpRequest X β) :
    HttpResponse (ResponseBody σ U) :=
  match Router.route iteration req.parts.path with
  | some svc => callBox svc req
  | none =>
    match self.fallback with
    | some fallback => callBox fallback req
    | none => Status.intoHttp (.unimplemented "service not found")

end Serving

inductive Registration (S : Type) where
  | service (name : String) (svc : S)
  | fallback (svc : S)

def Router.register (self : Router S) : Registration S → Router S
  | .service name svc => self.addService name svc
  | .fallback svc => self.addFallback svc

def Router.build (registrations : List (Registration S)) : Router S :=
  registrations.foldl Router.register .new

def Registration.under (name : String) : Registration S → Option S
  | .service name' svc => if name' = name then some svc else none
  | .fallback _ => none

def Registration.asFallback : Registration S → Option S
  | .service _ _ => none
  | .fallback svc => some svc

def lastUnder (name : String) (registrations : List (Registration S)) : Option S :=
  (registrations.filterMap (·.under name)).getLast?

def lastFallback (registrations : List (Registration S)) : Option S :=
  (registrations.filterMap (·.asFallback)).getLast?

/-- A path of this service: slash, name, slash and anything. -/
def PathOf (name path : String) : Prop := ∃ rest, path = "/" ++ name ++ "/" ++ rest

section Paths

theorem key_matches_iff (path key : String) :
    keyMatches path key = true ↔ ∃ rest, path = key ++ "/" ++ rest := by
  simp only [keyMatches, startsWith, Bool.and_eq_true, List.isPrefixOf_iff_prefix,
    String.toList_ofList]
  constructor
  · intro matching
    obtain ⟨⟨behind, front⟩, slash⟩ := matching
    rw [← front, List.drop_left] at slash
    obtain ⟨rest, rfl⟩ := slash
    refine ⟨String.ofList rest, ?_⟩
    have chars : (String.ofList rest).toList = rest := String.toList_ofList
    rw [← String.toList_inj, String.toList_append, String.toList_append, chars, List.append_assoc,
      front]
  · intro matching
    obtain ⟨rest, rfl⟩ := matching
    rw [String.toList_append, String.toList_append, List.append_assoc, List.drop_left]
    exact ⟨List.prefix_append _ _, List.prefix_append _ _⟩

theorem before_slash {name : List Char} (segment : '/' ∉ name) (rest : List Char) :
    (name ++ '/' :: rest).takeWhile (· ≠ '/') = name := by
  have other : ∀ c ∈ name, decide (c ≠ '/') = true := by
    intro c mem
    apply decide_eq_true
    rintro rfl
    exact segment mem
  rw [List.takeWhile_append_of_pos other]
  simp

theorem path_of_unique {name other path : String} (segment : '/' ∉ name.toList)
    (segment' : '/' ∉ other.toList) (of : PathOf name path) (of' : PathOf other path) :
    name = other := by
  obtain ⟨rest, rfl⟩ := of
  obtain ⟨rest', same⟩ := of'
  have chars := congrArg String.toList same
  simp only [String.toList_append, List.append_assoc] at chars
  have behind : name.toList ++ '/' :: rest.toList = other.toList ++ '/' :: rest'.toList :=
    List.append_cancel_left chars
  rw [← String.toList_inj, ← before_slash segment rest.toList, behind, before_slash segment']

theorem two_segments_unique {name service method : String} (segment : '/' ∉ service.toList)
    (last : '/' ∉ method.toList) (of : PathOf name ("/" ++ service ++ "/" ++ method)) :
    name = service := by
  have own : PathOf service ("/" ++ service ++ "/" ++ method) := ⟨method, rfl⟩
  refine path_of_unique ?_ segment of own
  obtain ⟨rest, same⟩ := of
  have slashes := congrArg (fun s => s.toList.count '/') same
  have inService := List.count_eq_zero.mpr segment
  have inMethod := List.count_eq_zero.mpr last
  simp only [String.toList_append, List.count_append, inService, inMethod] at slashes
  exact List.count_eq_zero.mp (by omega)

end Paths

section Building

theorem build_snoc (registrations : List (Registration S)) (registration : Registration S) :
    Router.build (registrations ++ [registration]) =
      (Router.build registrations).register registration := by
  rw [Router.build, List.foldl_append]
  rfl

theorem last_snoc (found : Registration S → Option S) (registrations : List (Registration S))
    (registration : Registration S) :
    ((registrations ++ [registration]).filterMap found).getLast? =
      (found registration).or (registrations.filterMap found).getLast? := by
  rw [List.filterMap_append]
  cases here : found registration <;> simp [here]

theorem built_routes (registrations : List (Registration S)) (name : String) :
    getAll (Router.build registrations).routes ("/" ++ name) =
      (lastUnder name registrations).toList := by
  induction registrations using List.reverseRecOn with
  | nil => rfl
  | append_singleton registrations registration ih =>
    rw [build_snoc, lastUnder, last_snoc, ← lastUnder]
    cases registration with
    | fallback svc => exact ih
    | service name' svc =>
      simp only [Router.register, Router.addService, get_all_insert, Registration.under]
      have keys : "/" ++ name' = "/" ++ name ↔ name' = name := by
        rw [← String.toList_inj, String.toList_append, String.toList_append, List.append_cancel_left_eq,
          String.toList_inj]
      simp only [keys]
      split
      · rfl
      · exact ih

theorem built_keys (registrations : List (Registration S)) :
    ∀ key svc, (key, svc) ∈ (Router.build registrations).routes → ∃ name, key = "/" ++ name := by
  induction registrations using List.reverseRecOn with
  | nil =>
    intro key svc none
    cases none
  | append_singleton registrations registration ih =>
    rw [build_snoc]
    intro key svc mem
    cases registration with
    | fallback svc => exact ih key _ mem
    | service name svc =>
      rw [mem_iff_get_all, Router.register, Router.addService, get_all_insert] at mem
      split at mem
      · rename_i same
        exact ⟨name, same.symm⟩
      · exact ih key _ ((mem_iff_get_all _ _ _).mpr mem)

theorem built_routes_iff (registrations : List (Registration S)) (key : String) (svc : S) :
    (key, svc) ∈ (Router.build registrations).routes ↔
      ∃ name, key = "/" ++ name ∧ lastUnder name registrations = some svc := by
  constructor
  · intro mem
    obtain ⟨name, rfl⟩ := built_keys registrations key svc mem
    rw [mem_iff_get_all, built_routes, Option.mem_toList] at mem
    exact ⟨name, rfl, mem⟩
  · intro matching
    obtain ⟨name, rfl, last⟩ := matching
    rw [mem_iff_get_all, built_routes, Option.mem_toList]
    exact last

theorem built_fallback (registrations : List (Registration S)) :
    (Router.build registrations).fallback = lastFallback registrations := by
  induction registrations using List.reverseRecOn with
  | nil => rfl
  | append_singleton registrations registration ih =>
    rw [build_snoc, lastFallback, last_snoc, ← lastFallback]
    cases registration with
    | service name svc => exact ih
    | fallback svc => rfl

theorem last_under_registered {name : String} {registrations : List (Registration S)} {svc : S}
    (last : lastUnder name registrations = some svc) : .service name svc ∈ registrations := by
  obtain ⟨registration, mem, under⟩ :=
    List.mem_filterMap.mp (List.mem_of_getLast? last)
  cases registration with
  | fallback svc => cases under
  | service name' svc =>
    simp only [Registration.under] at under
    split at under
    · rename_i same
      cases same
      cases under
      exact mem
    · cases under

end Building

section Routing
variable {registrations : List (Registration S)}
  (segments : ∀ name svc, .service name svc ∈ registrations → '/' ∉ name.toList)
  {iteration : List (String × S)} (order : iteration.Perm (Router.build registrations).routes)
include order

theorem route_entry_iff {path : String} (one : ∀ name other svc svc',
      .service name svc ∈ registrations → .service other svc' ∈ registrations →
      PathOf name path → PathOf other path → name = other) (key : String) (svc : S) :
    Router.routeEntry iteration path = some (key, svc) ↔
      ∃ name, key = "/" ++ name ∧ lastUnder name registrations = some svc ∧ PathOf name path := by
  have matching {key : String} {svc : S}
      (mem : (key, svc) ∈ (Router.build registrations).routes)
      (matched : keyMatches path key = true) :
      ∃ name, key = "/" ++ name ∧ lastUnder name registrations = some svc ∧ PathOf name path := by
    obtain ⟨name, rfl, last⟩ := (built_routes_iff registrations key svc).mp mem
    exact ⟨name, rfl, last, (key_matches_iff path _).mp matched⟩
  have unique : ∀ a ∈ (Router.build registrations).routes,
      ∀ b ∈ (Router.build registrations).routes,
      keyMatches path a.1 = true → keyMatches path b.1 = true → a = b := by
    rintro ⟨key, svc⟩ mem ⟨key', svc'⟩ mem' matched matched'
    obtain ⟨name, rfl, last, of⟩ := matching mem matched
    obtain ⟨name', rfl, last', of'⟩ := matching mem' matched'
    have same := one name name' svc svc' (last_under_registered last)
      (last_under_registered last') of of'
    subst same
    rw [Option.some.inj (last.symm.trans last')]
  rw [Router.routeEntry, find_unique order unique]
  constructor
  · intro matching
    obtain ⟨mem, matched⟩ := matching
    exact matching mem matched
  · intro matching
    obtain ⟨name, rfl, last, of⟩ := matching
    exact ⟨(built_routes_iff registrations _ svc).mpr ⟨name, rfl, last⟩,
      (key_matches_iff path _).mpr of⟩

include segments

/-- Whatever was registered in whatever order, and however the map iterates: a path
    goes to the service registered last under its name, no path is of two names, and
    one of no name goes to the fallback or is rejected without asking any service. -/
theorem routing_exact :
    (∀ path name svc, lastUnder name registrations = some svc →
      (Router.routeEntry iteration path = some ("/" ++ name, svc) ↔ PathOf name path)) ∧
    (∀ path name other svc svc', .service name svc ∈ registrations →
      .service other svc' ∈ registrations → PathOf name path → PathOf other path → name = other) ∧
    ∀ {X β σ U : Type} (callBox : S → HttpRequest X β → HttpResponse (ResponseBody σ U))
      (req : HttpRequest X β),
      (∀ name svc, lastUnder name registrations = some svc → PathOf name req.parts.path →
        (Router.build registrations).call callBox iteration req = callBox svc req) ∧
      ((∀ name svc, .service name svc ∈ registrations → ¬ PathOf name req.parts.path) →
        (∀ fallback, lastFallback registrations = some fallback →
          (Router.build registrations).call callBox iteration req = callBox fallback req) ∧
        (lastFallback registrations = none →
          (Router.build registrations).call callBox iteration req =
            Status.intoHttp (.unimplemented "service not found"))) := by
  have one (path name other : String) (svc svc' : S) (here : .service name svc ∈ registrations)
      (there : .service other svc' ∈ registrations) (of : PathOf name path)
      (of' : PathOf other path) : name = other :=
    path_of_unique (segments name svc here) (segments other svc' there) of of'
  refine ⟨?_, one, ?_⟩
  · intro path name svc last
    rw [route_entry_iff order (one path)]
    constructor
    · intro matching
      obtain ⟨other, same, _, of⟩ := matching
      rw [← String.toList_inj, String.toList_append, String.toList_append,
        List.append_cancel_left_eq, String.toList_inj] at same
      rw [same]
      exact of
    · intro of
      exact ⟨name, rfl, last, of⟩
  · intro X β σ U callBox req
    constructor
    · intro name svc last of
      have found := (route_entry_iff order (one _) _ svc).mpr ⟨name, rfl, last, of⟩
      simp only [Router.call, Router.route, found, Option.map_some]
    · intro unknown
      have missed : Router.routeEntry iteration req.parts.path = none := by
        by_contra found
        obtain ⟨⟨key, svc⟩, found⟩ := Option.ne_none_iff_exists'.mp found
        obtain ⟨name, _, last, of⟩ := (route_entry_iff order (one _) key svc).mp found
        exact unknown name svc (last_under_registered last) of
      constructor
      · intro fallback last
        simp only [Router.call, Router.route, missed, Option.map_none, built_fallback, last]
      · intro none
        simp only [Router.call, Router.route, missed, Option.map_none, built_fallback, none]

end Routing

/-- Two names of which one starts the other, and a second registration, scanned backwards. -/
theorem nested_names_routed :
    let registrations : List (Registration Nat) :=
      [.service "pkg" 1, .service "pkg.Svc" 2, .service "pkg" 3]
    let iteration := [("/pkg.Svc", 2), ("/pkg", 3)]
    Router.routeEntry iteration "/pkg/Svc/Method" = some ("/pkg", 3) ∧
      (Router.build registrations).call
        (fun svc _ => ⟨svc, [], .empty⟩) iteration (⟨⟨"/pkg.Svc/Method", [], ()⟩, ()⟩) =
        (⟨2, [], .empty⟩ : HttpResponse (ResponseBody Unit Unit)) := by
  intro registrations iteration
  have segments : ∀ name svc, .service name svc ∈ registrations → '/' ∉ name.toList := by
    intro name svc mem
    simp only [registrations, List.mem_cons, Registration.service.injEq, List.not_mem_nil,
      or_false] at mem
    rcases mem with ⟨rfl, _⟩ | ⟨rfl, _⟩ | ⟨rfl, _⟩ <;> decide
  have order : iteration.Perm (Router.build registrations).routes := List.Perm.swap _ _ _
  obtain ⟨entries, _, calls⟩ := routing_exact segments order
  exact ⟨(entries "/pkg/Svc/Method" "pkg" 3 rfl).mpr ⟨"Svc/Method", rfl⟩,
    (calls _ _).1 "pkg.Svc" 2 rfl ⟨"Method", rfl⟩⟩

end ServiceRouting
