import ThreadComponent.HttpRoutes

/-!
# The routes that cHTTPServer and cHTTPSServer serve

The calls that have been accepted are kept beside the state, and those of them that the latest
`preRun` has copied. The tables are what the accepted calls make of empty tables, stored one after
the other; the maps of a server object are what the copied calls make of them.
-/

set_option autoImplicit false
set_option linter.unusedSectionVars false

namespace ThreadComponent

open Transitions System KeyedTable

/-! ## Methods -/

theorem letters_val : 'a'.val.toNat = 97 ∧ 'z'.val.toNat = 122 ∧ 'A'.val.toNat = 65 ∧
    'Z'.val.toNat = 90 ∧ ('a'.val - 'A'.val).toNat = 32 ∧
    ('A'.val - 'a'.val).toNat = 4294967264 := by
  decide

theorem toLower_toUpper (c : Char) : c.toUpper.toLower = c.toLower := by
  have hletters := letters_val
  have hbound := c.val.toNat_lt
  delta Char.toUpper Char.toLower
  simp only [Char.ext_iff, ge_iff_le, UInt32.le_iff_toNat_le, ← UInt32.toNat_inj]
  repeat' split
  all_goals simp only [UInt32.toNat_add] at *
  all_goals omega

theorem toUpper_toLower (c : Char) : c.toLower.toUpper = c.toUpper := by
  have hletters := letters_val
  have hbound := c.val.toNat_lt
  delta Char.toUpper Char.toLower
  simp only [Char.ext_iff, ge_iff_le, UInt32.le_iff_toNat_le, ← UInt32.toNat_inj]
  repeat' split
  all_goals simp only [UInt32.toNat_add] at *
  all_goals omega

/-- The keys of the tables are the texts up to letter case and surrounding white space. -/
theorem normalizeMethod_eq_iff {lhs rhs : String} :
    normalizeMethod lhs = normalizeMethod rhs ↔ SameMethod lhs rhs := by
  have hlower : Char.toLower ∘ Char.toUpper = Char.toLower := funext toLower_toUpper
  have hupper : Char.toUpper ∘ Char.toLower = Char.toUpper := funext toUpper_toLower
  rw [normalizeMethod, normalizeMethod, String.ofList_inj, SameMethod]
  constructor
  · intro h
    have hmap := congrArg (List.map Char.toLower) h
    rwa [List.map_map, List.map_map, hlower] at hmap
  · intro h
    have hmap := congrArg (List.map Char.toUpper) h
    rwa [List.map_map, List.map_map, hupper] at hmap

/-! ## The search before an entry is added -/

section Entries
variable {H K : Type} [DecidableEq K]

/-- A table of routes, with what `find_if` compares as the key. -/
def entries (key : Route H → K) (routes : List (Route H)) : List (K × H) :=
  routes.map fun route => (key route, route.handler)

theorem entries_storeRoute (key : Route H → K)
    (hkey : ∀ found handler, key { found with handler := handler } = key found)
    (route : Route H) (routes : List (Route H)) :
    entries key (storeRoute (fun found => key found = key route) route routes) =
      store (key route) route.handler (entries key routes) := by
  induction routes with
  | nil => rfl
  | cons found rest ih =>
    unfold storeRoute entries at ih ⊢
    rw [List.findIdx?_cons, List.map_cons, store, ← ih]
    by_cases hfound : key found = key route
    · rw [if_pos hfound, if_pos (decide_eq_true hfound)]
      simp only [List.modify_zero_cons, List.map_cons, hkey]
    · rw [if_neg hfound, if_neg (by simpa using hfound)]
      cases rest.findIdx? fun found => decide (key found = key route) with
      | none => rfl
      | some i => simp only [Option.map_some, List.modify_succ_cons, List.map_cons]

end Entries

/-! ## What the tables hold -/

section Tables
variable {H E : Type}

/-- What the calls have written into the table of the resources, in their order. -/
def resourceWrites (calls : List (RouteCall H)) : List ((String × String) × H) :=
  (calls.filter fun call => call.table = .resource).map fun call =>
    ((call.pathRegex, normalizeMethod call.method), call.handler)

def defaultWrites (calls : List (RouteCall H)) : List (String × H) :=
  (calls.filter fun call => call.table = .defaultResource).map fun call =>
    (normalizeMethod call.method, call.handler)

def resourceEntries (x : Routes H E) : List ((String × String) × H) :=
  entries (fun route => (route.pathRegex, route.method)) x.resources

def defaultEntries (x : Routes H E) : List (String × H) := entries Route.method x.defaultResources

structure WrittenBy (x : Routes H E) (calls : List (RouteCall H)) : Prop where
  resources : resourceEntries x = storeAll (resourceWrites calls) []
  defaultResources : defaultEntries x = storeAll (defaultWrites calls) []

variable {x : Routes H E} {calls : List (RouteCall H)} {call : RouteCall H}

theorem resourceEntries_store : resourceEntries (x.store call) =
    storeAll (resourceWrites [call]) (resourceEntries x) := by
  obtain ⟨table, pathRegex, method, handler⟩ := call
  cases table with
  | resource =>
    have hkey (route : Route H) :
        (decide (route.pathRegex = pathRegex) && decide (route.method = normalizeMethod method)) =
          decide ((route.pathRegex, route.method) = (pathRegex, normalizeMethod method)) := by
      simp only [Prod.mk.injEq, Bool.decide_and]
    unfold resourceEntries Routes.store
    simp only [hkey]
    exact entries_storeRoute (fun route : Route H => (route.pathRegex, route.method))
      (fun _ _ => rfl) ⟨pathRegex, normalizeMethod method, handler⟩ x.resources
  | defaultResource => rfl

theorem defaultEntries_store : defaultEntries (x.store call) =
    storeAll (defaultWrites [call]) (defaultEntries x) := by
  obtain ⟨table, pathRegex, method, handler⟩ := call
  cases table with
  | resource => rfl
  | defaultResource =>
    exact entries_storeRoute Route.method (fun _ _ => rfl)
      ⟨"", normalizeMethod method, handler⟩ x.defaultResources

theorem WrittenBy.store (h : WrittenBy x calls) (call : RouteCall H) :
    WrittenBy (x.store call) (calls ++ [call]) where
  resources := by
    rw [resourceEntries_store, h.resources, resourceWrites, resourceWrites, resourceWrites,
      List.filter_append, List.map_append, storeAll_append]
  defaultResources := by
    rw [defaultEntries_store, h.defaultResources, defaultWrites, defaultWrites, defaultWrites,
      List.filter_append, List.map_append, storeAll_append]

theorem WrittenBy.lastWriterWins (h : WrittenBy x calls) :
    LastWriterWins (resourceWrites calls) (resourceEntries x) ∧
      LastWriterWins (defaultWrites calls) (defaultEntries x) := by
  rw [h.resources, h.defaultResources]
  exact ⟨lastWriterWins_storeAll _, lastWriterWins_storeAll _⟩

/-- A regex that has been accepted stays in the table. -/
theorem WrittenBy.forall_regex (h : WrittenBy x calls) (P : String → Prop) :
    (∀ route ∈ x.resources, P route.pathRegex) ↔
      ∀ call ∈ calls, call.table = .resource → P call.pathRegex := by
  have hkeys (key : String × String) : (key ∈ (resourceEntries x).map Prod.fst ↔
      key ∈ (resourceWrites calls).map Prod.fst) := by
    rw [h.resources, mem_keys_storeAll]
    exact or_iff_left List.not_mem_nil
  have hroutes : (∀ route ∈ x.resources, P route.pathRegex) ↔
      ∀ key ∈ (resourceEntries x).map Prod.fst, P key.1 := by
    simp only [resourceEntries, entries, List.forall_mem_map]
  have hcalls : (∀ call ∈ calls, call.table = .resource → P call.pathRegex) ↔
      ∀ key ∈ (resourceWrites calls).map Prod.fst, P key.1 := by
    simp only [resourceWrites, List.forall_mem_map, List.mem_filter, and_imp, decide_eq_true_eq]
  rw [hroutes, hcalls]
  exact forall_congr' fun key => by rw [hkeys]

end Tables

/-! ## What `preRun` installs -/

section Install
variable {Request : Type} {kind : HttpKind} {regexError : String → Option Failure}
  {errorHandler : Option (RequestErrorHandler Request)}

/-- The maps of a server object hold the last handler of each key that is written, each inside its
wrapper, and nothing else. -/
structure Serves (kind : HttpKind) (errorHandler : Option (RequestErrorHandler Request))
    (calls : List (RouteCall (RequestHandler Request))) (x : ServerRoutes Request) : Prop where
  resource : ∀ key, flat x.resource key = (last key (resourceWrites calls)).map fun handler =>
    preRunWrapper kind .resource handler errorHandler
  filled : Filled x.resource
  defaultResource : ∀ method, x.defaultResource method =
    (last method (defaultWrites calls)).map fun handler =>
      preRunWrapper kind .defaultResource handler errorHandler

variable (kind regexError errorHandler) in
theorem installResources_error (routes : List (Route (RequestHandler Request)))
    (x : ServerRoutes Request) :
    (installResources kind regexError errorHandler routes x).2 = none ↔
      ∀ route ∈ routes, regexError route.pathRegex = none := by
  induction routes generalizing x with
  | nil => exact ⟨fun _ _ => nofun, fun _ => rfl⟩
  | cons route rest ih =>
    unfold installResources
    rw [List.forall_mem_cons]
    cases hregex : regexError route.pathRegex with
    | none => exact (ih _).trans (and_iff_right rfl).symm
    | some error => exact ⟨nofun, fun h => nomatch h.1⟩

theorem installResources_maps {routes : List (Route (RequestHandler Request))}
    {x y : ServerRoutes Request}
    (h : installResources kind regexError errorHandler routes x = (y, none)) :
    flat y.resource = assignAll (flat x.resource)
        ((entries (fun route => (route.pathRegex, route.method)) routes).map fun entry =>
          (entry.1, preRunWrapper kind .resource entry.2 errorHandler)) ∧
      (Filled x.resource → Filled y.resource) ∧ y.defaultResource = x.defaultResource := by
  induction routes generalizing x with
  | nil =>
    obtain rfl := (Prod.mk.inj h).1
    exact ⟨rfl, id, rfl⟩
  | cons route rest ih =>
    unfold installResources at h
    cases hregex : regexError route.pathRegex with
    | some error =>
      rw [hregex] at h
      cases (Prod.mk.inj h).2
    | none =>
      rw [hregex] at h
      obtain ⟨hflat, hfilled, hdefault⟩ := ih h
      refine ⟨?_, fun hx => hfilled (hx.assignAt _ _ _), hdefault⟩
      rw [hflat, flat_assignAt]
      rfl

variable (kind errorHandler) in
theorem installDefaults_maps (routes : List (Route (RequestHandler Request)))
    (x : ServerRoutes Request) :
    (installDefaults kind errorHandler routes x).resource = x.resource ∧
      (installDefaults kind errorHandler routes x).defaultResource = assignAll x.defaultResource
        ((entries Route.method routes).map fun entry =>
          (entry.1, preRunWrapper kind .defaultResource entry.2 errorHandler)) := by
  induction routes generalizing x with
  | nil => exact ⟨rfl, rfl⟩
  | cons route rest ih => exact ih _

variable (kind regexError) in
theorem installRoutes_error (copies : RequestRoutes Request) (x : ServerRoutes Request) :
    (installRoutes kind regexError copies x).2 = none ↔
      ∀ route ∈ copies.resources, regexError route.pathRegex = none := by
  rw [← installResources_error kind regexError copies.errorHandler _ x]
  unfold installRoutes
  obtain ⟨y, error⟩ := installResources kind regexError copies.errorHandler copies.resources x
  cases error <;> rfl

/-- Into an empty server object, `preRun` writes what the tables say. -/
theorem WrittenBy.serves {copies : RequestRoutes Request}
    {calls : List (RouteCall (RequestHandler Request))} (h : WrittenBy copies calls)
    {x : ServerRoutes Request} (hx : installRoutes kind regexError copies {} = (x, none)) :
    Serves kind copies.errorHandler calls x := by
  obtain ⟨hresources, hdefaults⟩ := h.lastWriterWins
  unfold installRoutes at hx
  cases hy : installResources kind regexError copies.errorHandler copies.resources {} with
  | mk y error =>
  rw [hy] at hx
  cases error with
  | some error => cases (Prod.mk.inj hx).2
  | none =>
    obtain rfl := (Prod.mk.inj hx).1
    obtain ⟨hflat, hfilled, hdefault⟩ := installResources_maps hy
    obtain ⟨hsame, hassigned⟩ := installDefaults_maps kind copies.errorHandler
      copies.defaultResources y
    refine ⟨fun key => ?_, ?_, fun method => ?_⟩
    · rw [hsame]
      exact (congrFun hflat key).trans (hresources.assignAll
        (fun handler => preRunWrapper kind .resource handler copies.errorHandler) key)
    · rw [hsame]
      exact hfilled fun _ => nofun
    · rw [hassigned, hdefault]
      exact hdefaults.assignAll
        (fun handler => preRunWrapper kind .defaultResource handler copies.errorHandler) method

end Install

/-! ## The steps -/

section Steps
variable {C Request : Type} [DecidableEq C] {kind : HttpKind}
  {regexError : String → Option Failure}

def serverView (s : Object C (RoutedServer C Request)) : Object C (HttpServer C (ServerV1 C)) :=
  ⟨s.base, s.ext.server⟩

structure RouteHistory (H : Type) where
  accepted : List (RouteCall H) := []
  copied : List (RouteCall H) := []

/-- A call is accepted in its section; the section at the head of `preRun` copies. -/
def noteRoutes (s : Object C (RoutedServer C Request)) (a : ObjectAction C (RouteAction C Request))
    (h : RouteHistory (RequestHandler Request)) : RouteHistory (RequestHandler Request) :=
  match a with
  | .own (.storeRoute c) =>
    match s.ext.caller c with
    | .store call => { h with accepted := h.accepted ++ [call] }
    | _ => h
  | .own (.server (.body .readConfiguration)) => { h with copied := h.accepted }
  | _ => h

variable (C Request kind regexError) in
def routeHistory : System (Object C (RoutedServer C Request) × RouteHistory (RequestHandler Request))
    (ObjectAction C (RouteAction C Request)) :=
  (routedServer C Request kind regexError).system.withHistory {} noteRoutes

inductive RouteStep (kind : HttpKind) (regexError : String → Option Failure)
    (s t : Object C (RoutedServer C Request)) : ObjectAction C (RouteAction C Request) → Prop where
  | base {a : BaseAction C}
      (hserver : (ServerV1.body kind).derived.step (serverView s) (.base a) = some (serverView t))
      (hext : t.ext = { s.ext with server := t.ext.server }) : RouteStep kind regexError s t (.base a)
  | server {a : HttpAction C (ServerAction C)} {o : RoutedServer C Request}
      (hserver : (ServerV1.body kind).derived.step (serverView s) (.own a) = some (serverView t))
      (hfollow : s.ext.follow kind regexError a = some o)
      (hext : t.ext = { o with server := t.ext.server }) :
      RouteStep kind regexError s t (.own (.server a))
  | store {c : C} {call : RouteCall (RequestHandler Request)} (hcall : s.ext.caller c = .store call)
      (hext : t.ext =
        { s.ext with routes := s.ext.routes.store call }.setCaller c (.returned true)) :
      RouteStep kind regexError s t (.own (.storeRoute c))
  | call {a : RouteAction C Request} (hnote : ∀ h, noteRoutes s (.own a) h = h)
      (ha : ∀ b, a ≠ .server b)
      (hext : t.ext = { s.ext with
        caller := t.ext.caller
        routes := { s.ext.routes with errorHandler := t.ext.routes.errorHandler } }) :
      RouteStep kind regexError s t (.own a)

theorem check_frame {s : BaseWorker C} {o : RoutedServer C Request} {c : C} {badRegex : Bool}
    {table : RouteTable} {pathRegex method : String} {handler : Option (RequestHandler Request)} :
    o.check s c badRegex table pathRegex method handler =
      { o with caller := (o.check s c badRegex table pathRegex method handler).caller } := by
  unfold RoutedServer.check
  cases handler with
  | none => rfl
  | some handler =>
    dsimp only
    split <;> rfl

theorem routeStep_of_step {s t : Object C (RoutedServer C Request)}
    {a : ObjectAction C (RouteAction C Request)}
    (h : (routedServer C Request kind regexError).step s a = some t) :
    RouteStep kind regexError s t a := by
  cases a with
  | base a =>
    obtain ⟨hs, hx⟩ := Derived.step_base.mp h
    have hserver : ∃ server, (ServerV1.body kind).derived.sync s.base a s.ext.server = some server ∧
        { s.ext with server := server } = t.ext := by
      simp only [routedServer] at hx
      split at hx
      · split at hx
        · exact Option.map_eq_some_iff.mp hx
        · cases hx
      · exact Option.map_eq_some_iff.mp hx
    obtain ⟨server, hserver, hext⟩ := hserver
    have hsame : t.ext.server = server := by rw [← hext]
    exact .base (Derived.step_base.mpr ⟨hs, hserver.trans (congrArg some hsame.symm)⟩)
      (by rw [← hext])
  | own a =>
    obtain ⟨hs, hx⟩ := Derived.step_own.mp h
    cases a with
    | server a =>
      obtain ⟨o, hfollow, hrest⟩ := Option.bind_eq_some_iff.mp hx
      obtain ⟨server, hserver, hext⟩ := Option.map_eq_some_iff.mp hrest
      have hsame : t.ext.server = server := by rw [← hext]
      exact .server (Derived.step_own.mpr ⟨hs, hserver.trans (congrArg some hsame.symm)⟩) hfollow
        (by rw [← hext])
    | addResource c pathRegex method handler =>
      obtain ⟨-, hext⟩ := Option.ite_none_right_eq_some.mp hx
      refine .call (fun _ => rfl) nofun ?_
      rw [← Option.some.inj hext, check_frame]
    | setDefaultResource c method handler =>
      obtain ⟨-, hext⟩ := Option.ite_none_right_eq_some.mp hx
      refine .call (fun _ => rfl) nofun ?_
      rw [← Option.some.inj hext, check_frame]
    | storeRoute c =>
      cases hcall : s.ext.caller c with
      | store call =>
        simp only [routedServer, hcall] at hx
        exact .store hcall (Option.some.inj hx).symm
      | _ => simp only [routedServer, hcall, reduceCtorEq] at hx
    | setErrorHandler c handler =>
      obtain ⟨-, hext⟩ := Option.ite_none_right_eq_some.mp hx
      refine .call (fun _ => rfl) nofun ?_
      rw [← Option.some.inj hext]
      split <;> rfl
    | storeErrorHandler c =>
      refine .call (fun _ => rfl) nofun ?_
      cases hcall : s.ext.caller c with
      | setErrorHandler handler =>
        simp only [routedServer, hcall] at hx
        rw [← Option.some.inj hx]
        rfl
      | _ => simp only [routedServer, hcall, reduceCtorEq] at hx

/-- Every run of the server with its routes is a run of the server. -/
theorem serverView_reachable {s : Object C (RoutedServer C Request)}
    (hr : (routedServer C Request kind regexError).system.Reachable s) :
    (ServerV1.body kind).derived.system.Reachable (serverView s) := by
  refine Reaches.project (T := (ServerV1.body kind).derived.system) serverView
    (fun u a v hs => ?_) hr
  cases routeStep_of_step hs with
  | @base a hserver _ => exact .inr ⟨.base a, hserver⟩
  | @server a _ hserver _ _ => exact .inr ⟨.own a, hserver⟩
  | store _ hext =>
    refine .inl ?_
    rw [serverView, serverView, (Derived.step_own.mp hs).1, hext]
    rfl
  | call _ _ hext =>
    refine .inl ?_
    rw [serverView, serverView, (Derived.step_own.mp hs).1, hext]

def ServerAction.touchesRoutes : ServerAction C → Bool
  | .readConfiguration | .makeServer _ | .addResources _ => true
  | _ => false

theorem touchesRoutes_or_aside (a : HttpAction C (ServerAction C)) :
    (∃ b, a = .body b ∧ b.touchesRoutes = true) ∨ ∀ b, a = .body b → b.touchesRoutes = false := by
  cases a with
  | body b =>
    cases hb : b.touchesRoutes with
    | true => exact .inl ⟨b, rfl, hb⟩
    | false =>
      refine .inr fun b' hb' => ?_
      cases hb'
      exact hb
  | _ => exact .inr nofun

/-- The places where the maps of the server object are as its `preRun` has left them. -/
def ServerHook.atRoutes : ServerHook → Bool
  | .addResources | .preRunDone (.value true) => true
  | _ => false

theorem sync_atRoutes {s : BaseWorker C} {a : BaseAction C} {x y : ServerV1 C}
    (h : ServerV1.sync s a x = some y) (hy : y.hook.atRoutes = true) :
    y.hook = x.hook ∧ y.server = x.server := by
  cases a <;> simp only [ServerV1.sync] at h <;>
    grind -linarith [ServerV1.setStop, ServerHook.atRoutes]

theorem own_atRoutes {s : BaseWorker C} {a : ServerAction C} {x y : ServerV1 C}
    {e : Option StartEvent} (h : ServerV1.own kind s x a = some (y, e))
    (ha : a.touchesRoutes = false) (hy : y.hook.atRoutes = true) :
    y.hook = x.hook ∧ y.server = x.server := by
  cases a with
  | listening port | startReturns | startThrows f =>
    simp only [ServerV1.own] at h
    split at h
    · obtain ⟨rfl, -⟩ := Prod.mk.inj (Option.some.inj h)
      cases hy
    · cases h
  | handlerError message | stopServer c =>
    simp only [ServerV1.own] at h
    split at h
    · obtain ⟨rfl, -⟩ := Prod.mk.inj (Option.some.inj h)
      exact ⟨rfl, rfl⟩
    · cases h
  | _ =>
    simp only [ServerV1.own] at h
    grind -linarith [ServerV1.setStop, ServerV1.resolveFailure, ServerHook.atRoutes,
      ServerAction.touchesRoutes]

theorem step_atRoutes {x y : Object C (HttpServer C (ServerV1 C))}
    {a : ObjectAction C (HttpAction C (ServerAction C))}
    (h : (ServerV1.body kind).derived.step x a = some y)
    (ha : ∀ b, a = .own (.body b) → b.touchesRoutes = false)
    (hy : y.ext.body.hook.atRoutes = true) :
    y.ext.body.hook = x.ext.body.hook ∧ y.ext.body.server = x.ext.body.server := by
  cases HttpBody.bodyStep_of_step h with
  | base _ hx _ _ => exact sync_atRoutes hx hy
  | own _ hx _ => exact own_atRoutes hx (ha _ rfl) hy
  | caller _ hx _ _ _ => rw [hx]; exact ⟨rfl, rfl⟩

theorem own_readConfiguration {s : BaseWorker C} {x y : ServerV1 C} {e : Option StartEvent}
    (h : ServerV1.own kind s x .readConfiguration = some (y, e)) : y.hook.atRoutes = false := by
  simp only [ServerV1.own] at h
  grind -linarith [ServerV1.resolveFailure, ServerHook.atRoutes]

theorem own_makeServer {s : BaseWorker C} {x y : ServerV1 C} {e : Option StartEvent}
    {failure : Option Failure} (h : ServerV1.own kind s x (.makeServer failure) = some (y, e)) :
    (failure = none ∧ y.hook = .addResources ∧ y.server = some x.made) ∨
      y.hook.atRoutes = false := by
  simp only [ServerV1.own] at h
  cases failure <;> grind -linarith [ServerV1.preRunFailed, ServerHook.atRoutes]

theorem own_addResources {s : BaseWorker C} {x y : ServerV1 C} {e : Option StartEvent}
    {failure : Option Failure} (h : ServerV1.own kind s x (.addResources failure) = some (y, e)) :
    x.hook = .addResources ∧
      ((failure = none ∧ y.hook = .preRunDone (.value true) ∧ y.server = x.server) ∨
        (failure ≠ none ∧ y.hook.atRoutes = false)) := by
  simp only [ServerV1.own] at h
  cases failure <;> grind -linarith [ServerV1.preRunFailed, ServerHook.atRoutes]

/-! ## In every run -/

structure RoutesKept (kind : HttpKind) (regexError : String → Option Failure)
    (s : Object C (RoutedServer C Request)) (h : RouteHistory (RequestHandler Request)) : Prop where
  routes : WrittenBy s.ext.routes h.accepted
  copies : WrittenBy s.ext.copies h.copied
  made : s.ext.server.body.hook = .addResources →
    ∃ i, s.ext.server.body.server = some i ∧ s.ext.installed i = {}
  installed : s.ext.server.body.hook = .preRunDone (.value true) →
    ∃ i, s.ext.server.body.server = some i ∧
      installRoutes kind regexError s.ext.copies {} = (s.ext.installed i, none)

variable {s t : Object C (RoutedServer C Request)} {h h' : RouteHistory (RequestHandler Request)}

theorem RoutesKept.aside (hs : RoutesKept kind regexError s h)
    (hroutes : WrittenBy t.ext.routes h'.accepted) (hcopied : h'.copied = h.copied)
    (hcopies : t.ext.copies = s.ext.copies) (hinstalled : t.ext.installed = s.ext.installed)
    (hserver : t.ext.server.body.hook.atRoutes = true →
      t.ext.server.body.hook = s.ext.server.body.hook ∧
        t.ext.server.body.server = s.ext.server.body.server) :
    RoutesKept kind regexError t h' where
  routes := hroutes
  copies := by
    rw [hcopied, hcopies]
    exact hs.copies
  made hhook := by
    obtain ⟨hsame, hserver⟩ := hserver (by rw [hhook]; rfl)
    rw [hserver, hinstalled]
    exact hs.made (hsame.symm.trans hhook)
  installed hhook := by
    obtain ⟨hsame, hserver⟩ := hserver (by rw [hhook]; rfl)
    rw [hserver, hinstalled, hcopies]
    exact hs.installed (hsame.symm.trans hhook)

/-- A step of `preRun` that ends in a place where nothing is said of its server object. -/
theorem RoutesKept.away (hroutes : WrittenBy t.ext.routes h.accepted)
    (hcopies : WrittenBy t.ext.copies h.copied)
    (hserver : t.ext.server.body.hook.atRoutes = false) : RoutesKept kind regexError t h where
  routes := hroutes
  copies := hcopies
  made hhook := by
    rw [hhook] at hserver
    cases hserver
  installed hhook := by
    rw [hhook] at hserver
    cases hserver

theorem RoutesKept.preRun {a : ServerAction C} {o : RoutedServer C Request} {e : Option StartEvent}
    (hs : RoutesKept kind regexError s h) (ha : a.touchesRoutes = true)
    (hown : ServerV1.own kind s.base s.ext.server.body a = some (t.ext.server.body, e))
    (hfollow : s.ext.follow kind regexError (.body a) = some o)
    (hext : t.ext = { o with server := t.ext.server }) :
    RoutesKept kind regexError t (noteRoutes s (.own (.server (.body a))) h) := by
  cases a with
  | readConfiguration =>
    obtain rfl := Option.some.inj hfollow
    refine .away ?_ ?_ (own_readConfiguration hown) <;> rw [hext]
    · exact hs.routes
    · exact hs.routes
  | makeServer failure =>
    have hroutes : t.ext.routes = s.ext.routes ∧ t.ext.copies = s.ext.copies := by
      cases failure <;> obtain rfl := Option.some.inj hfollow <;> rw [hext] <;> exact ⟨rfl, rfl⟩
    have hr : WrittenBy t.ext.routes h.accepted := hroutes.1 ▸ hs.routes
    have hc : WrittenBy t.ext.copies h.copied := hroutes.2 ▸ hs.copies
    rcases own_makeServer hown with ⟨rfl, hhook, hserver⟩ | haway
    · refine ⟨hr, hc, fun _ => ⟨_, hserver, ?_⟩, fun hdone => ?_⟩
      · obtain rfl := Option.some.inj hfollow
        rw [hext]
        exact Function.update_self ..
      · rw [hhook] at hdone
        cases hdone
    · exact .away hr hc haway
  | addResources failure =>
    obtain ⟨hhook, hcases⟩ := own_addResources hown
    obtain ⟨i, hi, hempty⟩ := hs.made hhook
    simp only [RoutedServer.follow, hi, hempty] at hfollow
    obtain ⟨hfailure, ho⟩ := Option.ite_none_right_eq_some.mp hfollow
    obtain rfl := Option.some.inj ho
    have hr : WrittenBy t.ext.routes h.accepted := by
      rw [hext]
      exact hs.routes
    have hc : WrittenBy t.ext.copies h.copied := by
      rw [hext]
      exact hs.copies
    rcases hcases with ⟨rfl, hdone, hserver⟩ | ⟨-, haway⟩
    · refine ⟨hr, hc, fun hmade => ?_, fun _ => ⟨i, hserver.trans hi, ?_⟩⟩
      · rw [hdone] at hmade
        cases hmade
      · rw [hext]
        dsimp only
        rw [Function.update_self]
        exact Prod.ext rfl hfailure.symm
    · exact .away hr hc haway
  | _ => cases ha

theorem follow_aside {a : HttpAction C (ServerAction C)} {o : RoutedServer C Request}
    (ha : ∀ b, a = .body b → b.touchesRoutes = false)
    (hfollow : s.ext.follow kind regexError a = some o) :
    o = s.ext ∧ noteRoutes s (.own (.server a)) h = h := by
  cases a with
  | startThread c wait =>
    obtain ⟨-, ho⟩ := Option.ite_none_right_eq_some.mp hfollow
    exact ⟨(Option.some.inj ho).symm, rfl⟩
  | startReturned c => exact ⟨(Option.some.inj hfollow).symm, rfl⟩
  | waitUntilListening c => exact ⟨(Option.some.inj hfollow).symm, rfl⟩
  | body b =>
    have hb := ha b rfl
    cases b with
    | readConfiguration => cases hb
    | makeServer failure => cases hb
    | addResources failure => cases hb
    | _ => exact ⟨(Option.some.inj hfollow).symm, rfl⟩

theorem RoutesKept.step {a : ObjectAction C (RouteAction C Request)}
    (hs : RoutesKept kind regexError s h)
    (hstep : (routedServer C Request kind regexError).step s a = some t) :
    RoutesKept kind regexError t (noteRoutes s a h) := by
  cases routeStep_of_step hstep with
  | base hserver hext =>
    refine hs.aside ?_ rfl ?_ ?_ (step_atRoutes hserver nofun)
    all_goals rw [hext]
    exact hs.routes
  | @server a o hserver hfollow hext =>
    rcases touchesRoutes_or_aside a with ⟨b, rfl, hb⟩ | haside
    · cases HttpBody.bodyStep_of_step hserver with
      | own _ hown _ => exact hs.preRun hb hown hfollow hext
      | caller _ _ hbody _ _ => exact absurd rfl (hbody b)
    · obtain ⟨rfl, hnote⟩ := follow_aside (h := h) haside hfollow
      rw [hnote]
      refine hs.aside ?_ rfl ?_ ?_ (step_atRoutes hserver fun b hb => ?_)
      · rw [hext]
        exact hs.routes
      · rw [hext]
      · rw [hext]
      · cases hb
        exact haside b rfl
  | @store c call hcall hext =>
    have hnote : noteRoutes s (.own (.storeRoute c)) h =
        { h with accepted := h.accepted ++ [call] } := by
      simp only [noteRoutes, hcall]
    rw [hnote]
    refine hs.aside ?_ rfl ?_ ?_ fun _ => ?_ <;> rw [hext]
    · exact hs.routes.store call
    · rfl
    · rfl
    · exact ⟨rfl, rfl⟩
  | call hnote _ hext =>
    rw [hnote]
    refine hs.aside ?_ rfl ?_ ?_ fun _ => ?_ <;> rw [hext]
    · exact ⟨hs.routes.resources, hs.routes.defaultResources⟩
    · exact ⟨rfl, rfl⟩

theorem routesKept_of_reachable
    {x : Object C (RoutedServer C Request) × RouteHistory (RequestHandler Request)}
    (hr : (routeHistory C Request kind regexError).Reachable x) :
    RoutesKept kind regexError x.1 x.2 := by
  refine Reachable.related (R := RoutesKept kind regexError) ?_ ?_ hr
  · exact ⟨⟨rfl, rfl⟩, ⟨rfl, rfl⟩, nofun, nofun⟩
  · intro s a t h _ hs hstep
    exact hs.step hstep

theorem follow_routes {a : HttpAction C (ServerAction C)} {o : RoutedServer C Request}
    (hfollow : s.ext.follow kind regexError a = some o) :
    o.routes = s.ext.routes ∧ (noteRoutes s (.own (.server a)) h).accepted = h.accepted := by
  rcases touchesRoutes_or_aside a with ⟨b, rfl, hb⟩ | haside
  · cases b with
    | readConfiguration =>
      obtain rfl := Option.some.inj hfollow
      exact ⟨rfl, rfl⟩
    | makeServer failure =>
      cases failure <;> obtain rfl := Option.some.inj hfollow <;> exact ⟨rfl, rfl⟩
    | addResources failure =>
      cases hi : s.ext.server.body.server with
      | none => simp only [RoutedServer.follow, hi, reduceCtorEq] at hfollow
      | some i =>
        simp only [RoutedServer.follow, hi] at hfollow
        obtain ⟨-, ho⟩ := Option.ite_none_right_eq_some.mp hfollow
        obtain rfl := Option.some.inj ho
        exact ⟨rfl, rfl⟩
    | _ => cases hb
  · obtain ⟨rfl, hnote⟩ := follow_aside (h := h) haside hfollow
    exact ⟨rfl, by rw [hnote]⟩

/-- The tables change in the section of a call that returns `true`, and nowhere else. -/
theorem accepts_or_keeps {a : ObjectAction C (RouteAction C Request)}
    (hstep : (routedServer C Request kind regexError).step s a = some t) :
    (∃ c call, a = .own (.storeRoute c) ∧ s.ext.caller c = .store call ∧
        t.ext.caller c = .returned true ∧
        (noteRoutes s a h).accepted = h.accepted ++ [call]) ∨
      (t.ext.routes.resources = s.ext.routes.resources ∧
        t.ext.routes.defaultResources = s.ext.routes.defaultResources ∧
        (noteRoutes s a h).accepted = h.accepted) := by
  cases routeStep_of_step hstep with
  | base _ hext =>
    rw [hext]
    exact .inr ⟨rfl, rfl, rfl⟩
  | server _ hfollow hext =>
    obtain ⟨hroutes, hnote⟩ := follow_routes (h := h) hfollow
    rw [hext]
    exact .inr ⟨congrArg _ hroutes, congrArg _ hroutes, hnote⟩
  | @store c call hcall hext =>
    refine .inl ⟨c, call, rfl, hcall, ?_, ?_⟩
    · rw [hext]
      exact Function.update_self ..
    · simp only [noteRoutes, hcall]
  | call hnote _ hext =>
    rw [hext, hnote]
    exact .inr ⟨rfl, rfl, rfl⟩

/-- `preRun` gets behind its loops if the library accepts each regex that it has copied. -/
theorem RoutesKept.addResources {failure : Option Failure} (hs : RoutesKept kind regexError s h)
    (hstep : (routedServer C Request kind regexError).step s
      (.own (.server (.body (.addResources failure)))) = some t) :
    t.ext.server.body.hook = .preRunDone (.value true) ↔
      ∀ call ∈ h.copied, call.table = .resource → regexError call.pathRegex = none := by
  cases routeStep_of_step hstep with
  | call _ hserver _ => exact absurd rfl (hserver _)
  | server hserver hfollow hext =>
    cases HttpBody.bodyStep_of_step hserver with
    | caller _ _ hbody _ _ => exact absurd rfl (hbody _)
    | @own _ e _ hown _ =>
      have hstart : ServerV1.own kind s.base s.ext.server.body (.addResources failure) =
          some (t.ext.server.body, e) := hown
      obtain ⟨hhook, hcases⟩ := own_addResources hstart
      obtain ⟨i, hi, -⟩ := hs.made hhook
      simp only [RoutedServer.follow, hi] at hfollow
      obtain ⟨hfailure, -⟩ := Option.ite_none_right_eq_some.mp hfollow
      rw [← hs.copies.forall_regex fun pathRegex => regexError pathRegex = none,
        ← installRoutes_error kind regexError _ (s.ext.installed i), ← hfailure]
      rcases hcases with ⟨hnone, hdone, -⟩ | ⟨hsome, haway⟩
      · exact iff_of_true hdone hnone
      · refine iff_of_false (fun hdone => ?_) hsome
        rw [hdone] at haway
        cases haway

variable {x : Object C (RoutedServer C Request) × RouteHistory (RequestHandler Request)}

/-- In every run of either server, with any number of threads: both tables are maps in which the
last accepted call for a key wins, and methods that differ only in letter case or surrounding white
space are one key; only a call that returns `true` changes a table; and a `preRun` that returns
`true` has installed the last writers of the calls that it has copied, in a server object that
holds nothing else. It gets there from its loops if and only if the library accepts every regex. -/
theorem routes_are_last_writers (hr : (routeHistory C Request kind regexError).Reachable x) :
    LastWriterWins (resourceWrites x.2.accepted) (resourceEntries x.1.ext.routes) ∧
      LastWriterWins (defaultWrites x.2.accepted) (defaultEntries x.1.ext.routes) ∧
      (∀ lhs rhs, normalizeMethod lhs = normalizeMethod rhs ↔ SameMethod lhs rhs) ∧
      (∀ a y, (routeHistory C Request kind regexError).step x a = some y →
        (∃ c call, a = .own (.storeRoute c) ∧ x.1.ext.caller c = .store call ∧
            y.1.ext.caller c = .returned true ∧ y.2.accepted = x.2.accepted ++ [call]) ∨
          (y.1.ext.routes.resources = x.1.ext.routes.resources ∧
            y.1.ext.routes.defaultResources = x.1.ext.routes.defaultResources ∧
            y.2.accepted = x.2.accepted)) ∧
      (∀ failure y, (routeHistory C Request kind regexError).step x
          (.own (.server (.body (.addResources failure)))) = some y →
        (y.1.ext.server.body.hook = .preRunDone (.value true) ↔
          ∀ call ∈ x.2.copied, call.table = .resource → regexError call.pathRegex = none)) ∧
      (x.1.ext.server.body.hook = .preRunDone (.value true) →
        ∃ i, x.1.ext.server.body.server = some i ∧
          Serves kind x.1.ext.copies.errorHandler x.2.copied (x.1.ext.installed i)) := by
  have hs := routesKept_of_reachable hr
  obtain ⟨hresources, hdefaults⟩ := hs.routes.lastWriterWins
  refine ⟨hresources, hdefaults, fun _ _ => normalizeMethod_eq_iff, fun a y hstep => ?_,
    fun failure y hstep => ?_, fun hhook => ?_⟩
  · obtain ⟨hbase, hnote⟩ := step_withHistory.mp hstep
    rw [hnote]
    exact accepts_or_keeps hbase
  · exact hs.addResources (step_withHistory.mp hstep).1
  · obtain ⟨i, hi, hinstall⟩ := hs.installed hhook
    exact ⟨i, hi, hs.copies.serves hinstall⟩

end Steps

/-! ## Starts of a server with routes -/

abbrev RouteSchedule := List (ObjectAction (Fin 1) (RouteAction (Fin 1) Unit))

def storeSchedule (pathRegex method : String) (handler : RequestHandler Unit) : RouteSchedule :=
  [.own (.addResource 0 pathRegex method (some handler)), .own (.storeRoute 0)]

def preRunSchedule (steps : List (ServerAction (Fin 1))) : RouteSchedule :=
  [.own (.server (.startThread 0 true)), .base (.call 0 (.startThread false)),
    .base (.joinFinished 0), .base (.startSection 0 true), .base (.preRunBegin 0)] ++
    steps.map fun a => .own (.server (.body a))

def rejectsGroup : String → Option Failure
  | "(" => some ⟨0, some "regex_error"⟩
  | _ => none

/-- One route is stored twice, under two spellings of its method. -/
theorem routes_are_last_writers_started :
    let S := routeHistory (Fin 1) Unit .http rejectsGroup
    let x := S.after Free S.init (storeSchedule "^/info$" " get " (fun _ => {}) ++
      storeSchedule "^/info$" "GET" (fun _ => { writes := [.writeHeaders 200 []] }) ++
      preRunSchedule [.readConfiguration, .makeServer none, .addResources none])
    x.2.copied.length = 2 ∧ ∃ i, x.1.ext.server.body.server = some i ∧
      Serves .http x.1.ext.copies.errorHandler x.2.copied (x.1.ext.installed i) :=
  ⟨by decide, (routes_are_last_writers (reaches_after (by decide))).2.2.2.2.2 (by decide)⟩

/-- Wherever `preRun` has returned, it has installed what it has copied. -/
def PreRunInstalls (kind : HttpKind) (regexError : String → Option Failure) : Prop :=
  ∀ x, (routeHistory (Fin 1) Unit kind regexError).Reachable x →
    ∀ e, x.1.ext.server.body.hook = .preRunDone e →
      ∃ i, x.1.ext.server.body.server = some i ∧
        Serves kind x.1.ext.copies.errorHandler x.2.copied (x.1.ext.installed i)

/-- cHTTPSServer wants a certificate first, and either server gives up at a regex that the library
does not accept. -/
theorem preRun_may_install_nothing :
    ¬ PreRunInstalls .https (fun _ => none) ∧ ¬ PreRunInstalls .http rejectsGroup := by
  constructor
  · intro hclaim
    let S := routeHistory (Fin 1) Unit .https fun _ => none
    let x := S.after Free S.init
      (storeSchedule "^/info$" "GET" (fun _ => {}) ++ preRunSchedule [.readConfiguration])
    obtain ⟨i, hi, -⟩ := hclaim x (reaches_after (by decide)) (.value false) (by decide)
    have hnone : x.1.ext.server.body.server = none := by decide
    rw [hnone] at hi
    cases hi
  · intro hclaim
    let S := routeHistory (Fin 1) Unit .http rejectsGroup
    let x := S.after Free S.init (storeSchedule "(" "GET" (fun _ => {}) ++
      preRunSchedule [.readConfiguration, .makeServer none,
        .addResources (some ⟨0, some "regex_error"⟩), .resetFailed])
    obtain ⟨i, hi, -⟩ := hclaim x (reaches_after (by decide)) (.value false) (by decide)
    have hnone : x.1.ext.server.body.server = none := by decide
    rw [hnone] at hi
    cases hi

end ThreadComponent
