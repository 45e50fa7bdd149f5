import ThreadComponent.History
import ThreadComponent.HttpHeaders
import ThreadComponent.HttpRequests
import ThreadComponent.KeyedTable

/-!
# The route tables of cHTTPServer and cHTTPSServer

`addResource` and `setDefaultResource` check their arguments and that the server is not running,
and have one section of the mutex in which they change their table. `preRun` copies the tables and
writes the copies into the maps of the server object that it has made. The library compiles each
regex there, and throws for one that it does not accept. Allocations do not throw.
-/

set_option autoImplicit false
set_option linter.unusedSectionVars false

namespace ThreadComponent

open Transitions System KeyedTable

def normalizeMethod (method : String) : String :=
  String.ofList ((trimCopy method.toList).map Char.toUpper)

/-- Do two texts differ only in letter case and in the white space around them? -/
def SameMethod (lhs rhs : String) : Prop :=
  (trimCopy lhs.toList).map Char.toLower = (trimCopy rhs.toList).map Char.toLower

structure Route (H : Type) where
  pathRegex : String
  method : String
  handler : H

/-- The members that `addResource`, `setDefaultResource` and `setErrorHandler` write. -/
structure Routes (H E : Type) where
  resources : List (Route H) := []
  defaultResources : List (Route H) := []
  errorHandler : Option E := none

/-- `find_if`, and then an assignment to the handler or a `push_back`. -/
def storeRoute {H : Type} (isRoute : Route H → Bool) (route : Route H)
    (routes : List (Route H)) : List (Route H) :=
  match routes.findIdx? isRoute with
  | some i => routes.modify i fun found => { found with handler := route.handler }
  | none => routes ++ [route]

/-- The arguments of an accepted call; a default resource has no regex. -/
structure RouteCall (H : Type) where
  table : RouteTable
  pathRegex : String
  method : String
  handler : H

namespace Routes
variable {H E : Type}

/-- The locked section of `addResource` and of `setDefaultResource`. -/
def store (x : Routes H E) (call : RouteCall H) : Routes H E :=
  let normalizedMethod := normalizeMethod call.method
  match call.table with
  | .resource =>
    { x with
      resources := storeRoute
        (fun route => route.pathRegex = call.pathRegex && route.method = normalizedMethod)
        ⟨call.pathRegex, normalizedMethod, call.handler⟩ x.resources }
  | .defaultResource =>
    { x with
      defaultResources := storeRoute (fun route => route.method = normalizedMethod)
        ⟨"", normalizedMethod, call.handler⟩ x.defaultResources }

end Routes

/-! ## The server object -/

abbrev Closure (Request : Type) := Request → String → Handled

/-- `resource` and `default_resource` of a server object. -/
structure ServerRoutes (Request : Type) where
  resource : String → Option (String → Option (Closure Request)) := fun _ => none
  defaultResource : String → Option (Closure Request) := fun _ => none

abbrev RequestRoutes (Request : Type) :=
  Routes (RequestHandler Request) (RequestErrorHandler Request)

section Install
variable {Request : Type} (kind : HttpKind) (regexError : String → Option Failure)

/-- The first loop of `preRun`, with the exception that ends it. -/
def installResources (errorHandler : Option (RequestErrorHandler Request)) :
    List (Route (RequestHandler Request)) → ServerRoutes Request →
      ServerRoutes Request × Option Failure
  | [], x => (x, none)
  | route :: rest, x =>
    match regexError route.pathRegex with
    | some error => (x, some error)
    | none =>
      installResources errorHandler rest
        { x with
          resource := assignAt x.resource route.pathRegex route.method
            (preRunWrapper kind .resource route.handler errorHandler) }

def installDefaults (errorHandler : Option (RequestErrorHandler Request))
    (routes : List (Route (RequestHandler Request))) (x : ServerRoutes Request) :
    ServerRoutes Request :=
  routes.foldl (fun x route =>
    { x with
      defaultResource := assign x.defaultResource route.method
        (preRunWrapper kind .defaultResource route.handler errorHandler) }) x

/-- Both loops, over the copies of the tables. -/
def installRoutes (copies : RequestRoutes Request) (x : ServerRoutes Request) :
    ServerRoutes Request × Option Failure :=
  match installResources kind regexError copies.errorHandler copies.resources x with
  | (x, some error) => (x, some error)
  | (x, none) => (installDefaults kind copies.errorHandler copies.defaultResources x, none)

end Install

/-! ## The server -/

/-- A thread in a call that changes the routes: in front of its section, or back from it. -/
inductive RoutePc (H E : Type) where
  | idle
  | store (call : RouteCall H)
  | returned (result : Bool)
  | setErrorHandler (handler : Option E)

def RoutePc.free {H E : Type} : RoutePc H E → Bool
  | .store _ | .setErrorHandler _ => false
  | _ => true

abbrev RequestRoutePc (Request : Type) :=
  RoutePc (RequestHandler Request) (RequestErrorHandler Request)

structure RoutedServer (C Request : Type) where
  server : HttpServer C (ServerV1 C)
  routes : RequestRoutes Request := {}
  /-- What `preRun` has copied. -/
  copies : RequestRoutes Request := {}
  /-- What is installed in each server object. -/
  installed : Nat → ServerRoutes Request := fun _ => {}
  caller : C → RequestRoutePc Request := fun _ => .idle

inductive RouteAction (C Request : Type) where
  | server (a : HttpAction C (ServerAction C))
  | addResource (c : C) (pathRegex method : String) (handler : Option (RequestHandler Request))
  | setDefaultResource (c : C) (method : String) (handler : Option (RequestHandler Request))
  | storeRoute (c : C)
  | setErrorHandler (c : C) (handler : Option (RequestErrorHandler Request))
  | storeErrorHandler (c : C)

namespace RoutedServer
variable {C Request : Type} [DecidableEq C]

def setCaller (o : RoutedServer C Request) (c : C) (p : RequestRoutePc Request) :
    RoutedServer C Request :=
  { o with caller := Function.update o.caller c p }

def free (s : BaseWorker C) (o : RoutedServer C Request) (c : C) : Bool :=
  (s.caller c).free && (o.server.starter c).free && (o.caller c).free

/-- The checks in front of the section; an empty `std::function` is `none`. -/
def check (s : BaseWorker C) (o : RoutedServer C Request) (c : C) (badRegex : Bool)
    (table : RouteTable) (pathRegex method : String) (handler : Option (RequestHandler Request)) :
    RoutedServer C Request :=
  match handler with
  | some handler =>
    if badRegex || normalizeMethod method = "" || s.isRunning then
      o.setCaller c (.returned false)
    else o.setCaller c (.store ⟨table, pathRegex, method, handler⟩)
  | none => o.setCaller c (.returned false)

/-- What the steps of the server do to the routes, before its own members change. -/
def follow (kind : HttpKind) (regexError : String → Option Failure) (o : RoutedServer C Request) :
    HttpAction C (ServerAction C) → Option (RoutedServer C Request)
  | .startThread c _ => if (o.caller c).free then some o else none
  | .body .readConfiguration => some { o with copies := o.routes }
  | .body (.makeServer none) =>
    some { o with installed := Function.update o.installed o.server.body.made {} }
  | .body (.addResources failure) =>
    match o.server.body.server with
    | some i =>
      if failure = (installRoutes kind regexError o.copies (o.installed i)).2 then
        some { o with
          installed := Function.update o.installed i
            (installRoutes kind regexError o.copies (o.installed i)).1 }
      else none
    | none => none
  | _ => some o

end RoutedServer

def routedServer (C Request : Type) [DecidableEq C] (kind : HttpKind)
    (regexError : String → Option Failure) :
    Derived C (RoutedServer C Request) (RouteAction C Request) where
  init := { server := (ServerV1.body kind).derived.init }
  sync s a o :=
    match a with
    | .call c _ =>
      if (o.caller c).free then
        ((ServerV1.body kind).derived.sync s a o.server).map fun server =>
          { o with server := server }
      else none
    | _ =>
      ((ServerV1.body kind).derived.sync s a o.server).map fun server => { o with server := server }
  own s o
    | .server a =>
      (o.follow kind regexError a).bind fun o' =>
        ((ServerV1.body kind).derived.own s o.server a).map fun server =>
          { o' with server := server }
    | .addResource c pathRegex method handler =>
      if RoutedServer.free s o c then
        some (o.check s c (pathRegex = "") .resource pathRegex method handler)
      else none
    | .setDefaultResource c method handler =>
      if RoutedServer.free s o c then
        some (o.check s c false .defaultResource "" method handler)
      else none
    | .storeRoute c =>
      match o.caller c with
      | .store call =>
        some ({ o with routes := o.routes.store call }.setCaller c (.returned true))
      | _ => none
    | .setErrorHandler c handler =>
      if RoutedServer.free s o c then
        some (if s.isRunning then o else o.setCaller c (.setErrorHandler handler))
      else none
    | .storeErrorHandler c =>
      match o.caller c with
      | .setErrorHandler handler =>
        some ({ o with routes := { o.routes with errorHandler := handler } }.setCaller c .idle)
      | _ => none

end ThreadComponent
