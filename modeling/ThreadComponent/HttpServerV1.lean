import ThreadComponent.HttpStart

/-!
# cHTTPServer and cHTTPSServer

The two classes differ in their messages, in the type of the server object and in that
cHTTPSServer wants a certificate and a private key. A server object is made by each
`preRun`, started by `run` and destroyed at the end of it; `start` may throw at any
time, report its port once and return whenever it likes.
-/

set_option autoImplicit false
set_option linter.unusedSectionVars false

namespace ThreadComponent

open Transitions System

inductive HttpKind where
  | http
  | https
  deriving DecidableEq, Repr

def HttpKind.name : HttpKind → String
  | .http => "HTTP"
  | .https => "HTTPS"

/-- An exception as a handler of the form `catch (const std::exception &)`,
`catch (...)` sees it: what it says, if it is a standard one. -/
structure Failure where
  exception : Nat
  what : Option String
  deriving DecidableEq, Repr

def Failure.message (f : Failure) (unknown : String) : String := f.what.getD unknown

inductive ServerHook where
  | idle
  | preRun
  | makeServer
  | addResources
  | resetFailed
  | preRunDone (e : HookEnd)
  | run
  | serverStart (server : Nat) (reported : Bool)
  | serverReturned
  | resetServer
  | runDone (e : HookEnd)
  deriving DecidableEq, Repr

inductive ServerStop where
  | idle
  | getServer
  | stopServer (server : Nat)
  | resolveStart
  | done
  deriving DecidableEq, Repr

structure ServerV1 (C : Type) where
  /-- `m_impl->server`; server objects are numbered in the order in which they are made. -/
  server : Option Nat := none
  made : Nat := 0
  certificateFile : String := ""
  privateKeyFile : String := ""
  hook : ServerHook := .idle
  stop : C → ServerStop := fun _ => .idle

inductive ServerAction (C : Type) where
  | setCertificateFiles (certificateFile privateKeyFile : String)
  | readConfiguration
  | makeServer (failure : Option Failure)
  | addResources (failure : Option Failure)
  | resetFailed
  | getServer
  | listening (port : Nat)
  | startReturns
  | startThrows (failure : Failure)
  | resolveExited
  | resetServer
  | handlerError (message : String)
  | stopGetServer (c : C)
  | stopServer (c : C)
  | stopResolve (c : C)
  deriving DecidableEq, Repr

namespace ServerV1
variable {C : Type} [DecidableEq C]

def setStop (x : ServerV1 C) (c : C) (p : ServerStop) : ServerV1 C :=
  { x with stop := Function.update x.stop c p }

/-- The hooks' boundaries. -/
def sync (s : BaseWorker C) (a : BaseAction C) (x : ServerV1 C) : Option (ServerV1 C) :=
  match a with
  | .preRunBegin _ => some { x with hook := .preRun }
  | .preRunEnd _ e => if x.hook = .preRunDone e then some { x with hook := .idle } else none
  | .setRunning _ => some { x with hook := .run }
  | .runEnd _ e => if x.hook = .runDone e then some { x with hook := .idle } else none
  | .stopSection c =>
    some (if s.mState.shouldTriggerStop then x.setStop c .getServer else x)
  | .stopTriggeredEnd c => if x.stop c = .done then some (x.setStop c .idle) else none
  | _ => some x

/-- The handlers around `preRun`: an exception resolves the start and goes on to reset
the server pointer. -/
def preRunFailed (kind : HttpKind) (x : ServerV1 C) (f : Failure) :
    ServerV1 C × Option StartEvent :=
  ({ x with hook := .resetFailed },
    some (.resolveStartIfPending false 0
      (f.message ("Failed to initialize " ++ kind.name ++ " server"))))

/-- `resolveStartIfPending(false, 0, ...)` of the hooks, with the place reached by it. -/
def resolveFailure (x : ServerV1 C) (hook : ServerHook) (errorMessage : String) :
    ServerV1 C × Option StartEvent :=
  ({ x with hook := hook }, some (.resolveStartIfPending false 0 errorMessage))

def own (kind : HttpKind) (s : BaseWorker C) (x : ServerV1 C) :
    ServerAction C → Option (ServerV1 C × Option StartEvent)
  | .setCertificateFiles certificateFile privateKeyFile =>
    if s.isRunning then some (x, none)
    else some ({ x with certificateFile, privateKeyFile }, none)
  | .readConfiguration =>
    if x.hook = .preRun then
      if kind = .https ∧ (x.certificateFile.isEmpty ∨ x.privateKeyFile.isEmpty) then
        some (x.resolveFailure (.preRunDone (.value false))
          "HTTPS server requires certificate and private key files")
      else some ({ x with hook := .makeServer }, none)
    else none
  | .makeServer failure =>
    if x.hook = .makeServer then
      match failure with
      | none =>
        some ({ x with server := some x.made, made := x.made + 1, hook := .addResources }, none)
      | some f => some (x.preRunFailed kind f)
    else none
  | .addResources failure =>
    if x.hook = .addResources then
      match failure with
      | none => some ({ x with hook := .preRunDone (.value true) }, none)
      | some f => some (x.preRunFailed kind f)
    else none
  | .resetFailed =>
    if x.hook = .resetFailed then
      some ({ x with server := none, hook := .preRunDone (.value false) }, none)
    else none
  | .getServer =>
    if x.hook = .run then
      match x.server with
      | some i => some ({ x with hook := .serverStart i false }, none)
      | none =>
        some (x.resolveFailure (.runDone (.value true))
          (kind.name ++ " server is not initialized"))
    else none
  | .listening port =>
    match x.hook with
    | .serverStart i false =>
      some ({ x with hook := .serverStart i true },
        some (.resolveStartIfPending true port ""))
    | _ => none
  | .startReturns =>
    match x.hook with
    | .serverStart _ _ => some ({ x with hook := .serverReturned }, none)
    | _ => none
  | .startThrows f =>
    match x.hook with
    | .serverStart _ _ =>
      some (x.resolveFailure (.runDone (.threw f.exception))
        (f.message ("Unhandled " ++ kind.name ++ " server exception")))
    | _ => none
  | .resolveExited =>
    if x.hook = .serverReturned then
      some (x.resolveFailure .resetServer
        (if s.stopRequested then kind.name ++ " server stopped"
         else kind.name ++ " server exited unexpectedly"))
    else none
  | .resetServer =>
    if x.hook = .resetServer then
      some ({ x with server := none, hook := .runDone (.value true) }, none)
    else none
  | .handlerError message =>
    match x.hook with
    | .serverStart _ _ => some (x, some (.setLastError message))
    | _ => none
  | .stopGetServer c =>
    if x.stop c = .getServer then
      some (x.setStop c (match x.server with
        | some i => .stopServer i
        | none => .resolveStart), none)
    else none
  | .stopServer c =>
    match x.stop c with
    | .stopServer _ => some (x.setStop c .resolveStart, none)
    | _ => none
  | .stopResolve c =>
    if x.stop c = .resolveStart then
      some (x.setStop c .done,
        some (.resolveStartIfPending false 0 (kind.name ++ " server stop requested")))
    else none

def body (kind : HttpKind) : HttpBody C (ServerV1 C) (ServerAction C) where
  init := {}
  sync := sync
  own := own kind

end ServerV1

variable (C : Type) [DecidableEq C]

def cHTTPServer : Derived C (HttpServer C (ServerV1 C)) (HttpAction C (ServerAction C)) :=
  (ServerV1.body .http).derived

def cHTTPSServer : Derived C (HttpServer C (ServerV1 C)) (HttpAction C (ServerAction C)) :=
  (ServerV1.body .https).derived

end ThreadComponent
