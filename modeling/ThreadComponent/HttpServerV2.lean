import ThreadComponent.HttpServerV1

/-!
# cHTTPServer_V2 and cHTTPSServer_V2

The server object is a member, configured by the user before the first start. `preRun`
makes an io_context for the run and wraps the user's error handler; `run` starts the
server on that io_context, runs it on this thread and on helper threads, and undoes
what `preRun` has installed. The two classes are the same but for their messages.
-/

set_option autoImplicit false
set_option linter.unusedSectionVars false

namespace ThreadComponent

open Transitions System

/-- What `server().on_error` or `m_userOnError` can hold: nothing, a handler of the
user or the closure that `preRun` makes. -/
inductive ErrorHandler (H : Type) where
  | empty
  | user (h : H)
  | wrapper
  deriving DecidableEq, Repr

/-- The user's own handler, if there is one. -/
def ErrorHandler.stored {H : Type} : Option H → ErrorHandler H
  | some h => .user h
  | none => .empty

/-- The threads that call member functions: those of the user, and the threads inside
`runIo`, numbered in the order in which they enter it. -/
inductive HttpCaller (C : Type) where
  | user (c : C)
  | io (i : Nat)
  deriving DecidableEq, Repr

/-- A thread inside `runIo`. -/
inductive IoPc where
  | absent
  | running (io : Nat)
  | requestStop
  | stopping
  | exited
  deriving DecidableEq, Repr

inductive ServerHookV2 where
  | idle
  | preRun
  | preRunDone (e : HookEnd)
  | run
  | processWork
  | createThreads (io : Nat)
  | runIo (i : Nat)
  | joining (threads : List Nat)
  | resolveExited
  | cleanUp
  | runDone (e : HookEnd)
  deriving DecidableEq, Repr

inductive ServerStopV2 where
  | idle
  | getIo
  | stopServer
  | resolveStart
  | done
  deriving DecidableEq, Repr

structure ServerV2 (C H : Type) where
  /-- `m_io`; io_contexts are numbered in the order in which they are made. -/
  mIo : Option Nat := none
  made : Nat := 0
  /-- `m_server.io_service` -/
  ioService : Option Nat := none
  /-- `m_server.on_error` -/
  onError : ErrorHandler H := .empty
  mUserOnError : ErrorHandler H := .empty
  mIoThreadCount : Nat := 1
  mIoThreads : List Nat := []
  io : Nat → IoPc := fun _ => .absent
  /-- Number of threads that have entered `runIo` so far. -/
  entered : Nat := 0
  /-- The call of the listening callback that `start` has posted to an io_context. -/
  posted : Nat → Option Nat := fun _ => none
  hook : ServerHookV2 := .idle
  stop : HttpCaller C → ServerStopV2 := fun _ => .idle
  /-- `std::terminate` was called: a joinable thread was destroyed. -/
  terminated : Bool := false

inductive ServerActionV2 (C : Type) where
  | setIOThreadCount (n : Nat)
  | preRun
  | preRunFails (stored : Bool) (failure : Failure)
  | serverStarts (port : Nat)
  | startThrows (failure : Failure)
  | getIo
  | createThreads
  | createThreadsFails (created : Nat) (failure : Failure)
  | listening (i : Nat)
  | onError (i : Nat) (message : String)
  | ioReturns (i : Nat)
  | ioThrows (i : Nat) (what : Option String)
  | ioStopped (i : Nat)
  | swapThreads
  | joinThread
  | resolveExited
  | cleanUp
  | stopGetIo (c : HttpCaller C)
  | stopServer (c : HttpCaller C)
  | stopResolve (c : HttpCaller C)
  deriving DecidableEq, Repr

namespace ServerV2
variable {C H : Type} [DecidableEq C]

def setStop (x : ServerV2 C H) (c : HttpCaller C) (p : ServerStopV2) : ServerV2 C H :=
  { x with stop := Function.update x.stop c p }

def setIo (x : ServerV2 C H) (i : Nat) (p : IoPc) : ServerV2 C H :=
  { x with io := Function.update x.io i p }

def setHook (x : ServerV2 C H) (hook : ServerHookV2) : ServerV2 C H := { x with hook := hook }

/-- The hooks' boundaries; a thread inside `runIo` makes no call but the `requestStop`
that follows an exception. -/
def sync (s : BaseWorker (HttpCaller C)) (a : BaseAction (HttpCaller C))
    (x : ServerV2 C H) : Option (ServerV2 C H) :=
  match a with
  | .preRunBegin _ => some (x.setHook .preRun)
  | .preRunEnd _ e => if x.hook = .preRunDone e then some (x.setHook .idle) else none
  | .setRunning _ => some (x.setHook .run)
  | .runEnd _ e => if x.hook = .runDone e then some (x.setHook .idle) else none
  | .stopSection c =>
    some (if s.mState.shouldTriggerStop then x.setStop c .getIo else x)
  | .stopTriggeredEnd c => if x.stop c = .done then some (x.setStop c .idle) else none
  | .call (.io i) k =>
    if x.io i = .requestStop ∧ k = .requestStop then some (x.setIo i .stopping) else none
  | _ => some x

/-- The locked section of `preRun`. -/
def install (x : ServerV2 C H) : ServerV2 C H :=
  { x with
    mIo := some x.made
    made := x.made + 1
    mUserOnError := x.onError
    ioService := some x.made
    onError := .wrapper
    hook := .preRunDone (.value true) }

/-- The last locked section of `run`. -/
def cleanUp (x : ServerV2 C H) : ServerV2 C H :=
  { x with
    onError := x.mUserOnError
    ioService := none
    mUserOnError := .empty
    mIo := none
    hook := .runDone (.value true) }

def spawn (x : ServerV2 C H) (io n : Nat) : ServerV2 C H :=
  { x with
    io := fun i => if x.entered ≤ i ∧ i < x.entered + n then .running io else x.io i
    entered := x.entered + n }

/-- The locked section of `processWork`, as far as it has come when creating a thread
fails or all are there: `m_ioThreads.clear()` destroys what an earlier run has left. -/
def createThreads (x : ServerV2 C H) (io n : Nat) : ServerV2 C H :=
  { x.spawn io n with
    mIoThreads := (List.range n).map (x.entered + ·)
    terminated := x.terminated || !x.mIoThreads.isEmpty }

/-- The handlers of `run`: resolve the start and rethrow. -/
def runFails (kind : HttpKind) (x : ServerV2 C H) (f : Failure) :
    ServerV2 C H × Option StartEvent :=
  (x.setHook (.runDone (.threw f.exception)),
    some (.resolveStartIfPending false 0
      (f.message ("Unhandled " ++ kind.name ++ " server exception"))))

def own (kind : HttpKind) (s : BaseWorker (HttpCaller C)) (x : ServerV2 C H) :
    ServerActionV2 C → Option (ServerV2 C H × Option StartEvent)
  | .setIOThreadCount n =>
    if s.isRunning then some (x, none)
    else some ({ x with mIoThreadCount := if n = 0 then 1 else n }, none)
  | .preRun => if x.hook = .preRun then some (x.install, none) else none
  | .preRunFails stored f =>
    -- making the io_context fails, or copying the user's handler does
    if x.hook = .preRun then
      some ({ x with
          mIo := if stored then some x.made else x.mIo
          made := x.made + 1
          hook := .preRunDone (.value false) },
        some (.resolveStartIfPending false 0
          (f.message ("Failed to initialize " ++ kind.name ++ " server"))))
    else none
  | .serverStarts port =>
    if x.hook = .run then
      match x.ioService with
      | some io =>
        some ({ x with
            posted := Function.update x.posted io (some port), hook := .processWork }, none)
      | none => none
    else none
  | .startThrows f => if x.hook = .run then some (x.runFails kind f) else none
  | .getIo =>
    if x.hook = .processWork then
      match x.mIo with
      | some io => some (x.setHook (.createThreads io), none)
      | none => some (x.setHook .resolveExited, none)
    else none
  | .createThreads =>
    match x.hook with
    | .createThreads io =>
      -- the helper threads, and then this thread
      let y := x.createThreads io (x.mIoThreadCount - 1)
      some ((y.spawn io 1).setHook (.runIo y.entered), none)
    | _ => none
  | .createThreadsFails created f =>
    match x.hook with
    | .createThreads io =>
      if created < x.mIoThreadCount - 1 then
        some ((x.createThreads io created).runFails kind f)
      else none
    | _ => none
  | .listening i =>
    match x.io i with
    | .running io =>
      match x.posted io with
      | some port =>
        some ({ x with posted := Function.update x.posted io none },
          some (.resolveStartIfPending true port ""))
      | none => none
    | _ => none
  | .onError i message =>
    match x.io i with
    | .running _ =>
      some (x, match x.onError with
        | .wrapper => some (.setLastError message)
        | _ => none)
    | _ => none
  | .ioReturns i =>
    match x.io i with
    | .running _ => some (x.setIo i .exited, none)
    | _ => none
  | .ioThrows i what =>
    match x.io i with
    | .running _ =>
      some (x.setIo i .requestStop,
        some (.setLastError (what.getD "Unhandled io_context exception")))
    | _ => none
  | .ioStopped i =>
    match x.io i, s.caller (.io i) with
    | .stopping, .returned _ _ => some (x.setIo i .exited, none)
    | _, _ => none
  | .swapThreads =>
    match x.hook with
    | .runIo i =>
      if x.io i = .exited then
        some ({ x with mIoThreads := [], hook := .joining x.mIoThreads }, none)
      else none
    | _ => none
  | .joinThread =>
    match x.hook with
    | .joining [] => some (x.setHook .resolveExited, none)
    | .joining (i :: threads) =>
      if x.io i = .exited then some (x.setHook (.joining threads), none) else none
    | _ => none
  | .resolveExited =>
    if x.hook = .resolveExited then
      some (x.setHook .cleanUp, some (.resolveStartIfPending false 0
        (if s.stopRequested then kind.name ++ " server stopped"
         else kind.name ++ " server exited unexpectedly")))
    else none
  | .cleanUp => if x.hook = .cleanUp then some (x.cleanUp, none) else none
  | .stopGetIo c =>
    if x.stop c = .getIo then
      some (x.setStop c (if x.mIo = none then .stopServer else .resolveStart), none)
    else none
  | .stopServer c => if x.stop c = .stopServer then some (x.setStop c .done, none) else none
  | .stopResolve c =>
    -- the two handlers that stop the server have been posted to the io_context
    if x.stop c = .resolveStart then
      some (x.setStop c .done,
        some (.resolveStartIfPending false 0 (kind.name ++ " server stop requested")))
    else none

/-- The server whose user has stored `h` in `server().on_error`. -/
def body (kind : HttpKind) (h : Option H) :
    HttpBody (HttpCaller C) (ServerV2 C H) (ServerActionV2 C) where
  init := { onError := .stored h }
  sync := sync
  own := own kind

end ServerV2

variable (C : Type) {H : Type} [DecidableEq C]

def cHTTPServer_V2 (h : Option H) :
    Derived (HttpCaller C) (HttpServer (HttpCaller C) (ServerV2 C H))
      (HttpAction (HttpCaller C) (ServerActionV2 C)) :=
  (ServerV2.body .http h).derived

def cHTTPSServer_V2 (h : Option H) :
    Derived (HttpCaller C) (HttpServer (HttpCaller C) (ServerV2 C H))
      (HttpAction (HttpCaller C) (ServerActionV2 C)) :=
  (ServerV2.body .https h).derived

end ThreadComponent
