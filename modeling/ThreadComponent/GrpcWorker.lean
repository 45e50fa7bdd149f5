import ThreadComponent.DerivedWorker

/-!
# cGenericGrpcWorker

`preRun` builds a completion queue and a server, `run` drives the queue until it is shut down
and drained, and the stop hook shuts down the server and then the queue. Queues have the
number of the `preRun` that made them, and a server that of its queue. What gRPC does in
between are actions of its own: it receives an RPC, fails a request after the server's
shutdown and completes a `Finish`, each once; `Server::Shutdown` returns when every received
RPC has finished. Allocations do not throw.
-/

set_option autoImplicit false
set_option linter.unusedSectionVars false

namespace ThreadComponent

open Transitions System

inductive GrpcCaller (C : Type) where
  | user (c : C)
  | run
  | destructor
  deriving DecidableEq, Repr

/-- What a catch clause gets: a `std::exception` with its text, or anything else. -/
inductive Thrown where
  | exception (what : String)
  | other
  deriving DecidableEq, Repr

/-- `m_lastError` after an exception in `preRun`. -/
def Thrown.startupError : Thrown → String
  | .exception what => "gRPC server startup failed: " ++ what
  | .other => "gRPC server startup failed: unknown exception"

/-- `grpc::Status`, with the number of its `grpc::StatusCode`. -/
structure GrpcStatus where
  code : Nat
  message : String
  deriving DecidableEq, Repr

inductive ExecuteEnd where
  | status (reply : GrpcStatus)
  | threw (e : Thrown)
  deriving DecidableEq, Repr

/-- The status that `Proceed` hands to `Finish`; `INTERNAL` is 13. -/
def ExecuteEnd.toStatus : ExecuteEnd → GrpcStatus
  | .status reply => reply
  | .threw (.exception what) => ⟨13, "Unhandled exception in OnExecuteRpc: " ++ what⟩
  | .threw .other => ⟨13, "Unhandled exception in OnExecuteRpc"⟩

inductive BuildResult where
  | started (selectedPort : Nat)
  | null
  | threw (e : Thrown)
  deriving DecidableEq, Repr

inductive RpcStatus where
  | create
  | process
  | finish
  deriving DecidableEq, Repr

/-- An object that `new CallData` has made; its address, the tag of its operations, is its
number. -/
structure CallData where
  /-- `m_cq` -/
  queue : Nat := 0
  mStatus : RpcStatus := .create
  /-- What was handed to `Finish`. -/
  reply : Option GrpcStatus := none
  /-- Number of times that the object was deleted. -/
  deleted : Nat := 0
  deriving DecidableEq, Repr

inductive OpKind where
  | request
  | finish
  deriving DecidableEq, Repr

/-- An operation that was submitted and whose event was not handed out yet. -/
structure GrpcOp where
  tag : Nat
  queue : Nat
  kind : OpKind
  /-- The `ok` of its event, when it has completed. -/
  ready : Option Bool := none
  deriving DecidableEq, Repr

structure CompletionQueue where
  shutdown : Bool := false
  /-- `run` has received its SHUTDOWN event. -/
  drained : Bool := false
  destroyed : Bool := false
  /-- An operation was submitted behind the shutdown. -/
  late : Bool := false
  deriving DecidableEq, Repr

structure GrpcServer where
  shutdown : Bool := false
  destroyed : Bool := false
  /-- The tags of the RPCs that were received and have not finished. -/
  received : List Nat := []
  deriving DecidableEq, Repr

inductive GrpcHook where
  | idle
  | builder
  | addCompletionQueue
  | buildAndStart
  | storePort (selectedPort : Nat)
  | preRunDone (e : HookEnd)
  | arm
  | next
  | event (tag : Nat) (ok : Bool)
  | continueRunning (tag : Nat)
  | rearm (tag : Nat)
  | execute (tag : Nat)
  | requestStop (tag : Nat)
  | finish (tag : Nat) (status : GrpcStatus)
  | runDone (e : HookEnd)
  deriving DecidableEq, Repr

inductive GrpcStop where
  | idle
  | server
  | wait (server : Nat)
  | queue
  | done
  deriving DecidableEq, Repr

inductive GrpcDestructor where
  | idle
  | stopThread
  | server
  | queue
  | base
  | inBase
  deriving DecidableEq, Repr

structure GrpcWorker (C : Type) where
  mLastError : String := ""
  mBoundPort : Nat := 0
  mCq : Option Nat := none
  mServer : Option Nat := none
  /-- Number of queues made so far. -/
  queues : Nat := 0
  queue : Nat → CompletionQueue := fun _ => {}
  server : Nat → GrpcServer := fun _ => {}
  /-- Number of CallData objects made so far. -/
  allocated : Nat := 0
  call : Nat → CallData := fun _ => {}
  ops : List GrpcOp := []
  hook : GrpcHook := .idle
  stop : GrpcCaller C → GrpcStop := fun _ => .idle
  destructor : GrpcDestructor := .idle

inductive GrpcAction (C : Type) where
  | builder (failure : Option Thrown)
  | addCompletionQueue (failure : Option Thrown)
  | buildAndStart (r : BuildResult)
  | storePort
  | arm
  | timeout
  | shutdown
  | event (op : GrpcOp)
  | dispatch
  | continueRunning
  | rearm
  | executed (r : ExecuteEnd)
  | executeStopped
  | finish
  | receive (op : GrpcOp)
  | failRequest (op : GrpcOp)
  | finished (op : GrpcOp) (ok : Bool)
  | stopServer (c : GrpcCaller C)
  | stopWait (c : GrpcCaller C)
  | stopQueue (c : GrpcCaller C)
  | destructorStopped
  | destroyServer
  | destroyQueue
  deriving DecidableEq, Repr

namespace GrpcWorker
variable {C : Type} [DecidableEq C]

def setHook (o : GrpcWorker C) (hook : GrpcHook) : GrpcWorker C := { o with hook := hook }

def setStop (o : GrpcWorker C) (c : GrpcCaller C) (p : GrpcStop) : GrpcWorker C :=
  { o with stop := Function.update o.stop c p }

def setQueue (o : GrpcWorker C) (q : Nat) (x : CompletionQueue) : GrpcWorker C :=
  { o with queue := Function.update o.queue q x }

def setServer (o : GrpcWorker C) (i : Nat) (x : GrpcServer) : GrpcWorker C :=
  { o with server := Function.update o.server i x }

def setCall (o : GrpcWorker C) (tag : Nat) (x : CallData) : GrpcWorker C :=
  { o with call := Function.update o.call tag x }

/-- Who may call which member function of cBaseWorker_V2, and from where. `OnExecuteRpc` may
stop its own worker. -/
def calls (o : GrpcWorker C) : GrpcCaller C → Call → Option (GrpcWorker C)
  | .user _, k => if k ≠ .destructor then some o else none
  | .run, k =>
    match o.hook with
    | .execute tag => if k = .requestStop then some (o.setHook (.requestStop tag)) else none
    | _ => none
  | .destructor, k =>
    match o.destructor with
    | .idle => if k = .stopThread true then some { o with destructor := .stopThread } else none
    | .base => if k = .destructor then some { o with destructor := .inBase } else none
    | _ => none

def sync (s : BaseWorker (GrpcCaller C)) (a : BaseAction (GrpcCaller C)) (o : GrpcWorker C) :
    Option (GrpcWorker C) :=
  match a with
  | .call c k => o.calls c k
  | .preRunBegin _ => some (o.setHook .builder)
  | .preRunEnd _ e => if o.hook = .preRunDone e then some (o.setHook .idle) else none
  | .setRunning _ => some (o.setHook .arm)
  | .runEnd _ e => if o.hook = .runDone e then some (o.setHook .idle) else none
  | .stopSection c =>
    -- in the destructor of the base class the hook is the empty one again
    some (if s.mState.shouldTriggerStop then
        o.setStop c (if c = .destructor ∧ o.destructor = .inBase then .done else .server)
      else o)
  | .stopTriggeredEnd c => if o.stop c = .done then some (o.setStop c .idle) else none
  | _ => some o

/-! ## preRun -/

def destroyQueue (o : GrpcWorker C) : GrpcWorker C :=
  match o.mCq with
  | some q => { o with mCq := none }.setQueue q { o.queue q with destroyed := true }
  | none => o

/-- The server that `m_server` has pointed to is destroyed; its destructor shuts it down. -/
def destroyServer (o : GrpcWorker C) : GrpcWorker C :=
  match o.mServer with
  | some i =>
    { o with mServer := none }.setServer i
      { o.server i with shutdown := true, destroyed := true }
  | none => o

/-- `preRun` ends in one of its catch clauses. -/
def startupFailed (o : GrpcWorker C) (e : Thrown) : GrpcWorker C :=
  { o with mLastError := e.startupError, hook := .preRunDone (.value false) }

def addCompletionQueue (o : GrpcWorker C) : GrpcWorker C :=
  { o.destroyQueue with
    mCq := some o.queues, queues := o.queues + 1, hook := .buildAndStart }

def preRun (o : GrpcWorker C) : GrpcAction C → Option (GrpcWorker C)
  | .builder failure =>
    if o.hook = .builder then
      some (match failure with
        | none => o.setHook .addCompletionQueue
        | some e => o.startupFailed e)
    else none
  | .addCompletionQueue failure =>
    if o.hook = .addCompletionQueue then
      some (match failure with
        | none => o.addCompletionQueue
        | some e => o.startupFailed e)
    else none
  | .buildAndStart r =>
    if o.hook = .buildAndStart then
      some (match r with
        | .started selectedPort =>
          { o.destroyServer with
            mServer := some (o.queues - 1), hook := .storePort selectedPort }
        | .null =>
          { o.destroyServer with
            mLastError := "BuildAndStart() returned a null server"
            hook := .preRunDone (.value false) }
        | .threw e => o.startupFailed e)
    else none
  | .storePort =>
    match o.hook with
    | .storePort selectedPort =>
      some { o with
        mBoundPort := selectedPort, mLastError := "", hook := .preRunDone (.value true) }
    | _ => none
  | _ => none

/-! ## run and CallData -/

def submit (o : GrpcWorker C) (op : GrpcOp) : GrpcWorker C :=
  { o with ops := o.ops ++ [op] }.setQueue op.queue
    { o.queue op.queue with late := (o.queue op.queue).late || (o.queue op.queue).shutdown }

/-- `Proceed` in the status CREATE. -/
def armCall (o : GrpcWorker C) (tag : Nat) : GrpcWorker C :=
  (o.setCall tag { o.call tag with mStatus := .process }).submit
    { tag := tag, queue := (o.call tag).queue, kind := .request }

/-- `new CallData(m_service, q, m_parentWorker)` -/
def newCall (o : GrpcWorker C) (q : Nat) : GrpcWorker C :=
  ({ o with allocated := o.allocated + 1 }.setCall o.allocated { queue := q }).armCall o.allocated

def deleteCall (o : GrpcWorker C) (tag : Nat) : GrpcWorker C :=
  o.setCall tag { o.call tag with deleted := (o.call tag).deleted + 1 }

/-- `m_responder.Finish(m_reply, status, this)` -/
def finishCall (o : GrpcWorker C) (tag : Nat) (status : GrpcStatus) : GrpcWorker C :=
  (o.setCall tag { o.call tag with mStatus := .finish, reply := some status }).submit
    { tag := tag, queue := (o.call tag).queue, kind := .finish }

/-- `Proceed`, up to its first access that other threads can see. -/
def proceed (o : GrpcWorker C) (tag : Nat) : GrpcWorker C :=
  match (o.call tag).mStatus with
  | .create => (o.armCall tag).setHook .next
  | .process => o.setHook (.continueRunning tag)
  | .finish => (o.deleteCall tag).setHook .next

def run (s : BaseWorker (GrpcCaller C)) (o : GrpcWorker C) :
    GrpcAction C → Option (GrpcWorker C)
  | .arm =>
    match o.hook, o.mCq with
    | .arm, some q => some ((o.newCall q).setHook .next)
    | _, _ => none
  | .timeout => if o.hook = .next ∧ o.mCq ≠ none then some o else none
  | .shutdown =>
    match o.hook, o.mCq with
    | .next, some q =>
      if (o.queue q).shutdown = true ∧ ∀ op ∈ o.ops, op.queue ≠ q then
        some ((o.setQueue q { o.queue q with drained := true }).setHook (.runDone (.value true)))
      else none
    | _, _ => none
  | .event op =>
    match o.hook, o.mCq, op.ready with
    | .next, some q, some ok =>
      if op ∈ o.ops ∧ op.queue = q then
        some ({ o with ops := o.ops.erase op }.setHook (.event op.tag ok))
      else none
    | _, _, _ => none
  | .dispatch =>
    match o.hook with
    | .event tag ok => some (if ok then o.proceed tag else (o.deleteCall tag).setHook .next)
    | _ => none
  | .continueRunning =>
    match o.hook with
    | .continueRunning tag =>
      some (o.setHook (if s.stopRequested then .execute tag else .rearm tag))
    | _ => none
  | .rearm =>
    match o.hook with
    | .rearm tag => some ((o.newCall (o.call tag).queue).setHook (.execute tag))
    | _ => none
  | .executed r =>
    match o.hook with
    | .execute tag => some (o.setHook (.finish tag r.toStatus))
    | _ => none
  | .executeStopped =>
    match o.hook, s.caller .run with
    | .requestStop tag, .returned _ _ => some (o.setHook (.execute tag))
    | _, _ => none
  | .finish =>
    match o.hook with
    | .finish tag status => some ((o.finishCall tag status).setHook .next)
    | _ => none
  | _ => none

/-! ## gRPC -/

def complete (o : GrpcWorker C) (op : GrpcOp) (ok : Bool) : GrpcWorker C :=
  { o with ops := { op with ready := some ok } :: o.ops.erase op }

def grpc (o : GrpcWorker C) : GrpcAction C → Option (GrpcWorker C)
  | .receive op =>
    if op ∈ o.ops ∧ op.kind = .request ∧ op.ready = none ∧
        (o.server op.queue).shutdown = false then
      some ((o.complete op true).setServer op.queue
        { o.server op.queue with received := op.tag :: (o.server op.queue).received })
    else none
  | .failRequest op =>
    if op ∈ o.ops ∧ op.kind = .request ∧ op.ready = none ∧
        (o.server op.queue).shutdown = true then
      some (o.complete op false)
    else none
  | .finished op ok =>
    if op ∈ o.ops ∧ op.kind = .finish ∧ op.ready = none then
      some ((o.complete op ok).setServer op.queue
        { o.server op.queue with received := (o.server op.queue).received.erase op.tag })
    else none
  | _ => none

/-! ## stopTriggered and the destructor -/

def stopTriggered (o : GrpcWorker C) : GrpcAction C → Option (GrpcWorker C)
  | .stopServer c =>
    if o.stop c = .server then
      some (match o.mServer with
        | some i => (o.setServer i { o.server i with shutdown := true }).setStop c (.wait i)
        | none => o.setStop c .queue)
    else none
  | .stopWait c =>
    match o.stop c with
    | .wait i => if (o.server i).received = [] then some (o.setStop c .queue) else none
    | _ => none
  | .stopQueue c =>
    if o.stop c = .queue then
      some (match o.mCq with
        | some q => (o.setQueue q { o.queue q with shutdown := true }).setStop c .done
        | none => o.setStop c .done)
    else none
  | _ => none

def destroy (s : BaseWorker (GrpcCaller C)) (o : GrpcWorker C) :
    GrpcAction C → Option (GrpcWorker C)
  | .destructorStopped =>
    match o.destructor, s.caller .destructor with
    | .stopThread, .returned _ _ => some { o with destructor := .server }
    | _, _ => none
  | .destroyServer =>
    if o.destructor = .server then some { o.destroyServer with destructor := .queue } else none
  | .destroyQueue =>
    if o.destructor = .queue then some { o.destroyQueue with destructor := .base } else none
  | _ => none

def own (s : BaseWorker (GrpcCaller C)) (o : GrpcWorker C) (a : GrpcAction C) :
    Option (GrpcWorker C) :=
  o.preRun a <|> run s o a <|> o.grpc a <|> o.stopTriggered a <|> destroy s o a

end GrpcWorker

def cGenericGrpcWorker (C : Type) [DecidableEq C] :
    Derived (GrpcCaller C) (GrpcWorker C) (GrpcAction C) where
  init := {}
  sync := GrpcWorker.sync
  own := GrpcWorker.own

end ThreadComponent
