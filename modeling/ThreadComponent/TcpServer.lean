import ThreadComponent.DerivedWorker
import ThreadComponent.TcpSocket

/-!
# TCPServer_V2

`run` accepts clients and starts a session with a thread of its own for each. Sessions are
kept in `m_clients`; they leave it for the local list of `reapCompletedClients` or of
`joinAndClearAllClients`, which closes and joins them one after the other. One step is one
atomic access, one system call or one section of `m_clientsMutex`; `closeAllClientSockets`
is many steps, since the handlers go on while it holds the mutex. Sessions have the number
of the client descriptor that they are made for.
-/

set_option autoImplicit false
set_option linter.unusedSectionVars false

namespace ThreadComponent

open Transitions System

inductive TcpServerCaller (C : Type) where
  | user (c : C)
  | run
  | destructor
  deriving DecidableEq, Repr

inductive TcpServerHook where
  | idle
  | openSocket
  | storeSocket
  | bind
  | listen
  | exchange
  | close
  | preRunDone (e : HookEnd)
  | continueRunning
  | reapCompletedClients
  | reaping
  | load
  | accept (serverSocket : Nat)
  | interrupted
  | testStop
  | requestStop
  | stopping
  | makeClientInfo
  | startClientSession
  | closeSocketValue
  | joinAndClearAllClients
  | joining
  | exchangeServer
  | closeServer
  | runDone (e : HookEnd)
  deriving DecidableEq, Repr

/-- A thread inside `handleClient`. -/
inductive HandlerPc where
  | absent
  | entry
  | continueRunning
  | load
  | recv (clientSocket : Nat)
  | callback
  | exchange
  | close
  | complete
  | returning
  | exited
  deriving DecidableEq, Repr

/-- A thread inside `stopTriggered`; in `closeAllClientSockets` with the sessions that its
loop has yet to come to. -/
inductive TcpServerStop where
  | idle
  | exchange
  | close
  | lock
  | clients (todo : List Nat)
  | closeClient (todo : List Nat)
  | done
  deriving DecidableEq, Repr

inductive TcpServerDestructor where
  | idle
  | stopThread
  | exchange
  | close
  | joinAndClearAllClients
  | joining
  | base
  | inBase
  deriving DecidableEq, Repr

inductive AcceptResult where
  | accepted
  | interrupted
  | failed
  deriving DecidableEq, Repr

/-- How the locked section of `startClientSession` goes: `emplace_back` throws, the thread
is created, or creating the thread fails. -/
inductive SessionStart where
  | notAdded
  | created
  | notCreated
  deriving DecidableEq, Repr

/-- Who is in the loop of `reapCompletedClients` or `joinAndClearAllClients`. -/
inductive Joiner where
  | run
  | destructor
  deriving DecidableEq, Repr

inductive LoopPc where
  | exchange
  | close
  | join
  deriving DecidableEq, Repr

/-- The local list of sessions and the place of the loop over it. -/
structure ClientLoop where
  joined : List Nat := []
  todo : List Nat := []
  pc : LoopPc := .exchange
  deriving DecidableEq, Repr

/-- Where a client descriptor can be: in `socket` of its session, in the variable that
`accept` has filled, or in the hands of a thread that is about to close it. -/
inductive ClientPlace (T : Type) where
  | session (i : Nat)
  | accepted
  | handler (i : Nat)
  | joiner (j : Joiner)
  | stopper (c : T)
  deriving DecidableEq, Repr

/-- Client descriptors, numbered in the order in which `accept` has returned them. -/
structure ClientSockets (T : Type) where
  accepted : Nat := 0
  /-- Number of calls of `::close` on a descriptor. -/
  closed : Nat → Nat := fun _ => 0
  place : ClientPlace T → Option Nat := fun _ => none

namespace ClientSockets
variable {T : Type} [DecidableEq T]

def accept (x : ClientSockets T) : ClientSockets T :=
  { x with
    accepted := x.accepted + 1
    place := Function.update x.place .accepted (some x.accepted) }

/-- An exchange, or the initialisation of a session with the accepted descriptor. -/
def move (x : ClientSockets T) (h k : ClientPlace T) : ClientSockets T :=
  { x with place := Function.update (Function.update x.place h none) k (x.place h) }

def close (x : ClientSockets T) (k : ClientPlace T) : ClientSockets T :=
  match x.place k with
  | some i =>
    { x with
      closed := Function.update x.closed i (x.closed i + 1)
      place := Function.update x.place k none }
  | none => x

/-- `closeSocketValue` on a variable that keeps its value. -/
def closeCopy (x : ClientSockets T) (i : Nat) : ClientSockets T :=
  { x with closed := Function.update x.closed i (x.closed i + 1) }

/-- A variable goes out of scope with its value. -/
def drop (x : ClientSockets T) (k : ClientPlace T) : ClientSockets T :=
  { x with place := Function.update x.place k none }

end ClientSockets

/-- A node of `m_clients`; its descriptor is in `ClientSockets`. -/
structure Session where
  /-- `worker.joinable()` -/
  worker : Bool := false
  completed : Bool := false
  handler : HandlerPc := .absent
  destroyed : Bool := false
  deriving DecidableEq, Repr

structure TcpServer (C : Type) where
  /-- `m_serverSocket` -/
  socket : TcpSocket (TcpServerCaller C) := {}
  clients : ClientSockets (TcpServerCaller C) := {}
  session : Nat → Session := fun _ => {}
  mClients : List Nat := []
  /-- The thread that holds `m_clientsMutex` in `closeAllClientSockets`. -/
  mClientsMutex : Option (TcpServerCaller C) := none
  loop : Joiner → ClientLoop := fun _ => {}
  hook : TcpServerHook := .idle
  stop : TcpServerCaller C → TcpServerStop := fun _ => .idle
  destructor : TcpServerDestructor := .idle
  /-- `std::terminate` was called: a session was destroyed while its thread was joinable. -/
  terminated : Bool := false
  /-- The descriptor that the latest run has opened. -/
  runSocket : Option Nat := none

inductive TcpServerAction (C : Type) where
  | openSocket (ok : Bool)
  | storeSocket
  | bind (ok : Bool)
  | listen (ok : Bool)
  | exchange
  | close
  | continueRunning
  | reapCompletedClients
  | reaped
  | load
  | accept (r : AcceptResult)
  | interrupted
  | testStop
  | runStopped
  | makeClientInfo (failure : Option Nat)
  | startClientSession (r : SessionStart)
  | closeSocketValue
  | joinAndClearAllClients
  | joined
  | exchangeServer
  | closeServer
  | loopExchange (j : Joiner)
  | loopClose (j : Joiner)
  | loopJoin (j : Joiner)
  | handlerBuffer (i : Nat) (ok : Bool)
  | handlerContinueRunning (i : Nat)
  | handlerLoad (i : Nat)
  | handlerRecv (i : Nat) (r : RecvResult)
  | handlerCallback (i : Nat) (threw : Bool)
  | handlerExchange (i : Nat)
  | handlerClose (i : Nat)
  | handlerComplete (i : Nat)
  | handlerReturn (i : Nat)
  | stopExchange (c : TcpServerCaller C)
  | stopClose (c : TcpServerCaller C)
  | stopLock (c : TcpServerCaller C)
  | stopClientExchange (c : TcpServerCaller C)
  | stopClientClose (c : TcpServerCaller C)
  | stopUnlock (c : TcpServerCaller C)
  | destructorStopped
  | destructorExchange
  | destructorClose
  | destructorJoinAndClear
  | destructorJoined
  deriving DecidableEq, Repr

namespace TcpServer
variable {C : Type} [DecidableEq C]

def setHook (o : TcpServer C) (hook : TcpServerHook) : TcpServer C := { o with hook := hook }

def setStop (o : TcpServer C) (c : TcpServerCaller C) (p : TcpServerStop) : TcpServer C :=
  { o with stop := Function.update o.stop c p }

def setSession (o : TcpServer C) (i : Nat) (x : Session) : TcpServer C :=
  { o with session := Function.update o.session i x }

def setHandler (o : TcpServer C) (i : Nat) (p : HandlerPc) : TcpServer C :=
  o.setSession i { o.session i with handler := p }

def setLoop (o : TcpServer C) (j : Joiner) (l : ClientLoop) : TcpServer C :=
  { o with loop := Function.update o.loop j l }

/-- The nodes of a list are destroyed. -/
def destroyAll (o : TcpServer C) (nodes : List Nat) : TcpServer C :=
  { o with
    session := fun i =>
      if i ∈ nodes then { o.session i with destroyed := true } else o.session i
    terminated := o.terminated || nodes.any fun i => (o.session i).worker }

/-- Who may call which member function of cBaseWorker_V2, and from where. The members of
the class are destroyed on the way to the destructor of the base class. -/
def calls (o : TcpServer C) : TcpServerCaller C → Call → Option (TcpServer C)
  | .user _, k => if k ≠ .destructor then some o else none
  | .run, k =>
    if o.hook = .requestStop ∧ k = .requestStop then some (o.setHook .stopping) else none
  | .destructor, k =>
    match o.destructor with
    | .idle => if k = .stopThread true then some { o with destructor := .stopThread } else none
    | .base =>
      if k = .destructor then some { o.destroyAll o.mClients with destructor := .inBase }
      else none
    | _ => none

def syncHooks (s : BaseWorker (TcpServerCaller C)) (a : BaseAction (TcpServerCaller C))
    (o : TcpServer C) : Option (TcpServer C) :=
  match a with
  | .call c k => o.calls c k
  | .startSection _ _ => some (if s.mayStart then { o with runSocket := none } else o)
  | .preRunBegin _ => some (o.setHook .openSocket)
  | .preRunEnd _ e => if o.hook = .preRunDone e then some (o.setHook .idle) else none
  | .setRunning _ => some (o.setHook .continueRunning)
  | .runEnd _ e => if o.hook = .runDone e then some (o.setHook .idle) else none
  | .stopSection c =>
    -- in the destructor of the base class the hook is the empty one again
    some (if s.mState.shouldTriggerStop then
        o.setStop c (if c = .destructor ∧ o.destructor = .inBase then .done else .exchange)
      else o)
  | .stopTriggeredEnd c => if o.stop c = .done then some (o.setStop c .idle) else none
  | _ => some o

def sync (s : BaseWorker (TcpServerCaller C)) (a : BaseAction (TcpServerCaller C))
    (o : TcpServer C) : Option (TcpServer C) :=
  if o.terminated then none else syncHooks s a o

def preRun (o : TcpServer C) : TcpServerAction C → Option (TcpServer C)
  | .openSocket ok =>
    if o.hook = .openSocket then
      some (if ok then
          { o with
            socket := o.socket.openSocket .worker
            runSocket := some o.socket.opened
            hook := .storeSocket }
        else o.setHook (.preRunDone (.value false)))
    else none
  | .storeSocket =>
    if o.hook = .storeSocket then
      some { o with socket := o.socket.store .worker, hook := .bind }
    else none
  | .bind ok =>
    if o.hook = .bind then some (o.setHook (if ok then .listen else .exchange)) else none
  | .listen ok =>
    if o.hook = .listen then
      some (o.setHook (if ok then .preRunDone (.value true) else .exchange))
    else none
  | .exchange =>
    if o.hook = .exchange then
      some { o with socket := o.socket.exchange .worker, hook := .close }
    else none
  | .close =>
    if o.hook = .close then
      some { o with socket := o.socket.close .worker, hook := .preRunDone (.value false) }
    else none
  | _ => none

/-- `reapCompletedClients` takes the completed sessions out of `m_clients`. -/
def spliceCompleted (o : TcpServer C) : TcpServer C :=
  { o with mClients := o.mClients.filter fun i => !(o.session i).completed }.setLoop .run
    { todo := o.mClients.filter fun i => (o.session i).completed }

def spliceAll (o : TcpServer C) (j : Joiner) : TcpServer C :=
  { o with mClients := [] }.setLoop j { todo := o.mClients }

/-- The local list of a joiner goes out of scope. -/
def endLoop (o : TcpServer C) (j : Joiner) : TcpServer C :=
  (o.destroyAll (o.loop j).joined).setLoop j {}

/-- The locked section of `startClientSession` for the accepted descriptor `i`. -/
def startClientSession (o : TcpServer C) (i : Nat) : SessionStart → TcpServer C
  | .notAdded => o.setHook .closeSocketValue
  | .created =>
    { o with
      clients := o.clients.move .accepted (.session i)
      mClients := o.mClients ++ [i]
      hook := .continueRunning }.setSession i { worker := true, handler := .entry }
  | .notCreated =>
    -- the session closes its copy of the descriptor and is removed from the list again
    { o with
      clients := o.clients.closeCopy i
      hook := .closeSocketValue }.setSession i { destroyed := true }

def run (s : BaseWorker (TcpServerCaller C)) (o : TcpServer C) :
    TcpServerAction C → Option (TcpServer C)
  | .continueRunning =>
    if o.hook = .continueRunning then
      some (o.setHook (if s.stopRequested then .joinAndClearAllClients else .reapCompletedClients))
    else none
  | .reapCompletedClients =>
    if o.hook = .reapCompletedClients ∧ o.mClientsMutex = none then
      some (o.spliceCompleted.setHook .reaping)
    else none
  | .reaped =>
    if o.hook = .reaping ∧ (o.loop .run).todo = [] then some ((o.endLoop .run).setHook .load)
    else none
  | .load =>
    if o.hook = .load then
      some (o.setHook (match o.socket.descriptor with
        | some fd => .accept fd
        | none => .joinAndClearAllClients))
    else none
  | .accept r =>
    match o.hook with
    | .accept _ =>
      some (match r with
        | .accepted => { o with clients := o.clients.accept, hook := .makeClientInfo }
        | .interrupted => o.setHook .interrupted
        | .failed => o.setHook .testStop)
    | _ => none
  | .interrupted =>
    if o.hook = .interrupted then
      some (o.setHook (if s.stopRequested then .testStop else .continueRunning))
    else none
  | .testStop =>
    if o.hook = .testStop then
      some (o.setHook (if s.stopRequested then .joinAndClearAllClients else .requestStop))
    else none
  | .runStopped =>
    match o.hook, s.caller .run with
    | .stopping, .returned _ _ => some (o.setHook .joinAndClearAllClients)
    | _, _ => none
  | .makeClientInfo failure =>
    if o.hook = .makeClientInfo then
      some (match failure with
        | none => o.setHook .startClientSession
        | some e => { o with clients := o.clients.drop .accepted, hook := .runDone (.threw e) })
    else none
  | .startClientSession r =>
    match o.hook, o.clients.place .accepted with
    | .startClientSession, some i =>
      if o.mClientsMutex = none then some (o.startClientSession i r) else none
    | _, _ => none
  | .closeSocketValue =>
    if o.hook = .closeSocketValue then
      some { o with clients := o.clients.close .accepted, hook := .continueRunning }
    else none
  | .joinAndClearAllClients =>
    if o.hook = .joinAndClearAllClients ∧ o.mClientsMutex = none then
      some ((o.spliceAll .run).setHook .joining)
    else none
  | .joined =>
    if o.hook = .joining ∧ (o.loop .run).todo = [] then
      some ((o.endLoop .run).setHook .exchangeServer)
    else none
  | .exchangeServer =>
    if o.hook = .exchangeServer then
      some { o with socket := o.socket.exchange .worker, hook := .closeServer }
    else none
  | .closeServer =>
    if o.hook = .closeServer then
      some { o with socket := o.socket.close .worker, hook := .runDone (.value true) }
    else none
  | _ => none

/-- The loop that `reapCompletedClients` and `joinAndClearAllClients` share. -/
def joinLoop (o : TcpServer C) : TcpServerAction C → Option (TcpServer C)
  | .loopExchange j =>
    match o.loop j with
    | ⟨joined, i :: todo, .exchange⟩ =>
      some ({ o with clients := o.clients.move (.session i) (.joiner j) }.setLoop j
        ⟨joined, i :: todo, .close⟩)
    | _ => none
  | .loopClose j =>
    match o.loop j with
    | ⟨joined, todo, .close⟩ =>
      some ({ o with clients := o.clients.close (.joiner j) }.setLoop j ⟨joined, todo, .join⟩)
    | _ => none
  | .loopJoin j =>
    match o.loop j with
    | ⟨joined, i :: todo, .join⟩ =>
      if (o.session i).worker = true ∧ (o.session i).handler ≠ .exited then none
      else some ((o.setSession i { o.session i with worker := false }).setLoop j
        ⟨joined ++ [i], todo, .exchange⟩)
    | _ => none
  | _ => none

def handleClient (s : BaseWorker (TcpServerCaller C)) (o : TcpServer C) :
    TcpServerAction C → Option (TcpServer C)
  | .handlerBuffer i ok =>
    if (o.session i).handler = .entry then
      some (o.setHandler i (if ok then .continueRunning else .exchange))
    else none
  | .handlerContinueRunning i =>
    if (o.session i).handler = .continueRunning then
      some (o.setHandler i (if s.stopRequested then .exchange else .load))
    else none
  | .handlerLoad i =>
    if (o.session i).handler = .load then
      some (o.setHandler i (match o.clients.place (.session i) with
        | some clientSocket => .recv clientSocket
        | none => .exchange))
    else none
  | .handlerRecv i r =>
    match (o.session i).handler with
    | .recv _ =>
      some (o.setHandler i (match r with
        | .received => .callback
        | .interrupted => .continueRunning
        | .ended => .exchange))
    | _ => none
  | .handlerCallback i threw =>
    if (o.session i).handler = .callback then
      some (o.setHandler i (if threw then .exchange else .continueRunning))
    else none
  | .handlerExchange i =>
    if (o.session i).handler = .exchange then
      some ({ o with clients := o.clients.move (.session i) (.handler i) }.setHandler i .close)
    else none
  | .handlerClose i =>
    if (o.session i).handler = .close then
      some ({ o with clients := o.clients.close (.handler i) }.setHandler i .complete)
    else none
  | .handlerComplete i =>
    if (o.session i).handler = .complete then
      some (o.setSession i { o.session i with completed := true, handler := .returning })
    else none
  | .handlerReturn i =>
    -- a joiner that has seen `completed` waits for the thread all the same
    if (o.session i).handler = .returning then some (o.setHandler i .exited) else none
  | _ => none

def stopTriggered (o : TcpServer C) : TcpServerAction C → Option (TcpServer C)
  | .stopExchange c =>
    if o.stop c = .exchange then
      some ({ o with socket := o.socket.exchange (.stopper c) }.setStop c .close)
    else none
  | .stopClose c =>
    if o.stop c = .close then
      some ({ o with socket := o.socket.close (.stopper c) }.setStop c .lock)
    else none
  | .stopLock c =>
    if o.stop c = .lock ∧ o.mClientsMutex = none then
      some ({ o with mClientsMutex := some c }.setStop c (.clients o.mClients))
    else none
  | .stopClientExchange c =>
    match o.stop c with
    | .clients (i :: todo) =>
      some ({ o with clients := o.clients.move (.session i) (.stopper c) }.setStop c
        (.closeClient todo))
    | _ => none
  | .stopClientClose c =>
    match o.stop c with
    | .closeClient todo =>
      some ({ o with clients := o.clients.close (.stopper c) }.setStop c (.clients todo))
    | _ => none
  | .stopUnlock c =>
    if o.stop c = .clients [] then some ({ o with mClientsMutex := none }.setStop c .done)
    else none
  | _ => none

def destroy (s : BaseWorker (TcpServerCaller C)) (o : TcpServer C) :
    TcpServerAction C → Option (TcpServer C)
  | .destructorStopped =>
    match o.destructor, s.caller .destructor with
    | .stopThread, .returned _ _ => some { o with destructor := .exchange }
    | _, _ => none
  | .destructorExchange =>
    if o.destructor = .exchange then
      some { o with socket := o.socket.exchange .destructor, destructor := .close }
    else none
  | .destructorClose =>
    if o.destructor = .close then
      some { o with socket := o.socket.close .destructor, destructor := .joinAndClearAllClients }
    else none
  | .destructorJoinAndClear =>
    if o.destructor = .joinAndClearAllClients ∧ o.mClientsMutex = none then
      some { o.spliceAll .destructor with destructor := .joining }
    else none
  | .destructorJoined =>
    if o.destructor = .joining ∧ (o.loop .destructor).todo = [] then
      some { o.endLoop .destructor with destructor := .base }
    else none
  | _ => none

def own (s : BaseWorker (TcpServerCaller C)) (o : TcpServer C) (a : TcpServerAction C) :
    Option (TcpServer C) :=
  if o.terminated then none
  else o.preRun a <|> run s o a <|> o.joinLoop a <|> handleClient s o a <|> o.stopTriggered a <|>
    destroy s o a

end TcpServer

def TCPServer_V2 (C : Type) [DecidableEq C] :
    Derived (TcpServerCaller C) (TcpServer C) (TcpServerAction C) where
  init := {}
  sync := TcpServer.sync
  own := TcpServer.own

end ThreadComponent
