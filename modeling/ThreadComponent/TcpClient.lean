import ThreadComponent.DerivedWorker
import ThreadComponent.SyncClient
import ThreadComponent.TcpSocket

/-!
# TCPClient_V2

`run` starts a reader and a writer thread, waits for the reader, stops the worker and
waits for the writer. One step is one atomic access, one system call, one section of
`m_outboundMutex` or one notification. The mutex is held over several steps by the writer
only, which tests its wait condition and goes to sleep under it.
-/

set_option autoImplicit false
set_option linter.unusedSectionVars false

namespace ThreadComponent

open Transitions System

inductive ClientCaller (C : Type) where
  | user (c : C)
  | run
  | reader
  | writer
  | destructor
  deriving DecidableEq, Repr

inductive ClientHook where
  | idle
  | clearQueue
  | openSocket
  | storeSocket
  | connect
  | exchange
  | close
  | preRunDone (e : HookEnd)
  | createReader
  | createWriter
  | joinReader
  | requestStop
  | stopping
  | notify
  | joinWriter
  | runDone (e : HookEnd)
  deriving DecidableEq, Repr

inductive ReaderPc where
  | absent
  | entry
  | continueRunning
  | load
  | recv (socketFd : Nat)
  | callback
  | requestStop
  | stopping
  | exited
  deriving DecidableEq, Repr

inductive WriterPc where
  | absent
  | continueRunning
  | lock
  | evaluate
  | sleep
  | asleep
  | testStop
  | pop
  | load (payload : Buffer) (totalSent : Nat)
  | send (payload : Buffer) (totalSent socketFd : Nat)
  | requestStop
  | stopping
  | exited
  deriving DecidableEq, Repr

def WriterPc.holdsMutex : WriterPc → Bool
  | .evaluate | .sleep | .testStop | .pop => true
  | _ => false

inductive ClientStop where
  | idle
  | exchange
  | close
  | clearQueue
  | notify
  | done
  deriving DecidableEq, Repr

inductive SendPc where
  | idle
  | push (data : Buffer)
  | notify
  deriving DecidableEq, Repr

inductive ClientDestructor where
  | idle
  | stopThread
  | exchange
  | close
  | clearQueue
  | base
  | inBase
  deriving DecidableEq, Repr

inductive SendResult where
  | sent (n : Nat)
  | interrupted
  | failed
  deriving DecidableEq, Repr

structure TcpClient (C : Type) where
  /-- `m_socket` -/
  socket : TcpSocket (ClientCaller C) := {}
  /-- What has been handed to the kernel on a descriptor. -/
  sent : Nat → Buffer := fun _ => []
  mOutboundQueue : List Buffer := []
  hook : ClientHook := .idle
  reader : ReaderPc := .absent
  writer : WriterPc := .absent
  stop : ClientCaller C → ClientStop := fun _ => .idle
  sender : C → SendPc := fun _ => .idle
  destructor : ClientDestructor := .idle
  /-- `std::terminate` was called: `readThread` was destroyed while joinable. -/
  terminated : Bool := false
  /-- The descriptor that the latest run has opened. -/
  runSocket : Option Nat := none
  /-- The buffers accepted by `send` since the latest launch, and how many of them the
  writer has taken. -/
  accepted : List Buffer := []
  popped : Nat := 0

inductive ClientAction (C : Type) where
  | clearQueue
  | openSocket (ok : Bool)
  | storeSocket
  | connect (ok : Bool)
  | exchange
  | close
  | createReader (failure : Option Nat)
  | createWriter (failure : Option Nat)
  | joinReader
  | runStopped
  | runNotify
  | joinWriter
  | readerBuffer (ok : Bool)
  | readerContinueRunning
  | readerLoad
  | readerRecv (r : RecvResult)
  | readerCallback (threw : Bool)
  | readerStopped
  | writerContinueRunning
  | writerLock
  | writerEvaluate
  | writerSleep
  | writerWake
  | writerTestStop
  | writerPop
  | writerLoad
  | writerSend (r : SendResult)
  | writerStopped
  | stopExchange (c : ClientCaller C)
  | stopClose (c : ClientCaller C)
  | stopClear (c : ClientCaller C)
  | stopNotify (c : ClientCaller C)
  | send (c : C) (data : Buffer)
  | sendPush (c : C)
  | sendNotify (c : C)
  | destructorStopped
  | destructorExchange
  | destructorClose
  | destructorClear
  deriving DecidableEq, Repr

namespace TcpClient
variable {C : Type} [DecidableEq C]

def setHook (o : TcpClient C) (hook : ClientHook) : TcpClient C := { o with hook := hook }

def setStop (o : TcpClient C) (c : ClientCaller C) (p : ClientStop) : TcpClient C :=
  { o with stop := Function.update o.stop c p }

def setSender (o : TcpClient C) (c : C) (p : SendPc) : TcpClient C :=
  { o with sender := Function.update o.sender c p }

/-- The new state of a launch; what the run before it was given counts no more. -/
def launch (o : TcpClient C) : TcpClient C :=
  { o with runSocket := none, accepted := [], popped := 0 }

/-- Who may call which member function of cBaseWorker_V2, and from where. -/
def calls (o : TcpClient C) : ClientCaller C → Call → Option (TcpClient C)
  | .user c, k => if k ≠ .destructor ∧ o.sender c = .idle then some o else none
  | .run, k =>
    if o.hook = .requestStop ∧ k = .requestStop then some (o.setHook .stopping) else none
  | .reader, k =>
    if o.reader = .requestStop ∧ k = .requestStop then some { o with reader := .stopping }
    else none
  | .writer, k =>
    if o.writer = .requestStop ∧ k = .requestStop then some { o with writer := .stopping }
    else none
  | .destructor, k =>
    match o.destructor with
    | .idle => if k = .stopThread true then some { o with destructor := .stopThread } else none
    | .base => if k = .destructor then some { o with destructor := .inBase } else none
    | _ => none

def syncHooks (s : BaseWorker (ClientCaller C)) (a : BaseAction (ClientCaller C))
    (o : TcpClient C) : Option (TcpClient C) :=
  match a with
  | .call c k => o.calls c k
  | .startSection _ _ => some (if s.mayStart then o.launch else o)
  | .preRunBegin _ => some (o.setHook .clearQueue)
  | .preRunEnd _ e => if o.hook = .preRunDone e then some (o.setHook .idle) else none
  | .setRunning _ => some (o.setHook .createReader)
  | .runEnd _ e => if o.hook = .runDone e then some (o.setHook .idle) else none
  | .stopSection c =>
    -- in the destructor of the base class the hook is the empty one again
    some (if s.mState.shouldTriggerStop then
        o.setStop c (if c = .destructor ∧ o.destructor = .inBase then .done else .exchange)
      else o)
  | .stopTriggeredEnd c => if o.stop c = .done then some (o.setStop c .idle) else none
  | _ => some o

def sync (s : BaseWorker (ClientCaller C)) (a : BaseAction (ClientCaller C))
    (o : TcpClient C) : Option (TcpClient C) :=
  if o.terminated then none else syncHooks s a o

/-- `clearOutboundQueue`, with the place reached by it. -/
def clearOutboundQueue (o : TcpClient C) (next : TcpClient C → TcpClient C) :
    Option (TcpClient C) :=
  if o.writer.holdsMutex then none else some (next { o with mOutboundQueue := [] })

/-- `m_outboundCondition.notify_one()` or `notify_all()`: the writer is the only waiter. -/
def notify (o : TcpClient C) : TcpClient C :=
  if o.writer = .asleep then { o with writer := .lock } else o

/-- `sendAll` before the next `::send`. -/
def writerLoad (o : TcpClient C) (payload : Buffer) (totalSent : Nat) : TcpClient C :=
  if payload.length ≤ totalSent then { o with writer := .continueRunning }
  else match o.socket.descriptor with
    | some fd => { o with writer := .send payload totalSent fd }
    | none => { o with writer := .requestStop }

/-- One `::send` of `sendAll`; a kernel that takes bytes takes at least one and no more
than it is offered. -/
def writerSend (o : TcpClient C) (payload : Buffer) (totalSent fd : Nat) :
    SendResult → Option (TcpClient C)
  | .sent n =>
    if 0 < n ∧ totalSent + n ≤ payload.length then
      some { o with
        sent := Function.update o.sent fd (o.sent fd ++ (payload.drop totalSent).take n)
        writer := .load payload (totalSent + n) }
    else none
  | .interrupted => some { o with writer := .load payload totalSent }
  | .failed => some { o with writer := .requestStop }

def worker (s : BaseWorker (ClientCaller C)) (o : TcpClient C) :
    ClientAction C → Option (TcpClient C)
  | .clearQueue =>
    if o.hook = .clearQueue then o.clearOutboundQueue fun o => o.setHook .openSocket else none
  | .openSocket ok =>
    if o.hook = .openSocket then
      some (if ok then
          { o with
            socket := o.socket.openSocket .worker
            runSocket := some o.socket.opened
            hook := .storeSocket }
        else o.setHook (.preRunDone (.value false)))
    else none
  | .storeSocket =>
    if o.hook = .storeSocket then
      some { o with socket := o.socket.store .worker, hook := .connect }
    else none
  | .connect ok =>
    if o.hook = .connect then
      some (o.setHook (if ok then .preRunDone (.value true) else .exchange))
    else none
  | .exchange =>
    if o.hook = .exchange then
      some { o with socket := o.socket.exchange .worker, hook := .close }
    else none
  | .close =>
    if o.hook = .close then
      some { o with socket := o.socket.close .worker, hook := .preRunDone (.value false) }
    else none
  | .createReader failure =>
    if o.hook = .createReader then
      some (match failure with
        | none => { o with reader := .entry, hook := .createWriter }
        | some e => o.setHook (.runDone (.threw e)))
    else none
  | .createWriter failure =>
    if o.hook = .createWriter then
      some (match failure with
        | none => { o with writer := .continueRunning, hook := .joinReader }
        | some _ => { o with terminated := true })
    else none
  | .joinReader =>
    if o.hook = .joinReader ∧ o.reader = .exited then some (o.setHook .requestStop) else none
  | .runStopped =>
    match o.hook, s.caller .run with
    | .stopping, .returned _ _ => some (o.setHook .notify)
    | _, _ => none
  | .runNotify => if o.hook = .notify then some (o.notify.setHook .joinWriter) else none
  | .joinWriter =>
    if o.hook = .joinWriter ∧ o.writer = .exited then some (o.setHook (.runDone (.value true)))
    else none
  | _ => none

def readLoop (s : BaseWorker (ClientCaller C)) (o : TcpClient C) :
    ClientAction C → Option (TcpClient C)
  | .readerBuffer ok =>
    if o.reader = .entry then
      some { o with reader := if ok then .continueRunning else .requestStop }
    else none
  | .readerContinueRunning =>
    if o.reader = .continueRunning then
      some { o with reader := if s.stopRequested then .exited else .load }
    else none
  | .readerLoad =>
    if o.reader = .load then
      some { o with reader := match o.socket.descriptor with
        | some fd => .recv fd
        | none => .exited }
    else none
  | .readerRecv r =>
    match o.reader with
    | .recv _ =>
      some { o with reader := match r with
        | .received => .callback
        | .interrupted => .continueRunning
        | .ended => .requestStop }
    | _ => none
  | .readerCallback threw =>
    if o.reader = .callback then
      some { o with reader := if threw then .requestStop else .continueRunning }
    else none
  | .readerStopped =>
    match o.reader, s.caller .reader with
    | .stopping, .returned _ _ => some { o with reader := .exited }
    | _, _ => none
  | _ => none

def writeLoop (s : BaseWorker (ClientCaller C)) (o : TcpClient C) :
    ClientAction C → Option (TcpClient C)
  | .writerContinueRunning =>
    if o.writer = .continueRunning then
      some { o with writer := if s.stopRequested then .exited else .lock }
    else none
  | .writerLock =>
    if o.writer = .lock then some { o with writer := .evaluate } else none
  | .writerEvaluate =>
    if o.writer = .evaluate then
      some { o with writer :=
        if s.stopRequested ∨ o.mOutboundQueue ≠ [] then .testStop else .sleep }
    else none
  | .writerSleep =>
    if o.writer = .sleep then some { o with writer := .asleep } else none
  | .writerWake => if o.writer = .asleep then some { o with writer := .lock } else none
  | .writerTestStop =>
    if o.writer = .testStop then
      some { o with writer := if s.stopRequested then .exited else .pop }
    else none
  | .writerPop =>
    match o.writer, o.mOutboundQueue with
    | .pop, payload :: queue =>
      some { o with
        mOutboundQueue := queue
        popped := o.popped + 1
        writer := .load payload 0 }
    | _, _ => none
  | .writerLoad =>
    match o.writer with
    | .load payload totalSent => some (o.writerLoad payload totalSent)
    | _ => none
  | .writerSend r =>
    match o.writer with
    | .send payload totalSent fd => o.writerSend payload totalSent fd r
    | _ => none
  | .writerStopped =>
    match o.writer, s.caller .writer with
    | .stopping, .returned _ _ => some { o with writer := .exited }
    | _, _ => none
  | _ => none

def stopTriggered (o : TcpClient C) : ClientAction C → Option (TcpClient C)
  | .stopExchange c =>
    if o.stop c = .exchange then
      some ({ o with socket := o.socket.exchange (.stopper c) }.setStop c .close)
    else none
  | .stopClose c =>
    if o.stop c = .close then
      some ({ o with socket := o.socket.close (.stopper c) }.setStop c .clearQueue)
    else none
  | .stopClear c =>
    if o.stop c = .clearQueue then o.clearOutboundQueue fun o => o.setStop c .notify else none
  | .stopNotify c => if o.stop c = .notify then some (o.notify.setStop c .done) else none
  | _ => none

/-- `send`: all overloads end here, those with no data answer false at once. -/
def send (s : BaseWorker (ClientCaller C)) (o : TcpClient C) :
    ClientAction C → Option (TcpClient C)
  | .send c data =>
    if (s.caller (.user c)).free ∧ o.sender c = .idle then
      some (if data = [] ∨ s.isRunning = false then o else o.setSender c (.push data))
    else none
  | .sendPush c =>
    match o.sender c with
    | .push data =>
      if o.writer.holdsMutex then none
      else some ({ o with
          mOutboundQueue := o.mOutboundQueue ++ [data]
          accepted := o.accepted ++ [data] }.setSender c .notify)
    | _ => none
  | .sendNotify c =>
    if o.sender c = .notify then some (o.notify.setSender c .idle) else none
  | _ => none

def destroy (s : BaseWorker (ClientCaller C)) (o : TcpClient C) :
    ClientAction C → Option (TcpClient C)
  | .destructorStopped =>
    match o.destructor, s.caller .destructor with
    | .stopThread, .returned _ _ => some { o with destructor := .exchange }
    | _, _ => none
  | .destructorExchange =>
    if o.destructor = .exchange then
      some { o with socket := o.socket.exchange .destructor, destructor := .close }
    else none
  | .destructorClose =>
    if o.destructor = .close then
      some { o with socket := o.socket.close .destructor, destructor := .clearQueue }
    else none
  | .destructorClear =>
    if o.destructor = .clearQueue then
      o.clearOutboundQueue fun o => { o with destructor := .base }
    else none
  | _ => none

def own (s : BaseWorker (ClientCaller C)) (o : TcpClient C) (a : ClientAction C) :
    Option (TcpClient C) :=
  if o.terminated then none
  else worker s o a <|> readLoop s o a <|> writeLoop s o a <|> o.stopTriggered a <|>
    send s o a <|> destroy s o a

end TcpClient

def TCPClient_V2 (C : Type) [DecidableEq C] :
    Derived (ClientCaller C) (TcpClient C) (ClientAction C) where
  init := {}
  sync := TcpClient.sync
  own := TcpClient.own

end ThreadComponent
