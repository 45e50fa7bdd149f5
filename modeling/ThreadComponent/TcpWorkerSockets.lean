import ThreadComponent.TcpClientSocket
import ThreadComponent.TcpServerSocket

/-!
# A stopped TCP worker holds no socket

Both TCP workers are mapped to the one view of `SocketWorker`; here its results are said of
the classes themselves.
-/

set_option autoImplicit false
set_option linter.unusedSectionVars false

namespace ThreadComponent

open Transitions System

/-- In every run that leaves the member empty: no descriptor is closed twice, `preRun`
stores a descriptor over nothing, and in every state where the worker is Stopped and nobody
is inside a stop hook the member is -1 and every descriptor has been closed once. -/
def HoldsNoSocket {T O A : Type} [DecidableEq T] (D : Derived T O A) (socket : O → TcpSocket T)
    (storing : O → Prop) : Prop :=
  ∀ s : Object T O, D.system.ReachableBy (SocketView.LeavesEmpty socket) s →
    (∀ i, (socket s.ext).closed i ≤ 1) ∧
    (storing s.ext → (socket s.ext).descriptor = none) ∧
    (s.base.mState = .stopped → (∀ c k, s.base.caller c ≠ .stopTriggered k) →
      (socket s.ext).descriptor = none ∧
        ∀ i, i < (socket s.ext).opened → (socket s.ext).closed i = 1)

theorem SocketWorker.holdsNoSocket {T O A : Type} [DecidableEq T] (W : SocketWorker T O A) :
    HoldsNoSocket W.derived (fun o => (W.view o).socket)
      (fun o => (W.view o).hook = .storing) :=
  fun _ hr => ⟨closed_le_one hr, empty_of_storing hr, closed_of_stopped hr⟩

theorem stopped_worker_holds_no_socket (C : Type) [DecidableEq C] :
    HoldsNoSocket (TCPClient_V2 C) TcpClient.socket (fun o => o.hook = .storeSocket) ∧
      HoldsNoSocket (TCPServer_V2 C) TcpServer.socket (fun o => o.hook = .storeSocket) := by
  refine ⟨fun s hr => ?_, fun s hr => ?_⟩
  · obtain ⟨hclosed, hstoring, hstopped⟩ := (TcpClient.socketWorker C).holdsNoSocket s hr
    exact ⟨hclosed, fun hhook => hstoring (congrArg ClientHook.socketHook hhook), hstopped⟩
  · obtain ⟨hclosed, hstoring, hstopped⟩ := (TcpServer.socketWorker C).holdsNoSocket s hr
    exact ⟨hclosed, fun hhook => hstoring (congrArg TcpServerHook.socketHook hhook), hstopped⟩

namespace TcpClient

def openedSchedule : List (ObjectAction (ClientCaller Bool) (ClientAction Bool)) :=
  [.base (.call (.user false) (.startThread true)), .base (.joinFinished (.user false)),
    .base (.startSection (.user false) true), .base (.waitForStart (.user false)),
    .base (.preRunBegin 0), .own .clearQueue, .own (.openSocket true)]

def stopSchedule (c : ClientCaller Bool) :
    List (ObjectAction (ClientCaller Bool) (ClientAction Bool)) :=
  [.base (.call c .requestStop), .base (.stopSection c), .own (.stopExchange c),
    .own (.stopClose c), .own (.stopClear c), .own (.stopNotify c), .base (.stopTriggeredEnd c)]

def connectedSchedule : List (ObjectAction (ClientCaller Bool) (ClientAction Bool)) :=
  [.own .storeSocket, .own (.connect true), .base (.preRunEnd 0 (.value true)),
    .base (.checkStop 0)]

def threadsSchedule : List (ObjectAction (ClientCaller Bool) (ClientAction Bool)) :=
  [.base (.setRunning 0), .own (.createReader none), .own (.createWriter none)]

def threadsEndSchedule : List (ObjectAction (ClientCaller Bool) (ClientAction Bool)) :=
  [.own (.readerBuffer true), .own .readerContinueRunning, .own .writerContinueRunning,
    .own .joinReader]

def runEndSchedule : List (ObjectAction (ClientCaller Bool) (ClientAction Bool)) :=
  [.own .runStopped, .own .runNotify, .own .joinWriter, .base (.runEnd 0 (.value true)),
    .base (.setStopped 0)]

def servedSchedule : List (ObjectAction (ClientCaller Bool) (ClientAction Bool)) :=
  threadsSchedule ++ stopSchedule (.user true) ++ threadsEndSchedule ++ stopSchedule .run ++
    runEndSchedule

end TcpClient

namespace TcpServer

def runEndSchedule : List (ObjectAction (TcpServerCaller Bool) (TcpServerAction Bool)) :=
  [.own .continueRunning, .own .joinAndClearAllClients, .own .joined, .own .exchangeServer,
    .own .closeServer, .base (.runEnd 0 (.value true)), .base (.setStopped 0)]

def servedSchedule : List (ObjectAction (TcpServerCaller Bool) (TcpServerAction Bool)) :=
  .base (.setRunning 0) :: (stopSchedule (.user true) ++ runEndSchedule)

end TcpServer

theorem CallerPc.ne_stopTriggered {p : CallerPc} (h : p.free = true) (k : Call) :
    p ≠ .stopTriggered k := by
  rintro rfl
  cases h

/-- A client that has served, and a server. -/
theorem stopped_worker_holds_no_socket_served :
    let S := (TCPClient_V2 Bool).system
    let T := (TCPServer_V2 Bool).system
    let s := S.after (SocketView.LeavesEmpty TcpClient.socket) S.init
      (TcpClient.openedSchedule ++ TcpClient.connectedSchedule ++ TcpClient.servedSchedule)
    let t := T.after (SocketView.LeavesEmpty TcpServer.socket) T.init
      (TcpServer.openedSchedule ++ TcpServer.listeningSchedule ++ TcpServer.servedSchedule)
    s.ext.socket.closed 0 = 1 ∧ t.ext.socket.closed 0 = 1 := by
  intro S T s t
  have hs := (stopped_worker_holds_no_socket Bool).1 s (reaches_after (by decide))
  have ht := (stopped_worker_holds_no_socket Bool).2 t (reaches_after (by decide))
  refine ⟨(hs.2.2 (by decide) fun c => CallerPc.ne_stopTriggered ?_).2 0 (by decide),
    (ht.2.2 (by decide) fun c => CallerPc.ne_stopTriggered ?_).2 0 (by decide)⟩
  · rcases c with (_ | _) | _ | _ | _ | _ <;> decide
  · rcases c with (_ | _) | _ | _ <;> decide

/-- A stop request that arrives while `preRun` has not stored its descriptor yet leaves the
descriptor open in a stopped worker. -/
theorem stop_before_store_leaves_socket_open :
    (¬ ∀ s : Object (ClientCaller Bool) (TcpClient Bool), (TCPClient_V2 Bool).system.Reachable s →
      s.base.mState = .stopped → (∀ c k, s.base.caller c ≠ .stopTriggered k) →
      s.ext.socket.descriptor = none ∧
        ∀ i, i < s.ext.socket.opened → s.ext.socket.closed i = 1) ∧
    ¬ ∀ s : Object (TcpServerCaller Bool) (TcpServer Bool),
      (TCPServer_V2 Bool).system.Reachable s → s.base.mState = .stopped →
      (∀ c k, s.base.caller c ≠ .stopTriggered k) →
      s.ext.socket.descriptor = none ∧
        ∀ i, i < s.ext.socket.opened → s.ext.socket.closed i = 1 := by
  refine ⟨fun hclaim => ?_, fun hclaim => ?_⟩
  · let S := (TCPClient_V2 Bool).system
    have h := (hclaim (S.after Free S.init ((TcpClient.openedSchedule ++
      TcpClient.stopSchedule (.user true) ++ TcpClient.connectedSchedule).concat
      (.base (.setStopped 0)))) (reaches_after (by decide)) (by decide) fun c =>
        CallerPc.ne_stopTriggered (by rcases c with (_ | _) | _ | _ | _ | _ <;> decide)).1
    revert h
    decide
  · let S := (TCPServer_V2 Bool).system
    have h := (hclaim (S.after Free S.init ((TcpServer.openedSchedule ++
      TcpServer.stopSchedule (.user true) ++ TcpServer.listeningSchedule).concat
      (.base (.setStopped 0)))) (reaches_after (by decide)) (by decide) fun c =>
        CallerPc.ne_stopTriggered (by rcases c with (_ | _) | _ | _ <;> decide)).1
    revert h
    decide

end ThreadComponent
