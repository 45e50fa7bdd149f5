import ThreadComponent.SocketWorkerSafety
import ThreadComponent.TcpServerHooks

/-!
# TCPServer_V2 as a worker that owns one socket

`run` closes `m_serverSocket` itself when it ends, whether a stop hook has done so or not.
-/

set_option autoImplicit false
set_option linter.unusedSectionVars false

namespace ThreadComponent

open Transitions System

def TcpServerHook.socketHook : TcpServerHook → SocketHook
  | .idle => .idle
  | .openSocket => .before
  | .storeSocket => .storing
  | .bind | .listen | .exchange | .preRunDone (.value true) => .stored
  | .close => .takingBack
  | .preRunDone (.value false) => .failed
  | .closeServer => .finishing
  | .runDone (.value _) => .finished
  | .preRunDone (.threw _) | .runDone (.threw _) => .thrown
  | _ => .serving

def TcpServerStop.socketStop : TcpServerStop → SocketStop
  | .idle => .idle
  | .exchange => .exchange
  | .close => .close
  | _ => .closed

namespace TcpServer
variable {C : Type} [DecidableEq C] {s : BaseWorker (TcpServerCaller C)} {o o' : TcpServer C}

def socketView (o : TcpServer C) : SocketView (TcpServerCaller C) where
  socket := o.socket
  hook := o.hook.socketHook
  stop c := (o.stop c).socketStop
  destructing := o.destructor = .close

theorem socketView_setStop (o : TcpServer C) (c : TcpServerCaller C) (p : TcpServerStop) :
    (o.setStop c p).socketView.stop = Function.update o.socketView.stop c p.socketStop := by
  funext d
  by_cases hd : d = c
  · subst hd
    simp [socketView, setStop]
  · simp [socketView, setStop, hd]

theorem viewStep_of_hook (h : SocketView.Quiet .run s o.hook.socketHook o'.hook.socketHook)
    (hsocket : o'.socket = o.socket) (hstop : o'.stop = o.stop)
    (hdtor : (o'.destructor = .close) = (o.destructor = .close)) :
    o.socketView.Step .run s o'.socketView :=
  .hook h hsocket (by simp [socketView, hstop]) (by simp [socketView, hdtor])

theorem viewStep_of_same (h : SameSocket o o') : o.socketView.Step .run s o'.socketView := by
  obtain ⟨hsocket, hhook, hstop, hdtor⟩ := h
  exact viewStep_of_hook (hhook ▸ .refl _) hsocket hstop (by rw [hdtor])

theorem preRun_viewStep {a : TcpServerAction C} (h : o.preRun a = some o') :
    o.socketView.Step .run s o'.socketView := by
  cases a with
  | openSocket ok =>
    simp only [preRun, Option.ite_none_right_eq_some, Option.some.injEq] at h
    obtain ⟨hhook, rfl⟩ := h
    cases ok with
    | true =>
      exact .openSocket (by simp [socketView, hhook, TcpServerHook.socketHook]) rfl rfl rfl rfl
    | false => exact viewStep_of_hook (by rw [hhook]; exact .notOpened) rfl rfl rfl
  | storeSocket =>
    simp only [preRun, Option.ite_none_right_eq_some, Option.some.injEq] at h
    obtain ⟨hhook, rfl⟩ := h
    exact .storeSocket (by simp [socketView, hhook, TcpServerHook.socketHook]) rfl rfl rfl rfl
  | bind ok =>
    simp only [preRun, Option.ite_none_right_eq_some, Option.some.injEq] at h
    obtain ⟨hhook, rfl⟩ := h
    exact viewStep_of_hook (by rw [hhook]; cases ok <;> exact .refl _) rfl rfl rfl
  | listen ok =>
    simp only [preRun, Option.ite_none_right_eq_some, Option.some.injEq] at h
    obtain ⟨hhook, rfl⟩ := h
    exact viewStep_of_hook (by rw [hhook]; cases ok <;> exact .refl _) rfl rfl rfl
  | exchange =>
    simp only [preRun, Option.ite_none_right_eq_some, Option.some.injEq] at h
    obtain ⟨hhook, rfl⟩ := h
    refine .exchange ?_ rfl rfl rfl
    simp only [socketView, hhook]
    exact .takeBack
  | close =>
    simp only [preRun, Option.ite_none_right_eq_some, Option.some.injEq] at h
    obtain ⟨hhook, rfl⟩ := h
    refine .close ?_ rfl rfl rfl
    simp only [socketView, hhook]
    exact .giveUp
  | _ => cases h

/-- The members but for the hook that a step of `run` before its end leaves alone, and how
it moves the hook. -/
theorem LoopMove.serving {stopRequested : Bool} {descriptor : Option Nat}
    {hook hook' : TcpServerHook} {a : TcpServerAction C}
    (h : LoopMove stopRequested descriptor hook a hook') :
    hook.socketHook = .serving ∧ hook'.socketHook = .serving := by
  cases h with
  | load => cases descriptor <;> exact ⟨rfl, rfl⟩
  | continueRunning | interrupted | testStop => cases stopRequested <;> exact ⟨rfl, rfl⟩
  | acceptInterrupted | acceptFailed | runStopped => exact ⟨rfl, rfl⟩

theorem viewStep_of_serving (hold : o.hook.socketHook = .serving)
    (hnew : o'.hook.socketHook = .serving) (hsocket : o'.socket = o.socket)
    (hstop : o'.stop = o.stop) (hdtor : o'.destructor = o.destructor) :
    o.socketView.Step .run s o'.socketView := by
  refine viewStep_of_hook ?_ hsocket hstop (by rw [hdtor])
  rw [hold, hnew]
  exact .refl _

theorem run_viewStep {a : TcpServerAction C} (h : run s o a = some o') :
    o.socketView.Step .run s o'.socketView := by
  cases runStep_of_run h with
  | move hmove => exact viewStep_of_serving hmove.serving.1 hmove.serving.2 rfl rfl rfl
  | makeClientInfoThrows hhook =>
    refine viewStep_of_hook ?_ rfl rfl rfl
    rw [hhook]
    exact .threw
  | @startClientSession r i hhook =>
    cases r <;> exact viewStep_of_serving (by rw [hhook]; rfl) rfl rfl rfl rfl
  | exchangeServer hhook =>
    refine .exchange ?_ rfl rfl rfl
    simp only [socketView, hhook]
    exact .finish
  | closeServer hhook =>
    refine .close ?_ rfl rfl rfl
    simp only [socketView, hhook]
    exact .finish
  | reapCompletedClients hhook | reaped hhook | accepted hhook | makeClientInfo hhook
  | closeSocketValue hhook | joinAndClearAllClients hhook | joined hhook =>
    exact viewStep_of_serving (by rw [hhook]; rfl) rfl rfl rfl rfl

/-- A stop hook goes on after its work on the listening socket. -/
theorem viewStep_of_stop {c : TcpServerCaller C} {p : TcpServerStop} (x : TcpServer C)
    (h : SameSocket o x)
    (hold : (o.stop c).socketStop = .closed) (hnew : p.socketStop = .closed) :
    o.socketView.Step .run s (x.setStop c p).socketView := by
  obtain ⟨hsocket, hhook, hstop, hdtor⟩ := h
  refine .moveStop (c := c) hold hnew hsocket ?_ ?_ ?_
  · exact congrArg TcpServerHook.socketHook hhook
  · simp [socketView, setStop, hdtor]
  · rw [socketView_setStop]
    simp [socketView, hstop]

theorem stopTriggered_viewStep {a : TcpServerAction C} (h : o.stopTriggered a = some o') :
    o.socketView.Step .run s o'.socketView := by
  cases a with
  | stopExchange c =>
    simp only [stopTriggered, Option.ite_none_right_eq_some, Option.some.injEq] at h
    obtain ⟨hstop, rfl⟩ := h
    exact .stopExchange c (by simp [socketView, hstop, TcpServerStop.socketStop])
      (socketView_setStop _ c .close) rfl rfl rfl
  | stopClose c =>
    simp only [stopTriggered, Option.ite_none_right_eq_some, Option.some.injEq] at h
    obtain ⟨hstop, rfl⟩ := h
    exact .stopClose c (by simp [socketView, hstop, TcpServerStop.socketStop])
      (socketView_setStop _ c .lock) rfl rfl rfl
  | stopLock c =>
    simp only [stopTriggered, Option.ite_none_right_eq_some, Option.some.injEq] at h
    obtain ⟨⟨hstop, -⟩, rfl⟩ := h
    exact viewStep_of_stop { o with mClientsMutex := some c } ⟨rfl, rfl, rfl, rfl⟩
      (by rw [hstop]; rfl) rfl
  | stopClientExchange c =>
    simp only [stopTriggered] at h
    split at h
    · rename_i i todo hstop
      obtain rfl := Option.some.inj h
      exact viewStep_of_stop { o with clients := o.clients.move (.session i) (.stopper c) }
        ⟨rfl, rfl, rfl, rfl⟩ (by rw [hstop]; rfl) rfl
    · cases h
  | stopClientClose c =>
    simp only [stopTriggered] at h
    split at h
    · rename_i todo hstop
      obtain rfl := Option.some.inj h
      exact viewStep_of_stop { o with clients := o.clients.close (.stopper c) }
        ⟨rfl, rfl, rfl, rfl⟩ (by rw [hstop]; rfl) rfl
    · cases h
  | stopUnlock c =>
    simp only [stopTriggered, Option.ite_none_right_eq_some, Option.some.injEq] at h
    obtain ⟨hstop, rfl⟩ := h
    exact viewStep_of_stop { o with mClientsMutex := none } ⟨rfl, rfl, rfl, rfl⟩
      (by rw [hstop]; rfl) rfl
  | _ => cases h

theorem destroy_viewStep {a : TcpServerAction C} (h : destroy s o a = some o') :
    o.socketView.Step .run s o'.socketView := by
  cases a with
  | destructorStopped =>
    simp only [destroy] at h
    split at h
    · rename_i hdtor _
      obtain rfl := Option.some.inj h
      exact viewStep_of_hook (.refl _) rfl rfl (by simp [hdtor])
    · cases h
  | destructorExchange =>
    simp only [destroy, Option.ite_none_right_eq_some, Option.some.injEq] at h
    obtain ⟨hdtor, rfl⟩ := h
    exact .destructorExchange (by simp [socketView, hdtor]) (by simp [socketView]) rfl rfl rfl
  | destructorClose =>
    simp only [destroy, Option.ite_none_right_eq_some, Option.some.injEq] at h
    obtain ⟨hdtor, rfl⟩ := h
    exact .destructorClose (by simp [socketView, hdtor]) (by simp [socketView]) rfl rfl rfl
  | destructorJoinAndClear =>
    simp only [destroy, Option.ite_none_right_eq_some, Option.some.injEq] at h
    obtain ⟨⟨hdtor, -⟩, rfl⟩ := h
    exact viewStep_of_hook (.refl _) rfl rfl (by simp [hdtor])
  | destructorJoined =>
    simp only [destroy, Option.ite_none_right_eq_some, Option.some.injEq] at h
    obtain ⟨⟨hdtor, -⟩, rfl⟩ := h
    exact viewStep_of_hook (.refl _) rfl rfl (by simp [hdtor])
  | _ => cases h

theorem own_viewStep {a : TcpServerAction C} (h : own s o a = some o') :
    o.socketView.Step .run s o'.socketView := by
  obtain ⟨-, h | h | h | h | h | h⟩ := own_cases h
  · exact preRun_viewStep h
  · exact run_viewStep h
  · exact viewStep_of_same (joinLoop_same h)
  · exact viewStep_of_same (handleClient_same h)
  · exact stopTriggered_viewStep h
  · exact destroy_viewStep h

/-! ## Steps of the worker -/

/-- A step of the worker that is no boundary of a stop hook. -/
theorem viewSync_of_hook {a : BaseAction (TcpServerCaller C)}
    (hstopped : ∀ c, a ≠ .stopSection c ∧ a ≠ .stopTriggeredEnd c)
    (hhook : SocketView.HookSync .run o.hook.socketHook o'.hook.socketHook a)
    (hsocket : o'.socket = o.socket) (hstop : o'.stop = o.stop)
    (hdtor : (o'.destructor = .close) = (o.destructor = .close)) :
    o.socketView.Sync .run s a o'.socketView :=
  .moveHook hstopped hhook hsocket (by simp [socketView, hstop]) (by simp [socketView, hdtor])

theorem calls_viewSync {c : TcpServerCaller C} {k : Call} (h : o.calls c k = some o') :
    o.socketView.Sync .run s (.call c k) o'.socketView := by
  have hframe : o'.socket = o.socket ∧ o'.stop = o.stop ∧
      ((o'.destructor = .close) = (o.destructor = .close)) ∧
      o'.hook.socketHook = o.hook.socketHook := by
    cases c <;> simp only [calls] at h <;>
      grind -linarith [setHook, destroyAll, TcpServerHook.socketHook]
  obtain ⟨hsocket, hstop, hdtor, hhook⟩ := hframe
  exact viewSync_of_hook (by simp) (.inl hhook) hsocket hstop hdtor

theorem sync_viewSync {a : BaseAction (TcpServerCaller C)} (h : sync s a o = some o') :
    o.socketView.Sync .run s a o'.socketView := by
  have h := syncHooks_of_sync h
  cases a with
  | call c k => exact calls_viewSync h
  | startSection c created =>
    obtain rfl := Option.some.inj h
    split <;> exact viewSync_of_hook (by simp) rfl rfl rfl rfl
  | preRunBegin r =>
    obtain rfl := Option.some.inj h
    exact viewSync_of_hook (by simp) rfl rfl rfl rfl
  | preRunEnd r e =>
    simp only [syncHooks, Option.ite_none_right_eq_some, Option.some.injEq] at h
    obtain ⟨hdone, rfl⟩ := h
    refine viewSync_of_hook (by simp) ?_ rfl rfl rfl
    rw [hdone]
    rcases e with ⟨_ | _⟩ | _ <;> exact ⟨rfl, rfl⟩
  | setRunning r =>
    obtain rfl := Option.some.inj h
    exact viewSync_of_hook (by simp) rfl rfl rfl rfl
  | runEnd r e =>
    simp only [syncHooks, Option.ite_none_right_eq_some, Option.some.injEq] at h
    obtain ⟨hdone, rfl⟩ := h
    refine viewSync_of_hook (by simp) ?_ rfl rfl rfl
    rw [hdone]
    rcases e with _ | _ <;> exact ⟨rfl, rfl⟩
  | stopSection c =>
    obtain rfl := Option.some.inj h
    split
    · rename_i htrigger
      refine .beginStop htrigger ?_ rfl rfl rfl (socketView_setStop _ _ _)
      split
      · rename_i hbase
        exact .inr ⟨rfl, by simp [hbase.1]⟩
      · exact .inl rfl
    · rename_i htrigger
      exact .noStop (by simpa using htrigger)
  | stopTriggeredEnd c =>
    simp only [syncHooks, Option.ite_none_right_eq_some, Option.some.injEq] at h
    obtain ⟨hdone, rfl⟩ := h
    exact .endStop (c := c) (congrArg TcpServerStop.socketStop hdone) rfl rfl rfl (socketView_setStop _ _ _)
  | _ =>
    obtain rfl := Option.some.inj h
    exact viewSync_of_hook (by simp) rfl rfl rfl rfl

variable (C) in
def socketWorker : SocketWorker (TcpServerCaller C) (TcpServer C) (TcpServerAction C) where
  derived := TCPServer_V2 C
  view := socketView
  run := .run
  init := rfl
  own := own_viewStep
  sync := sync_viewSync

def openedSchedule : List (ObjectAction (TcpServerCaller Bool) (TcpServerAction Bool)) :=
  [.base (.call (.user false) (.startThread true)), .base (.joinFinished (.user false)),
    .base (.startSection (.user false) true), .base (.waitForStart (.user false)),
    .base (.preRunBegin 0), .own (.openSocket true)]

def stopSchedule (c : TcpServerCaller Bool) :
    List (ObjectAction (TcpServerCaller Bool) (TcpServerAction Bool)) :=
  [.base (.call c .requestStop), .base (.stopSection c), .own (.stopExchange c),
    .own (.stopClose c), .own (.stopLock c), .own (.stopUnlock c), .base (.stopTriggeredEnd c)]

def listeningSchedule : List (ObjectAction (TcpServerCaller Bool) (TcpServerAction Bool)) :=
  [.own .storeSocket, .own (.bind true), .own (.listen true),
    .base (.preRunEnd 0 (.value true)), .base (.checkStop 0)]

end TcpServer

end ThreadComponent
