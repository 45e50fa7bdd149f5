import ThreadComponent.SocketWorkerSafety
import ThreadComponent.TcpClientHooks

/-!
# TCPClient_V2 as a worker that owns one socket

`run` leaves the closing of `m_socket` to the stop hook of the `requestStop` that it makes
when the reader has ended.
-/

set_option autoImplicit false
set_option linter.unusedSectionVars false

namespace ThreadComponent

open Transitions System

def ClientHook.socketHook : ClientHook → SocketHook
  | .idle => .idle
  | .clearQueue | .openSocket => .before
  | .storeSocket => .storing
  | .connect | .exchange | .preRunDone (.value true) => .stored
  | .close => .takingBack
  | .preRunDone (.value false) => .failed
  | .createReader | .createWriter | .joinReader | .requestStop => .serving
  | .stopping => .stopping
  | .notify | .joinWriter | .runDone (.value _) => .finished
  | .preRunDone (.threw _) | .runDone (.threw _) => .thrown

def ClientStop.socketStop : ClientStop → SocketStop
  | .idle => .idle
  | .exchange => .exchange
  | .close => .close
  | .clearQueue | .notify | .done => .closed

namespace TcpClient
variable {C : Type} [DecidableEq C] {s : BaseWorker (ClientCaller C)} {o o' : TcpClient C}

def socketView (o : TcpClient C) : SocketView (ClientCaller C) where
  socket := o.socket
  hook := o.hook.socketHook
  stop c := (o.stop c).socketStop
  destructing := o.destructor = .close

theorem socketView_setStop (o : TcpClient C) (c : ClientCaller C) (p : ClientStop) :
    (o.setStop c p).socketView.stop = Function.update o.socketView.stop c p.socketStop := by
  funext d
  by_cases hd : d = c
  · subst hd
    simp [socketView, setStop]
  · simp [socketView, setStop, hd]

theorem viewStep_of_hook (h : SocketView.Quiet .run s o.hook.socketHook o'.hook.socketHook)
    (hsocket : o'.socket = o.socket) (hstop : o'.stop = o.stop)
    (hdtor : (o'.destructor = .close) = (o.destructor = .close)) :
    o.socketView.Step .run s o'.socketView :=
  .hook h hsocket (by simp [socketView, hstop]) (by simp [socketView, hdtor])

theorem viewStep_of_same (h : SameSocket o o') : o.socketView.Step .run s o'.socketView := by
  obtain ⟨hsocket, hhook, hstop, hdtor⟩ := h
  exact viewStep_of_hook (hhook ▸ .refl _) hsocket hstop (by rw [hdtor])

theorem worker_viewStep {a : ClientAction C} (h : worker s o a = some o') :
    o.socketView.Step .run s o'.socketView := by
  cases workerStep_of_worker h with
  | openSocket hhook =>
    exact .openSocket (by simp [socketView, hhook, ClientHook.socketHook]) rfl rfl rfl rfl
  | notOpened hhook => exact viewStep_of_hook (by rw [hhook]; exact .notOpened) rfl rfl rfl
  | storeSocket hhook =>
    exact .storeSocket (by simp [socketView, hhook, ClientHook.socketHook]) rfl rfl rfl rfl
  | @connect ok hhook =>
    exact viewStep_of_hook (by rw [hhook]; cases ok <;> exact .refl _) rfl rfl rfl
  | exchange hhook =>
    refine .exchange ?_ rfl rfl rfl
    simp only [socketView, hhook]
    exact .takeBack
  | close hhook =>
    refine .close ?_ rfl rfl rfl
    simp only [socketView, hhook]
    exact .giveUp
  | readerNotCreated hhook => exact viewStep_of_hook (by rw [hhook]; exact .threw) rfl rfl rfl
  | writerNotCreated => exact viewStep_of_same ⟨rfl, rfl, rfl, rfl⟩
  | runStopped hhook hcaller =>
    exact viewStep_of_hook (by rw [hhook]; exact .stopped hcaller) rfl rfl rfl
  | runNotify hhook =>
    obtain ⟨hsocket, -, hstop, hdtor⟩ := notify_same o
    refine viewStep_of_hook (by rw [hhook]; exact .refl _) hsocket hstop ?_
    exact congrArg (· = ClientDestructor.close) hdtor
  | clearQueue hhook | createReader hhook | createWriter hhook | joinReader hhook
  | joinWriter hhook => exact viewStep_of_hook (by rw [hhook]; exact .refl _) rfl rfl rfl

/-- A stop hook goes on after its work on the socket. -/
theorem viewStep_of_stop {c : ClientCaller C} {p : ClientStop} (x : TcpClient C)
    (h : SameSocket o x)
    (hold : (o.stop c).socketStop = .closed) (hnew : p.socketStop = .closed) :
    o.socketView.Step .run s (x.setStop c p).socketView := by
  obtain ⟨hsocket, hhook, hstop, hdtor⟩ := h
  refine .moveStop (c := c) hold hnew hsocket ?_ ?_ ?_
  · exact congrArg ClientHook.socketHook hhook
  · simp [socketView, setStop, hdtor]
  · rw [socketView_setStop]
    simp [socketView, hstop]

theorem stopTriggered_viewStep {a : ClientAction C} (h : o.stopTriggered a = some o') :
    o.socketView.Step .run s o'.socketView := by
  cases a with
  | stopExchange c =>
    simp only [TcpClient.stopTriggered, Option.ite_none_right_eq_some, Option.some.injEq] at h
    obtain ⟨hstop, rfl⟩ := h
    exact .stopExchange c (by simp [socketView, hstop, ClientStop.socketStop])
      (socketView_setStop _ c .close) rfl rfl rfl
  | stopClose c =>
    simp only [TcpClient.stopTriggered, Option.ite_none_right_eq_some, Option.some.injEq] at h
    obtain ⟨hstop, rfl⟩ := h
    exact .stopClose c (by simp [socketView, hstop, ClientStop.socketStop])
      (socketView_setStop _ c .clearQueue) rfl rfl rfl
  | stopClear c =>
    simp only [TcpClient.stopTriggered, clearOutboundQueue, Option.ite_none_right_eq_some,
      Option.ite_none_left_eq_some, Option.some.injEq] at h
    obtain ⟨hstop, -, rfl⟩ := h
    exact viewStep_of_stop { o with mOutboundQueue := [] } ⟨rfl, rfl, rfl, rfl⟩
      (by rw [hstop]; rfl) rfl
  | stopNotify c =>
    simp only [TcpClient.stopTriggered, Option.ite_none_right_eq_some, Option.some.injEq] at h
    obtain ⟨hstop, rfl⟩ := h
    exact viewStep_of_stop _ (notify_same o) (by rw [hstop]; rfl) rfl
  | _ => cases h

theorem destroy_viewStep {a : ClientAction C} (h : destroy s o a = some o') :
    o.socketView.Step .run s o'.socketView := by
  cases a with
  | destructorStopped =>
    simp only [TcpClient.destroy] at h
    split at h
    · rename_i hdtor _
      obtain rfl := Option.some.inj h
      exact viewStep_of_hook (.refl _) rfl rfl (by simp [hdtor])
    · cases h
  | destructorExchange =>
    simp only [TcpClient.destroy, Option.ite_none_right_eq_some, Option.some.injEq] at h
    obtain ⟨hdtor, rfl⟩ := h
    exact .destructorExchange (by simp [socketView, hdtor]) (by simp [socketView]) rfl rfl rfl
  | destructorClose =>
    simp only [TcpClient.destroy, Option.ite_none_right_eq_some, Option.some.injEq] at h
    obtain ⟨hdtor, rfl⟩ := h
    exact .destructorClose (by simp [socketView, hdtor]) (by simp [socketView]) rfl rfl rfl
  | destructorClear =>
    simp only [TcpClient.destroy, clearOutboundQueue, Option.ite_none_right_eq_some,
      Option.ite_none_left_eq_some, Option.some.injEq] at h
    obtain ⟨hdtor, -, rfl⟩ := h
    exact viewStep_of_hook (.refl _) rfl rfl (by simp [hdtor])
  | _ => cases h

theorem own_viewStep {a : ClientAction C} (h : own s o a = some o') :
    o.socketView.Step .run s o'.socketView := by
  obtain ⟨-, h | h | h | h | h | h⟩ := own_cases h
  · exact worker_viewStep h
  · exact viewStep_of_same (readLoop_same h)
  · exact viewStep_of_same (writeLoop_same h)
  · exact stopTriggered_viewStep h
  · exact viewStep_of_same (send_same h)
  · exact destroy_viewStep h

/-! ## Steps of the worker -/

/-- A step of the worker that is no boundary of a stop hook. -/
theorem viewSync_of_hook {a : BaseAction (ClientCaller C)}
    (hstopped : ∀ c, a ≠ .stopSection c ∧ a ≠ .stopTriggeredEnd c)
    (hhook : SocketView.HookSync .run o.hook.socketHook o'.hook.socketHook a)
    (hsocket : o'.socket = o.socket) (hstop : o'.stop = o.stop)
    (hdtor : (o'.destructor = .close) = (o.destructor = .close)) :
    o.socketView.Sync .run s a o'.socketView :=
  .moveHook hstopped hhook hsocket (by simp [socketView, hstop]) (by simp [socketView, hdtor])

theorem calls_viewSync {c : ClientCaller C} {k : Call} (h : o.calls c k = some o') :
    o.socketView.Sync .run s (.call c k) o'.socketView := by
  have hframe : o'.socket = o.socket ∧ o'.stop = o.stop ∧
      ((o'.destructor = .close) = (o.destructor = .close)) ∧
      (o'.hook = o.hook ∨ (c = .run ∧ k = .requestStop ∧ o.hook = .requestStop ∧
        o'.hook = .stopping)) := by
    cases c <;> simp only [calls] at h <;> grind -linarith [setHook]
  obtain ⟨hsocket, hstop, hdtor, hhook⟩ := hframe
  refine viewSync_of_hook (by simp) ?_ hsocket hstop hdtor
  rcases hhook with hsame | ⟨rfl, rfl, hold, hnew⟩
  · exact .inl (by rw [hsame])
  · exact .inr ⟨rfl, rfl, by rw [hold]; rfl, by rw [hnew]; rfl⟩

theorem sync_viewSync {a : BaseAction (ClientCaller C)} (h : sync s a o = some o') :
    o.socketView.Sync .run s a o'.socketView := by
  have h := syncHooks_of_sync h
  cases a with
  | call c k => exact calls_viewSync h
  | startSection c created =>
    obtain rfl := Option.some.inj h
    split <;> exact viewSync_of_hook (by simp) rfl rfl rfl rfl
  | preRunBegin r =>
    obtain rfl := Option.some.inj h
    exact viewSync_of_hook (by simp) rfl rfl rfl rfl
  | preRunEnd r e =>
    simp only [syncHooks, Option.ite_none_right_eq_some, Option.some.injEq] at h
    obtain ⟨hdone, rfl⟩ := h
    refine viewSync_of_hook (by simp) ?_ rfl rfl rfl
    rw [hdone]
    rcases e with ⟨_ | _⟩ | _ <;> exact ⟨rfl, rfl⟩
  | setRunning r =>
    obtain rfl := Option.some.inj h
    exact viewSync_of_hook (by simp) rfl rfl rfl rfl
  | runEnd r e =>
    simp only [syncHooks, Option.ite_none_right_eq_some, Option.some.injEq] at h
    obtain ⟨hdone, rfl⟩ := h
    refine viewSync_of_hook (by simp) ?_ rfl rfl rfl
    rw [hdone]
    rcases e with _ | _ <;> exact ⟨rfl, rfl⟩
  | stopSection c =>
    obtain rfl := Option.some.inj h
    split
    · rename_i htrigger
      refine .beginStop htrigger ?_ rfl rfl rfl (socketView_setStop _ _ _)
      split
      · rename_i hbase
        exact .inr ⟨rfl, by simp [hbase.1]⟩
      · exact .inl rfl
    · rename_i htrigger
      exact .noStop (by simpa using htrigger)
  | stopTriggeredEnd c =>
    simp only [syncHooks, Option.ite_none_right_eq_some, Option.some.injEq] at h
    obtain ⟨hdone, rfl⟩ := h
    exact .endStop (c := c) (congrArg ClientStop.socketStop hdone) rfl rfl rfl (socketView_setStop _ _ _)
  | _ =>
    obtain rfl := Option.some.inj h
    exact viewSync_of_hook (by simp) rfl rfl rfl rfl

variable (C) in
def socketWorker : SocketWorker (ClientCaller C) (TcpClient C) (ClientAction C) where
  derived := TCPClient_V2 C
  view := socketView
  run := .run
  init := rfl
  own := own_viewStep
  sync := sync_viewSync

end TcpClient

end ThreadComponent
