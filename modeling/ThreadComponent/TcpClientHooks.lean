import ThreadComponent.DerivedHooks
import ThreadComponent.TcpClient

/-!
# Where the threads of TCPClient_V2 stand

The places of its hooks belong to `preRun` or to `run`, and the steps of its threads other
than the worker's own leave the socket, the hooks and the destructor alone.
-/

set_option autoImplicit false
set_option linter.unusedSectionVars false

namespace ThreadComponent

open Transitions System

/-- The part of `threadRunner` that a place belongs to. `preRun` does not throw. -/
def ClientHook.home : ClientHook → Option RunnerPc
  | .idle => none
  | .clearQueue | .openSocket | .storeSocket | .connect | .exchange | .close
  | .preRunDone (.value _) => some .preRun
  | .preRunDone (.threw _) => some .entry
  | .createReader | .createWriter | .joinReader | .requestStop | .stopping | .notify
  | .joinWriter | .runDone _ => some .run

namespace TcpClient
variable {C : Type} [DecidableEq C] {s : BaseWorker (ClientCaller C)} {o o' : TcpClient C}

theorem own_cases {a : ClientAction C} (h : own s o a = some o') :
    o.terminated = false ∧ (worker s o a = some o' ∨ readLoop s o a = some o' ∨
      writeLoop s o a = some o' ∨ o.stopTriggered a = some o' ∨ send s o a = some o' ∨
      destroy s o a = some o') := by
  simp only [own] at h
  split at h
  · cases h
  · rename_i hterm
    refine ⟨by simpa using hterm, ?_⟩
    simp only [Option.orElse_eq_orElse, Option.orElse_eq_or, Option.or_eq_some_iff] at h
    grind -linarith

theorem syncHooks_of_sync {a : BaseAction (ClientCaller C)} (h : sync s a o = some o') :
    syncHooks s a o = some o' := by
  simp only [sync] at h
  split at h
  · cases h
  · exact h

def SameSocket (o o' : TcpClient C) : Prop :=
  o'.socket = o.socket ∧ o'.hook = o.hook ∧ o'.stop = o.stop ∧ o'.destructor = o.destructor

theorem notify_cases (o : TcpClient C) :
    o.notify = o ∨ (o.writer = .asleep ∧ o.notify = { o with writer := .lock }) := by
  unfold notify
  split
  · rename_i hasleep
    exact .inr ⟨hasleep, rfl⟩
  · exact .inl rfl

theorem notify_same (o : TcpClient C) : SameSocket o o.notify := by
  rcases notify_cases o with hsame | ⟨-, hsame⟩
  · rw [hsame]
    exact ⟨rfl, rfl, rfl, rfl⟩
  · rw [hsame]
    exact ⟨rfl, rfl, rfl, rfl⟩

theorem readLoop_same {a : ClientAction C} (h : readLoop s o a = some o') : SameSocket o o' := by
  cases a <;> simp only [readLoop] at h <;> grind -linarith [SameSocket]

theorem writeLoop_same {a : ClientAction C} (h : writeLoop s o a = some o') :
    SameSocket o o' := by
  cases a <;> simp only [writeLoop, writerLoad, writerSend] at h <;> grind -linarith [SameSocket]

theorem send_same {a : ClientAction C} (h : send s o a = some o') : SameSocket o o' := by
  cases a <;> simp only [send, notify] at h <;> grind -linarith [SameSocket, setSender]

/-- The worker's thread is in the hook that its place belongs to. -/
def HookAt (p : RunnerPc) (hook : ClientHook) : Prop := hook.home = p.hookHome

theorem HookAt.of_preRun {p : RunnerPc} {hook : ClientHook} (h : HookAt p hook)
    (hh : hook.home = some .preRun) : p = .preRun :=
  RunnerPc.of_hookHome (h.symm.trans hh)

theorem HookAt.of_run {p : RunnerPc} {hook : ClientHook} (h : HookAt p hook)
    (hh : hook.home = some .run) : p = .run :=
  RunnerPc.of_hookHome (h.symm.trans hh)

theorem HookAt.idle {p : RunnerPc} {hook : ClientHook} (h : HookAt p hook)
    (hp : p.hookHome = none) : hook = .idle := by
  have hh : hook.home = none := h.trans hp
  cases hook with
  | preRunDone e => cases e <;> cases hh
  | _ => first | rfl | cases hh

theorem HookAt.preRunDone {e : HookEnd} (h : HookAt .preRun (.preRunDone e)) :
    ∃ b, e = .value b := by
  cases e with
  | value b => exact ⟨b, rfl⟩
  | threw n => cases h

/-- A step of the worker's thread in `preRun` or `run`, with the place that it is taken in. -/
inductive WorkerStep (s : BaseWorker (ClientCaller C)) (o : TcpClient C) :
    ClientAction C → TcpClient C → Prop where
  | clearQueue (hhook : o.hook = .clearQueue) :
    WorkerStep s o .clearQueue ({ o with mOutboundQueue := [] }.setHook .openSocket)
  | openSocket (hhook : o.hook = .openSocket) :
    WorkerStep s o (.openSocket true)
      { o with
        socket := o.socket.openSocket .worker
        runSocket := some o.socket.opened
        hook := .storeSocket }
  | notOpened (hhook : o.hook = .openSocket) :
    WorkerStep s o (.openSocket false) (o.setHook (.preRunDone (.value false)))
  | storeSocket (hhook : o.hook = .storeSocket) :
    WorkerStep s o .storeSocket { o with socket := o.socket.store .worker, hook := .connect }
  | connect {ok : Bool} (hhook : o.hook = .connect) :
    WorkerStep s o (.connect ok)
      (o.setHook (if ok then .preRunDone (.value true) else .exchange))
  | exchange (hhook : o.hook = .exchange) :
    WorkerStep s o .exchange { o with socket := o.socket.exchange .worker, hook := .close }
  | close (hhook : o.hook = .close) :
    WorkerStep s o .close
      { o with socket := o.socket.close .worker, hook := .preRunDone (.value false) }
  | createReader (hhook : o.hook = .createReader) :
    WorkerStep s o (.createReader none) { o with reader := .entry, hook := .createWriter }
  | readerNotCreated {e : Nat} (hhook : o.hook = .createReader) :
    WorkerStep s o (.createReader (some e)) (o.setHook (.runDone (.threw e)))
  | createWriter (hhook : o.hook = .createWriter) :
    WorkerStep s o (.createWriter none)
      { o with writer := .continueRunning, hook := .joinReader }
  | writerNotCreated {e : Nat} (hhook : o.hook = .createWriter) :
    WorkerStep s o (.createWriter (some e)) { o with terminated := true }
  | joinReader (hhook : o.hook = .joinReader) (hexited : o.reader = .exited) :
    WorkerStep s o .joinReader (o.setHook .requestStop)
  | runStopped {k : Call} {result : Bool} (hhook : o.hook = .stopping)
      (hcaller : s.caller .run = .returned k result) :
    WorkerStep s o .runStopped (o.setHook .notify)
  | runNotify (hhook : o.hook = .notify) :
    WorkerStep s o .runNotify (o.notify.setHook .joinWriter)
  | joinWriter (hhook : o.hook = .joinWriter) (hexited : o.writer = .exited) :
    WorkerStep s o .joinWriter (o.setHook (.runDone (.value true)))

theorem workerStep_of_worker {a : ClientAction C} (h : worker s o a = some o') :
    WorkerStep s o a o' := by
  cases a with
  | clearQueue =>
    obtain ⟨hhook, h⟩ := Option.ite_none_right_eq_some.mp h
    obtain ⟨-, h⟩ := Option.ite_none_left_eq_some.mp h
    obtain rfl := Option.some.inj h
    exact .clearQueue hhook
  | openSocket ok =>
    obtain ⟨hhook, h⟩ := Option.ite_none_right_eq_some.mp h
    obtain rfl := Option.some.inj h
    cases ok with
    | true => exact .openSocket hhook
    | false => exact .notOpened hhook
  | storeSocket =>
    obtain ⟨hhook, h⟩ := Option.ite_none_right_eq_some.mp h
    obtain rfl := Option.some.inj h
    exact .storeSocket hhook
  | connect ok =>
    obtain ⟨hhook, h⟩ := Option.ite_none_right_eq_some.mp h
    obtain rfl := Option.some.inj h
    exact .connect hhook
  | exchange =>
    obtain ⟨hhook, h⟩ := Option.ite_none_right_eq_some.mp h
    obtain rfl := Option.some.inj h
    exact .exchange hhook
  | close =>
    obtain ⟨hhook, h⟩ := Option.ite_none_right_eq_some.mp h
    obtain rfl := Option.some.inj h
    exact .close hhook
  | createReader failure =>
    obtain ⟨hhook, h⟩ := Option.ite_none_right_eq_some.mp h
    obtain rfl := Option.some.inj h
    cases failure with
    | none => exact .createReader hhook
    | some e => exact .readerNotCreated hhook
  | createWriter failure =>
    obtain ⟨hhook, h⟩ := Option.ite_none_right_eq_some.mp h
    obtain rfl := Option.some.inj h
    cases failure with
    | none => exact .createWriter hhook
    | some e => exact .writerNotCreated hhook
  | joinReader =>
    obtain ⟨⟨hhook, hexited⟩, h⟩ := Option.ite_none_right_eq_some.mp h
    obtain rfl := Option.some.inj h
    exact .joinReader hhook hexited
  | runStopped =>
    simp only [TcpClient.worker] at h
    split at h
    · rename_i hhook hcaller
      obtain rfl := Option.some.inj h
      exact .runStopped hhook hcaller
    · cases h
  | runNotify =>
    obtain ⟨hhook, h⟩ := Option.ite_none_right_eq_some.mp h
    obtain rfl := Option.some.inj h
    exact .runNotify hhook
  | joinWriter =>
    obtain ⟨⟨hhook, hexited⟩, h⟩ := Option.ite_none_right_eq_some.mp h
    obtain rfl := Option.some.inj h
    exact .joinWriter hhook hexited
  | _ => cases h

theorem worker_same {a : ClientAction C} (h : worker s o a = some o') :
    o'.stop = o.stop ∧ o'.destructor = o.destructor ∧ o'.sent = o.sent := by
  cases workerStep_of_worker h with
  | runNotify =>
    rcases notify_cases o with hsame | ⟨-, hsame⟩
    · rw [hsame]
      exact ⟨rfl, rfl, rfl⟩
    · rw [hsame]
      exact ⟨rfl, rfl, rfl⟩
  | _ => exact ⟨rfl, rfl, rfl⟩

/-- The worker's thread makes the writer and wakes it, and else leaves it alone. -/
theorem worker_writer {a : ClientAction C} (h : worker s o a = some o') :
    o'.writer = o.writer ∨ (a = .createWriter none ∧ o'.writer = .continueRunning) ∨
      (o.writer = .asleep ∧ o'.writer = .lock) := by
  cases workerStep_of_worker h with
  | createWriter => exact .inr (.inl ⟨rfl, rfl⟩)
  | runNotify =>
    rcases notify_cases o with hsame | ⟨hasleep, hsame⟩
    · rw [hsame]
      exact .inl rfl
    · rw [hsame]
      exact .inr (.inr ⟨hasleep, rfl⟩)
  | _ => exact .inl rfl

theorem worker_home {a : ClientAction C} (h : worker s o a = some o') :
    o'.hook.home = o.hook.home := by
  cases workerStep_of_worker h with
  | connect hhook =>
    rw [hhook]
    change (if _ then _ else _ : ClientHook).home = _
    split <;> rfl
  | writerNotCreated => rfl
  | clearQueue hhook | openSocket hhook | notOpened hhook | storeSocket hhook | exchange hhook
  | close hhook | createReader hhook | readerNotCreated hhook | createWriter hhook
  | joinReader hhook | runStopped hhook | runNotify hhook | joinWriter hhook =>
    rw [hhook]
    rfl

theorem own_home {a : ClientAction C} (h : own s o a = some o') :
    o'.hook.home = o.hook.home := by
  obtain ⟨-, h | h | h | h | h | h⟩ := own_cases h
  · exact worker_home h
  · rw [(readLoop_same h).2.1]
  · rw [(writeLoop_same h).2.1]
  · cases a <;> simp only [TcpClient.stopTriggered, clearOutboundQueue, notify] at h <;>
      grind -linarith [setStop]
  · rw [(send_same h).2.1]
  · cases a <;> simp only [TcpClient.destroy, clearOutboundQueue] at h <;> grind -linarith

theorem calls_home {c : ClientCaller C} {k : Call} (h : o.calls c k = some o') :
    o'.hook.home = o.hook.home := by
  cases c <;> simp only [calls] at h <;> grind -linarith [ClientHook.home, setHook]

theorem sync_home {a : BaseAction (ClientCaller C)} (h : sync s a o = some o') :
    o'.hook.home = a.hookHome o.hook.home := by
  have h := syncHooks_of_sync h
  cases a with
  | call c k => exact calls_home h
  | _ =>
    simp only [syncHooks] at h
    grind -linarith [BaseAction.hookHome, ClientHook.home, setHook, setStop, launch]

theorem hookAt_of_reachable {ok : Object (ClientCaller C) (TcpClient C) →
      ObjectAction (ClientCaller C) (ClientAction C) → Prop}
    {s : Object (ClientCaller C) (TcpClient C)}
    (hr : (TCPClient_V2 C).system.ReachableBy ok s) : HookAt s.base.current s.ext.hook :=
  Derived.hookHome_of_reachable (fun o : TcpClient C => o.hook.home) rfl sync_home own_home hr

end TcpClient

end ThreadComponent
