import ThreadComponent.TcpServerDestructor
import ThreadComponent.TcpClientQueue
import ThreadComponent.TcpWorkerSockets

/-!
# The destructors of the TCP workers

The reader and the writer of TCPClient_V2 run only while `run` is between their creation and
their joins. Both classes are out of their hooks and have no thread of their own running when
the destructor body has completed, provided that its `stopThread` has not given up before.
-/

set_option autoImplicit false
set_option linter.unusedSectionVars false

namespace ThreadComponent

open Transitions System

def ReaderPc.working : ReaderPc → Bool
  | .absent | .exited => false
  | _ => true

/-- The part of `run` in which there is a reader thread. -/
def ClientHook.reading : ClientHook → Bool
  | .createWriter | .joinReader => true
  | _ => false

def ClientDestructor.stage : ClientDestructor → DestructorStage
  | .idle => .idle
  | .stopThread => .stopThread
  | _ => .behind

namespace TcpClient
variable {C : Type} [DecidableEq C] {s : BaseWorker (ClientCaller C)} {o o' : TcpClient C}

/-- `run` has yet to join the threads that it has created and that are working. -/
def Attended (o : TcpClient C) : Prop :=
  (o.reader.working = true → o.hook.reading = true) ∧
    (o.writer.working = true → o.hook.writing = true)

theorem Attended.worker {a : ClientAction C} (hx : Attended o) (h : worker s o a = some o') :
    Attended o' := by
  obtain ⟨hreader, hwriter⟩ := hx
  cases workerStep_of_worker h with
  | writerNotCreated => exact ⟨hreader, hwriter⟩
  | createReader hhook =>
    rw [hhook] at hwriter
    exact ⟨fun _ => rfl, fun hw => by cases hwriter hw⟩
  | createWriter => exact ⟨fun _ => rfl, fun _ => rfl⟩
  | joinReader _ hexited =>
    refine ⟨fun hr => ?_, fun _ => rfl⟩
    change o.reader.working = true at hr
    rw [hexited] at hr
    cases hr
  | runStopped hhook =>
    rw [hhook] at hreader
    exact ⟨fun hr => (by cases hreader hr), fun _ => rfl⟩
  | runNotify hhook =>
    rw [hhook] at hreader
    refine ⟨fun hr => ?_, fun _ => rfl⟩
    change o.notify.reader.working = true at hr
    rcases notify_cases o with hsame | ⟨-, hsame⟩
    · rw [hsame] at hr
      cases hreader hr
    · rw [hsame] at hr
      cases hreader hr
  | joinWriter hhook hexited =>
    rw [hhook] at hreader
    refine ⟨fun hr => (by cases hreader hr), fun hw => ?_⟩
    change o.writer.working = true at hw
    rw [hexited] at hw
    cases hw
  | clearQueue hhook | openSocket hhook | notOpened hhook | storeSocket hhook | connect hhook
  | exchange hhook | close hhook | readerNotCreated hhook =>
    rw [hhook] at hreader hwriter
    exact ⟨fun hr => (by cases hreader hr), fun hw => (by cases hwriter hw)⟩

/-- A step that starts no thread and leaves the hook alone. -/
def SameThreads (o o' : TcpClient C) : Prop :=
  o'.hook = o.hook ∧ (o'.reader.working = true → o.reader.working = true) ∧
    (o'.writer.working = true → o.writer.working = true)

theorem Attended.of_same (hx : Attended o) (h : SameThreads o o') : Attended o' := by
  obtain ⟨hhook, hreader, hwriter⟩ := h
  constructor
  · rw [hhook]
    exact fun hr => hx.1 (hreader hr)
  · rw [hhook]
    exact fun hw => hx.2 (hwriter hw)

theorem readLoop_sameThreads {a : ClientAction C} (h : readLoop s o a = some o') :
    SameThreads o o' := by
  cases a <;> simp only [readLoop] at h <;> grind -linarith [SameThreads, ReaderPc.working]

theorem writeLoop_sameThreads {a : ClientAction C} (h : writeLoop s o a = some o') :
    SameThreads o o' := by
  cases a <;> simp only [writeLoop, TcpClient.writerLoad, TcpClient.writerSend] at h <;>
    grind -linarith [SameThreads, WriterPc.working]

theorem stopTriggered_sameThreads {a : ClientAction C} (h : o.stopTriggered a = some o') :
    SameThreads o o' ∧ o'.destructor = o.destructor := by
  cases a <;> simp only [stopTriggered, clearOutboundQueue, notify] at h <;>
    grind -linarith [SameThreads, setStop, WriterPc.working]

theorem send_sameThreads {a : ClientAction C} (h : send s o a = some o') :
    SameThreads o o' := by
  cases a <;> simp only [send, notify] at h <;>
    grind -linarith [SameThreads, setSender, WriterPc.working]

theorem destroy_sameThreads {a : ClientAction C} (h : destroy s o a = some o') :
    SameThreads o o' := by
  cases a <;> simp only [destroy, clearOutboundQueue] at h <;> grind -linarith [SameThreads]

theorem Attended.own {a : ClientAction C} (hx : Attended o) (h : own s o a = some o') :
    Attended o' := by
  obtain ⟨-, h | h | h | h | h | h⟩ := own_cases h
  · exact hx.worker h
  · exact hx.of_same (readLoop_sameThreads h)
  · exact hx.of_same (writeLoop_sameThreads h)
  · exact hx.of_same (stopTriggered_sameThreads h).1
  · exact hx.of_same (send_sameThreads h)
  · exact hx.of_same (destroy_sameThreads h)

theorem Attended.sync {a : BaseAction (ClientCaller C)} {t : BaseWorker (ClientCaller C)}
    (hx : Attended o) (hat : HookAt s.current o.hook) (hm : BaseWorker.Moves s a t)
    (h : sync s a o = some o') : Attended o' := by
  have h := syncHooks_of_sync h
  have hquiet : ∀ hook : ClientHook, o.hook.reading = false → o.hook.writing = false →
      Attended (o.setHook hook) := fun hook hreader hwriter =>
    ⟨fun hr => absurd (hx.1 hr) (by simp [hreader]),
      fun hw => absurd (hx.2 hw) (by simp [hwriter])⟩
  have hbegin : ∀ hook : ClientHook, s.current.hookHome = none → Attended (o.setHook hook) :=
    fun hook hcur => by
      have hidle := hat.idle hcur
      exact hquiet hook (by rw [hidle]; rfl) (by rw [hidle]; rfl)
  cases a with
  | call c k =>
    unfold Attended at hx ⊢
    simp only [syncHooks] at h
    cases c <;> simp only [calls] at h <;>
      grind -linarith [setHook, ReaderPc.working, WriterPc.working, ClientHook.reading,
        ClientHook.writing]
  | preRunBegin r =>
    obtain rfl := Option.some.inj h
    cases hm with
    | rest hact => cases hact
    | preRunBegin _ hfrom _ => exact hbegin _ (by rw [hfrom]; rfl)
  | setRunning r =>
    obtain rfl := Option.some.inj h
    cases hm with
    | rest hact => cases hact
    | setRunning _ hfrom _ => exact hbegin _ (by rw [hfrom]; rfl)
  | preRunEnd r e | runEnd r e =>
    simp only [syncHooks, Option.ite_none_right_eq_some, Option.some.injEq] at h
    obtain ⟨hdone, rfl⟩ := h
    exact hquiet _ (by rw [hdone]; rfl) (by rw [hdone]; rfl)
  | _ =>
    refine hx.of_same ?_
    simp only [syncHooks] at h
    grind -linarith [SameThreads, setStop, launch]

theorem attended_of_reachable {ok : Object (ClientCaller C) (TcpClient C) →
      ObjectAction (ClientCaller C) (ClientAction C) → Prop}
    {s : Object (ClientCaller C) (TcpClient C)}
    (hr : (TCPClient_V2 C).system.ReachableBy ok s) : Attended s.ext := by
  refine ReachableBy.invariant (P := fun s => Attended s.ext) ⟨fun h => (by cases h),
    fun h => (by cases h)⟩ (fun s a t hr hx _ hs => ?_) hr
  cases a with
  | base a =>
    obtain ⟨hb, hy⟩ := Derived.step_base.mp hs
    obtain ⟨hi, hu⟩ := Derived.inherits hr
    exact hx.sync (hookAt_of_reachable hr) (BaseWorker.moves_of_step hi hu hb) hy
  | own a => exact hx.own (Derived.step_own.mp hs).2

/-! ## The destructor -/

theorem sync_stage {a : BaseAction (ClientCaller C)} (h : sync s a o = some o') :
    o'.destructor.stage = o.destructor.stage ∨ (o.destructor.stage = .idle ∧
      a = .call .destructor (.stopThread true) ∧ o'.destructor.stage = .stopThread) := by
  have h := syncHooks_of_sync h
  cases a with
  | call c k =>
    simp only [syncHooks] at h
    cases c <;> simp only [calls] at h <;> grind -linarith [setHook, ClientDestructor.stage]
  | _ =>
    simp only [syncHooks] at h
    grind -linarith [setHook, setStop, launch]

theorem own_stage {a : ClientAction C} (h : own s o a = some o') :
    o'.destructor.stage = o.destructor.stage ∨ (o.destructor.stage = .stopThread ∧
      (∃ k b, s.caller .destructor = .returned k b) ∧ o'.destructor.stage = .behind) := by
  obtain ⟨-, h | h | h | h | h | h⟩ := own_cases h
  · exact .inl (by rw [(worker_same h).2.1])
  · exact .inl (by rw [(readLoop_same h).2.2.2])
  · exact .inl (by rw [(writeLoop_same h).2.2.2])
  · exact .inl (by rw [(stopTriggered_sameThreads h).2])
  · exact .inl (by rw [(send_same h).2.2.2])
  · cases a <;> simp only [destroy, clearOutboundQueue] at h <;>
      grind -linarith [ClientDestructor.stage]

variable (C) in
def destroyed : Destroyed (ClientCaller C) (TcpClient C) (ClientAction C) where
  derived := TCPClient_V2 C
  destructor := .destructor
  stage o := o.destructor.stage
  init := rfl
  sync := sync_stage
  called {s o o' k} h hstage := by
    have h := syncHooks_of_sync h
    cases hd : o.destructor <;> simp_all [syncHooks, calls, ClientDestructor.stage]
  own := own_stage

theorem quiet_of_destroyed {s : Object (ClientCaller C) (TcpClient C)}
    (hr : (TCPClient_V2 C).system.ReachableBy (destroyed C).WaitsForWorker s)
    (hbase : s.ext.destructor = .base) :
    s.base.current.inHook = false ∧ s.ext.reader.working = false ∧
      s.ext.writer.working = false := by
  have hpast := Destroyed.pastHooks_of_behind (V := destroyed C) hr
    (show s.ext.destructor.stage = .behind by rw [hbase]; rfl)
  have hidle := (hookAt_of_reachable hr).idle (RunnerPc.hookHome_of_pastHooks hpast)
  have hx := attended_of_reachable hr
  refine ⟨RunnerPc.inHook_of_pastHooks hpast, ?_, ?_⟩
  · by_contra hne
    have hreader := hx.1 (by simpa using hne)
    rw [hidle] at hreader
    cases hreader
  · by_contra hne
    have hwriter := hx.2 (by simpa using hne)
    rw [hidle] at hwriter
    cases hwriter

def destructorStopSchedule : List (ObjectAction (ClientCaller Bool) (ClientAction Bool)) :=
  [.base (.call .destructor (.stopThread true)), .base (.stopSection .destructor),
    .own (.stopExchange .destructor), .own (.stopClose .destructor),
    .own (.stopClear .destructor), .own (.stopNotify .destructor),
    .base (.stopTriggeredEnd .destructor)]

/-- The wait finds the worker Stopped, and the destructor body goes to its end. -/
def destructorEndSchedule : List (ObjectAction (ClientCaller Bool) (ClientAction Bool)) :=
  [.base (.waitForStopped .destructor), .base (.joinFinished .destructor),
    .base (.joined .destructor), .own .destructorStopped, .own .destructorExchange,
    .own .destructorClose, .own .destructorClear]

def destroyedSchedule : List (ObjectAction (ClientCaller Bool) (ClientAction Bool)) :=
  openedSchedule ++ connectedSchedule ++ threadsSchedule ++ destructorStopSchedule ++
    threadsEndSchedule ++ stopSchedule .run ++ runEndSchedule ++ destructorEndSchedule

end TcpClient

namespace TcpServer

/-- The first client has a session, and its handler is in the data callback. -/
def callbackSchedule : List (ObjectAction (TcpServerCaller Bool) (TcpServerAction Bool)) :=
  [.own (.startClientSession .created), .own (.handlerBuffer 0 true),
    .own (.handlerContinueRunning 0), .own (.handlerLoad 0), .own (.handlerRecv 0 .received)]

/-- The destructor is in its `stopThread`, behind the stop hook; `run` takes the session out
of `m_clients`. -/
def destructorStopSchedule : List (ObjectAction (TcpServerCaller Bool) (TcpServerAction Bool)) :=
  [.base (.call .destructor (.stopThread true)), .base (.stopSection .destructor),
    .own (.stopExchange .destructor), .own (.stopClose .destructor), .own (.stopLock .destructor),
    .own (.stopClientExchange .destructor), .own (.stopClientClose .destructor),
    .own (.stopUnlock .destructor), .base (.stopTriggeredEnd .destructor),
    .own .continueRunning, .own .joinAndClearAllClients]

def callbackEndSchedule : List (ObjectAction (TcpServerCaller Bool) (TcpServerAction Bool)) :=
  [.own (.handlerCallback 0 false), .own (.handlerContinueRunning 0), .own (.handlerExchange 0),
    .own (.handlerClose 0), .own (.handlerComplete 0), .own (.handlerReturn 0),
    .own (.loopExchange .run), .own (.loopClose .run), .own (.loopJoin .run), .own .joined,
    .own .exchangeServer, .own .closeServer, .base (.runEnd 0 (.value true)),
    .base (.setStopped 0)]

def destructorEndSchedule : List (ObjectAction (TcpServerCaller Bool) (TcpServerAction Bool)) :=
  [.own .destructorStopped, .own .destructorExchange, .own .destructorClose,
    .own .destructorJoinAndClear, .own .destructorJoined]

/-- The wait ends and takes the thread of a stopped worker. -/
def waitedSchedule : List (ObjectAction (TcpServerCaller Bool) (TcpServerAction Bool)) :=
  [.base (.waitForStopped .destructor), .base (.joinFinished .destructor),
    .base (.joined .destructor)]

def gaveUpSchedule : List (ObjectAction (TcpServerCaller Bool) (TcpServerAction Bool)) :=
  [.base (.waitForStopped .destructor)]

def servingSchedule : List (ObjectAction (TcpServerCaller Bool) (TcpServerAction Bool)) :=
  openedSchedule ++ listeningSchedule ++ acceptSchedule ++ callbackSchedule ++
    destructorStopSchedule

def destroyedSchedule : List (ObjectAction (TcpServerCaller Bool) (TcpServerAction Bool)) :=
  servingSchedule ++ callbackEndSchedule ++ waitedSchedule ++ destructorEndSchedule

end TcpServer

/-- No thread is in a hook if that of the latest run is in none. -/
theorem BaseWorker.inHook_of_current {C : Type} [DecidableEq C] {s : BaseWorker C}
    (hi : SingleBody s) (h : s.current.inHook = false) (r : Nat) :
    (s.thread r).inHook = false := by
  by_contra hne
  have hlive : (s.thread r).live := by
    revert hne
    cases s.thread r <;> simp [RunnerPc.inHook, RunnerPc.live]
  have hlatest := hi.latest (runLive_of_thread hlive)
  unfold current at h
  rw [show s.runs - 1 = r by omega] at h
  exact hne h

/-- If the `stopThread` of the destructor has not given up on a worker in its hooks, then at
the end of the destructor body no hook, no thread of the object and no data callback runs. -/
theorem destructor_waits_for_threads (C : Type) [DecidableEq C] :
    (∀ s, (TCPClient_V2 C).system.ReachableBy (TcpClient.destroyed C).WaitsForWorker s →
      s.ext.destructor = .base →
        (∀ r, (s.base.thread r).inHook = false) ∧
        s.ext.reader.working = false ∧ s.ext.writer.working = false ∧
        s.ext.reader ≠ .callback) ∧
    (∀ s, (TCPServer_V2 C).system.ReachableBy (TcpServer.destroyed C).WaitsForWorker s →
      s.ext.destructor = .base →
        (∀ r, (s.base.thread r).inHook = false) ∧
        ∀ i, (s.ext.session i).handler.running = false ∧
          (s.ext.session i).handler ≠ .callback) := by
  refine ⟨fun s hr hbase => ?_, fun s hr hbase => ?_⟩
  · obtain ⟨hhook, hreader, hwriter⟩ := TcpClient.quiet_of_destroyed hr hbase
    refine ⟨BaseWorker.inHook_of_current (Derived.inherits hr).1 hhook, hreader, hwriter, ?_⟩
    intro hcallback
    rw [hcallback] at hreader
    cases hreader
  · obtain ⟨hhook, hhandlers⟩ := TcpServer.quiet_of_destroyed hr hbase
    refine ⟨BaseWorker.inHook_of_current (Derived.inherits hr).1 hhook, fun i => ?_⟩
    refine ⟨hhandlers i, fun hcallback => ?_⟩
    have hrunning := hhandlers i
    rw [hcallback] at hrunning
    cases hrunning

/-- A client that has served, and a server whose callback has returned in time. -/
theorem destructor_waits_for_threads_in_time :
    let S := (TCPClient_V2 Bool).system
    let T := (TCPServer_V2 Bool).system
    let s := S.after (TcpClient.destroyed Bool).WaitsForWorker S.init TcpClient.destroyedSchedule
    let t := T.after (TcpServer.destroyed Bool).WaitsForWorker T.init TcpServer.destroyedSchedule
    (s.base.thread 0).inHook = false ∧ s.ext.writer.working = false ∧
      (t.ext.session 0).handler.running = false := by
  intro S T s t
  have hs := (destructor_waits_for_threads Bool).1 s (reaches_after (by decide)) (by decide)
  have ht := (destructor_waits_for_threads Bool).2 t (reaches_after (by decide)) (by decide)
  exact ⟨hs.1 0, hs.2.2.1, (ht.2 0).1⟩

/-- The wait gives up while `run` has yet to join the session that it has taken out of
`m_clients`: the destructor finds no session, and the callback goes on behind it. -/
theorem destructor_gives_up_on_callback :
    ¬ ∀ s, (TCPServer_V2 Bool).system.Reachable s → s.ext.destructor = .base →
      (∀ r, (s.base.thread r).inHook = false) ∧ ∀ i, (s.ext.session i).handler ≠ .callback := by
  intro hclaim
  let S := (TCPServer_V2 Bool).system
  have h := hclaim (S.after Free S.init (TcpServer.servingSchedule ++ TcpServer.gaveUpSchedule ++
    TcpServer.destructorEndSchedule)) (reaches_after (by decide)) (by decide)
  exact absurd (h.2 0) (by decide)

end ThreadComponent
