import ThreadComponent.DerivedHooks
import ThreadComponent.TcpServer

/-!
# Where the threads of TCPServer_V2 stand

The places of its hooks belong to `preRun` or to `run`. Its handlers and joiners leave the
listening socket and the hooks alone, `preRun` and the stop hooks the sessions.
-/

set_option autoImplicit false
set_option linter.unusedSectionVars false

namespace ThreadComponent

open Transitions System

/-- The part of `threadRunner` that a place belongs to. `preRun` does not throw. -/
def TcpServerHook.home : TcpServerHook → Option RunnerPc
  | .idle => none
  | .openSocket | .storeSocket | .bind | .listen | .exchange | .close
  | .preRunDone (.value _) => some .preRun
  | .preRunDone (.threw _) => some .entry
  | _ => some .run

theorem TcpServerHook.ne_of_run {hook : TcpServerHook} (h : hook.home = some .preRun)
    (hook' : TcpServerHook) (hrun : hook'.home = some .run) : hook ≠ hook' := by
  rintro rfl
  rw [h] at hrun
  cases hrun

namespace TcpServer
variable {C : Type} [DecidableEq C] {s : BaseWorker (TcpServerCaller C)} {o o' : TcpServer C}

theorem own_cases {a : TcpServerAction C} (h : own s o a = some o') :
    o.terminated = false ∧ (o.preRun a = some o' ∨ run s o a = some o' ∨
      o.joinLoop a = some o' ∨ handleClient s o a = some o' ∨ o.stopTriggered a = some o' ∨
      destroy s o a = some o') := by
  simp only [own] at h
  split at h
  · cases h
  · rename_i hterm
    refine ⟨by simpa using hterm, ?_⟩
    simp only [Option.orElse_eq_orElse, Option.orElse_eq_or, Option.or_eq_some_iff] at h
    grind -linarith

theorem syncHooks_of_sync {a : BaseAction (TcpServerCaller C)} (h : sync s a o = some o') :
    syncHooks s a o = some o' := by
  simp only [sync] at h
  split at h
  · cases h
  · exact h

/-- The members that have to do with closing the listening socket. -/
def SameSocket (o o' : TcpServer C) : Prop :=
  o'.socket = o.socket ∧ o'.hook = o.hook ∧ o'.stop = o.stop ∧ o'.destructor = o.destructor

inductive LoopStep (o : TcpServer C) : TcpServerAction C → TcpServer C → Prop where
  | exchange {j : Joiner} {joined todo : List Nat} {i : Nat}
      (hj : o.loop j = ⟨joined, i :: todo, .exchange⟩) :
    LoopStep o (.loopExchange j)
      ({ o with clients := o.clients.move (.session i) (.joiner j) }.setLoop j
        ⟨joined, i :: todo, .close⟩)
  | close {j : Joiner} {joined todo : List Nat} (hj : o.loop j = ⟨joined, todo, .close⟩) :
    LoopStep o (.loopClose j)
      ({ o with clients := o.clients.close (.joiner j) }.setLoop j ⟨joined, todo, .join⟩)
  | join {j : Joiner} {joined todo : List Nat} {i : Nat}
      (hj : o.loop j = ⟨joined, i :: todo, .join⟩)
      (hexited : (o.session i).worker = true → (o.session i).handler = .exited) :
    LoopStep o (.loopJoin j)
      ((o.setSession i { o.session i with worker := false }).setLoop j
        ⟨joined ++ [i], todo, .exchange⟩)

theorem loopStep_of_joinLoop {a : TcpServerAction C} (h : o.joinLoop a = some o') :
    LoopStep o a o' := by
  cases a with
  | loopExchange j =>
    simp only [joinLoop] at h
    split at h
    · rename_i hj
      obtain rfl := Option.some.inj h
      exact .exchange hj
    · cases h
  | loopClose j =>
    simp only [joinLoop] at h
    split at h
    · rename_i hj
      obtain rfl := Option.some.inj h
      exact .close hj
    · cases h
  | loopJoin j =>
    simp only [joinLoop] at h
    split at h
    · rename_i hj
      split at h
      · cases h
      · rename_i hwait
        obtain rfl := Option.some.inj h
        refine .join hj fun hworker => ?_
        by_contra hne
        exact hwait ⟨hworker, hne⟩
    · cases h
  | _ => cases h

theorem joinLoop_same {a : TcpServerAction C} (h : o.joinLoop a = some o') :
    SameSocket o o' := by
  cases loopStep_of_joinLoop h <;> exact ⟨rfl, rfl, rfl, rfl⟩

/-- The steps of a handler that go from one place to the next, before it takes its socket. -/
inductive HandlerMove (stopRequested : Bool) (socket : Option Nat) (i : Nat) :
    HandlerPc → TcpServerAction C → HandlerPc → Prop where
  | buffer {ok : Bool} : HandlerMove stopRequested socket i .entry (.handlerBuffer i ok)
      (if ok then .continueRunning else .exchange)
  | continueRunning :
    HandlerMove stopRequested socket i .continueRunning (.handlerContinueRunning i)
      (if stopRequested then .exchange else .load)
  | load : HandlerMove stopRequested socket i .load (.handlerLoad i) (match socket with
      | some clientSocket => .recv clientSocket
      | none => .exchange)
  | recv {clientSocket : Nat} {r : RecvResult} :
    HandlerMove stopRequested socket i (.recv clientSocket) (.handlerRecv i r) (match r with
      | .received => .callback
      | .interrupted => .continueRunning
      | .ended => .exchange)
  | callback {threw : Bool} :
    HandlerMove stopRequested socket i .callback (.handlerCallback i threw)
      (if threw then .exchange else .continueRunning)

/-- A step of a handler, with the place that it is taken in. -/
inductive HandlerStep (s : BaseWorker (TcpServerCaller C)) (o : TcpServer C) :
    TcpServerAction C → TcpServer C → Prop where
  | move {a : TcpServerAction C} {i : Nat} {p : HandlerPc}
      (hmove : HandlerMove s.stopRequested (o.clients.place (.session i)) i
        (o.session i).handler a p) :
    HandlerStep s o a (o.setHandler i p)
  | exchange {i : Nat} (hpc : (o.session i).handler = .exchange) :
    HandlerStep s o (.handlerExchange i)
      ({ o with clients := o.clients.move (.session i) (.handler i) }.setHandler i .close)
  | close {i : Nat} (hpc : (o.session i).handler = .close) :
    HandlerStep s o (.handlerClose i)
      ({ o with clients := o.clients.close (.handler i) }.setHandler i .complete)
  | complete {i : Nat} (hpc : (o.session i).handler = .complete) :
    HandlerStep s o (.handlerComplete i)
      (o.setSession i { o.session i with completed := true, handler := .returning })
  | returns {i : Nat} (hpc : (o.session i).handler = .returning) :
    HandlerStep s o (.handlerReturn i) (o.setHandler i .exited)

theorem HandlerStep.of_move {a : TcpServerAction C} {i : Nat} {p p' : HandlerPc}
    (hpc : (o.session i).handler = p)
    (hmove : HandlerMove s.stopRequested (o.clients.place (.session i)) i p a p')
    (h : some (o.setHandler i p') = some o') : HandlerStep s o a o' := by
  obtain rfl := Option.some.inj h
  exact .move (hpc ▸ hmove)

theorem handlerStep_of_handleClient {a : TcpServerAction C} (h : handleClient s o a = some o') :
    HandlerStep s o a o' := by
  cases a with
  | handlerBuffer i ok =>
    obtain ⟨hpc, h⟩ := Option.ite_none_right_eq_some.mp h
    exact .of_move hpc .buffer h
  | handlerContinueRunning i =>
    obtain ⟨hpc, h⟩ := Option.ite_none_right_eq_some.mp h
    exact .of_move hpc .continueRunning h
  | handlerLoad i =>
    obtain ⟨hpc, h⟩ := Option.ite_none_right_eq_some.mp h
    exact .of_move hpc .load h
  | handlerRecv i r =>
    simp only [handleClient] at h
    split at h
    · rename_i hpc
      exact .of_move hpc .recv h
    · cases h
  | handlerCallback i threw =>
    obtain ⟨hpc, h⟩ := Option.ite_none_right_eq_some.mp h
    exact .of_move hpc .callback h
  | handlerExchange i =>
    obtain ⟨hpc, h⟩ := Option.ite_none_right_eq_some.mp h
    obtain rfl := Option.some.inj h
    exact .exchange hpc
  | handlerClose i =>
    obtain ⟨hpc, h⟩ := Option.ite_none_right_eq_some.mp h
    obtain rfl := Option.some.inj h
    exact .close hpc
  | handlerComplete i =>
    obtain ⟨hpc, h⟩ := Option.ite_none_right_eq_some.mp h
    obtain rfl := Option.some.inj h
    exact .complete hpc
  | handlerReturn i =>
    obtain ⟨hpc, h⟩ := Option.ite_none_right_eq_some.mp h
    obtain rfl := Option.some.inj h
    exact .returns hpc
  | _ => cases h

theorem handleClient_same {a : TcpServerAction C} (h : handleClient s o a = some o') :
    SameSocket o o' := by
  cases handlerStep_of_handleClient h <;> exact ⟨rfl, rfl, rfl, rfl⟩

/-- The worker's thread is in the hook that its place belongs to. -/
def HookAt (p : RunnerPc) (hook : TcpServerHook) : Prop := hook.home = p.hookHome

theorem HookAt.of_home {p q : RunnerPc} {hook : TcpServerHook} (h : HookAt p hook)
    (hh : hook.home = some q) : p = q :=
  RunnerPc.of_hookHome (h.symm.trans hh)

theorem HookAt.idle {p : RunnerPc} {hook : TcpServerHook} (h : HookAt p hook)
    (hp : p.hookHome = none) : hook = .idle := by
  have hh : hook.home = none := h.trans hp
  cases hook with
  | preRunDone e => cases e <;> cases hh
  | _ => first | rfl | cases hh

theorem preRun_home {a : TcpServerAction C} (h : o.preRun a = some o') :
    o.hook.home = some .preRun ∧ o'.hook.home = some .preRun := by
  cases a <;> simp only [preRun] at h <;> grind -linarith [TcpServerHook.home, setHook]

/-- The members that have to do with the sessions and the joiners. -/
structure SameClients (o o' : TcpServer C) : Prop where
  session : o'.session = o.session
  mClients : o'.mClients = o.mClients
  loop : o'.loop = o.loop
  destructor : o'.destructor = o.destructor

theorem preRun_same {a : TcpServerAction C} (h : o.preRun a = some o') : SameClients o o' := by
  obtain ⟨hsession, hclients, hloop, hdtor⟩ : o'.session = o.session ∧
      o'.mClients = o.mClients ∧ o'.loop = o.loop ∧ o'.destructor = o.destructor := by
    cases a <;> simp only [preRun] at h <;> grind -linarith [setHook]
  exact ⟨hsession, hclients, hloop, hdtor⟩

theorem preRun_clients {a : TcpServerAction C} (h : o.preRun a = some o') :
    o'.clients = o.clients ∧ o'.stop = o.stop ∧ o'.mClientsMutex = o.mClientsMutex := by
  cases a <;> simp only [preRun] at h <;> grind -linarith [setHook]

theorem stopTriggered_same {a : TcpServerAction C} (h : o.stopTriggered a = some o') :
    SameClients o o' ∧ o'.hook = o.hook := by
  obtain ⟨hsession, hclients, hloop, hdtor, hhook⟩ : o'.session = o.session ∧
      o'.mClients = o.mClients ∧ o'.loop = o.loop ∧ o'.destructor = o.destructor ∧
      o'.hook = o.hook := by
    cases a <;> simp only [stopTriggered] at h <;> grind -linarith [setStop]
  exact ⟨⟨hsession, hclients, hloop, hdtor⟩, hhook⟩

theorem startClientSession_home (o : TcpServer C) (i : Nat) (r : SessionStart) :
    (o.startClientSession i r).hook.home = some .run := by
  cases r <;> rfl

/-- The steps of the accept loop that go from one place to the next. -/
inductive LoopMove (stopRequested : Bool) (descriptor : Option Nat) :
    TcpServerHook → TcpServerAction C → TcpServerHook → Prop where
  | continueRunning : LoopMove stopRequested descriptor .continueRunning .continueRunning
      (if stopRequested then .joinAndClearAllClients else .reapCompletedClients)
  | load : LoopMove stopRequested descriptor .load .load (match descriptor with
      | some fd => .accept fd
      | none => .joinAndClearAllClients)
  | acceptInterrupted {fd : Nat} :
    LoopMove stopRequested descriptor (.accept fd) (.accept .interrupted) .interrupted
  | acceptFailed {fd : Nat} :
    LoopMove stopRequested descriptor (.accept fd) (.accept .failed) .testStop
  | interrupted : LoopMove stopRequested descriptor .interrupted .interrupted
      (if stopRequested then .testStop else .continueRunning)
  | testStop : LoopMove stopRequested descriptor .testStop .testStop
      (if stopRequested then .joinAndClearAllClients else .requestStop)
  | runStopped :
    LoopMove stopRequested descriptor .stopping .runStopped .joinAndClearAllClients

/-- A step of `run`, with the place that it is taken in. -/
inductive RunStep (s : BaseWorker (TcpServerCaller C)) (o : TcpServer C) :
    TcpServerAction C → TcpServer C → Prop where
  | move {a : TcpServerAction C} {hook : TcpServerHook}
      (hmove : LoopMove s.stopRequested o.socket.descriptor o.hook a hook) :
    RunStep s o a (o.setHook hook)
  | reapCompletedClients (hhook : o.hook = .reapCompletedClients)
      (hfree : o.mClientsMutex = none) :
    RunStep s o .reapCompletedClients (o.spliceCompleted.setHook .reaping)
  | reaped (hhook : o.hook = .reaping) (htodo : (o.loop .run).todo = []) :
    RunStep s o .reaped ((o.endLoop .run).setHook .load)
  | accepted {fd : Nat} (hhook : o.hook = .accept fd) :
    RunStep s o (.accept .accepted)
      { o with clients := o.clients.accept, hook := .makeClientInfo }
  | makeClientInfo (hhook : o.hook = .makeClientInfo) :
    RunStep s o (.makeClientInfo none) (o.setHook .startClientSession)
  | makeClientInfoThrows {e : Nat} (hhook : o.hook = .makeClientInfo) :
    RunStep s o (.makeClientInfo (some e))
      { o with clients := o.clients.drop .accepted, hook := .runDone (.threw e) }
  | startClientSession {r : SessionStart} {i : Nat} (hhook : o.hook = .startClientSession)
      (hi : o.clients.place .accepted = some i) (hfree : o.mClientsMutex = none) :
    RunStep s o (.startClientSession r) (o.startClientSession i r)
  | closeSocketValue (hhook : o.hook = .closeSocketValue) :
    RunStep s o .closeSocketValue
      { o with clients := o.clients.close .accepted, hook := .continueRunning }
  | joinAndClearAllClients (hhook : o.hook = .joinAndClearAllClients)
      (hfree : o.mClientsMutex = none) :
    RunStep s o .joinAndClearAllClients ((o.spliceAll .run).setHook .joining)
  | joined (hhook : o.hook = .joining) (htodo : (o.loop .run).todo = []) :
    RunStep s o .joined ((o.endLoop .run).setHook .exchangeServer)
  | exchangeServer (hhook : o.hook = .exchangeServer) :
    RunStep s o .exchangeServer
      { o with socket := o.socket.exchange .worker, hook := .closeServer }
  | closeServer (hhook : o.hook = .closeServer) :
    RunStep s o .closeServer
      { o with socket := o.socket.close .worker, hook := .runDone (.value true) }

theorem RunStep.of_move {a : TcpServerAction C} {hook hook' : TcpServerHook}
    (hhook : o.hook = hook) (hmove : LoopMove s.stopRequested o.socket.descriptor hook a hook')
    (h : some (o.setHook hook') = some o') : RunStep s o a o' := by
  obtain rfl := Option.some.inj h
  exact .move (hhook ▸ hmove)

theorem runStep_of_run {a : TcpServerAction C} (h : run s o a = some o') : RunStep s o a o' := by
  cases a with
  | accept r =>
    simp only [run] at h
    split at h
    · rename_i fd hhook
      cases r with
      | accepted =>
        obtain rfl := Option.some.inj h
        exact .accepted hhook
      | interrupted => exact .of_move hhook .acceptInterrupted h
      | failed => exact .of_move hhook .acceptFailed h
    · cases h
  | runStopped =>
    simp only [run] at h
    split at h
    · rename_i hhook _
      exact .of_move hhook .runStopped h
    · cases h
  | startClientSession r =>
    simp only [run] at h
    split at h
    · rename_i i hhook hi
      obtain ⟨hfree, h⟩ := Option.ite_none_right_eq_some.mp h
      obtain rfl := Option.some.inj h
      exact .startClientSession hhook hi hfree
    · cases h
  | makeClientInfo failure =>
    obtain ⟨hhook, h⟩ := Option.ite_none_right_eq_some.mp h
    obtain rfl := Option.some.inj h
    cases failure with
    | none => exact .makeClientInfo hhook
    | some e => exact .makeClientInfoThrows hhook
  | continueRunning =>
    obtain ⟨hhook, h⟩ := Option.ite_none_right_eq_some.mp h
    exact .of_move hhook .continueRunning h
  | load =>
    obtain ⟨hhook, h⟩ := Option.ite_none_right_eq_some.mp h
    exact .of_move hhook .load h
  | interrupted =>
    obtain ⟨hhook, h⟩ := Option.ite_none_right_eq_some.mp h
    exact .of_move hhook .interrupted h
  | testStop =>
    obtain ⟨hhook, h⟩ := Option.ite_none_right_eq_some.mp h
    exact .of_move hhook .testStop h
  | reapCompletedClients =>
    obtain ⟨⟨hhook, hfree⟩, h⟩ := Option.ite_none_right_eq_some.mp h
    obtain rfl := Option.some.inj h
    exact .reapCompletedClients hhook hfree
  | reaped =>
    obtain ⟨⟨hhook, htodo⟩, h⟩ := Option.ite_none_right_eq_some.mp h
    obtain rfl := Option.some.inj h
    exact .reaped hhook htodo
  | closeSocketValue =>
    obtain ⟨hhook, h⟩ := Option.ite_none_right_eq_some.mp h
    obtain rfl := Option.some.inj h
    exact .closeSocketValue hhook
  | joinAndClearAllClients =>
    obtain ⟨⟨hhook, hfree⟩, h⟩ := Option.ite_none_right_eq_some.mp h
    obtain rfl := Option.some.inj h
    exact .joinAndClearAllClients hhook hfree
  | joined =>
    obtain ⟨⟨hhook, htodo⟩, h⟩ := Option.ite_none_right_eq_some.mp h
    obtain rfl := Option.some.inj h
    exact .joined hhook htodo
  | exchangeServer =>
    obtain ⟨hhook, h⟩ := Option.ite_none_right_eq_some.mp h
    obtain rfl := Option.some.inj h
    exact .exchangeServer hhook
  | closeServer =>
    obtain ⟨hhook, h⟩ := Option.ite_none_right_eq_some.mp h
    obtain rfl := Option.some.inj h
    exact .closeServer hhook
  | _ => cases h

theorem LoopMove.home {stopRequested : Bool} {descriptor : Option Nat}
    {hook hook' : TcpServerHook} {a : TcpServerAction C}
    (h : LoopMove stopRequested descriptor hook a hook') :
    hook.home = some .run ∧ hook'.home = some .run := by
  cases h with
  | load => cases descriptor <;> exact ⟨rfl, rfl⟩
  | continueRunning | interrupted | testStop => cases stopRequested <;> exact ⟨rfl, rfl⟩
  | acceptInterrupted | acceptFailed | runStopped => exact ⟨rfl, rfl⟩

theorem run_home {a : TcpServerAction C} (h : run s o a = some o') :
    o.hook.home = some .run ∧ o'.hook.home = some .run := by
  cases runStep_of_run h with
  | move hmove => exact hmove.home
  | startClientSession hhook => exact ⟨by rw [hhook]; rfl, startClientSession_home o _ _⟩
  | reapCompletedClients hhook | reaped hhook | accepted hhook | makeClientInfo hhook
  | makeClientInfoThrows hhook | closeSocketValue hhook | joinAndClearAllClients hhook
  | joined hhook | exchangeServer hhook | closeServer hhook => exact ⟨by rw [hhook]; rfl, rfl⟩

theorem own_home {a : TcpServerAction C} (h : own s o a = some o') :
    o'.hook.home = o.hook.home := by
  obtain ⟨-, h | h | h | h | h | h⟩ := own_cases h
  · exact (preRun_home h).2.trans (preRun_home h).1.symm
  · exact (run_home h).2.trans (run_home h).1.symm
  · rw [(joinLoop_same h).2.1]
  · rw [(handleClient_same h).2.1]
  · rw [(stopTriggered_same h).2]
  · cases a <;> simp only [destroy] at h <;>
      grind -linarith [spliceAll, endLoop, destroyAll, setLoop]

theorem calls_home {c : TcpServerCaller C} {k : Call} (h : o.calls c k = some o') :
    o'.hook.home = o.hook.home := by
  cases c <;> simp only [calls] at h <;> grind -linarith [TcpServerHook.home, setHook, destroyAll]

theorem sync_home {a : BaseAction (TcpServerCaller C)} (h : sync s a o = some o') :
    o'.hook.home = a.hookHome o.hook.home := by
  have h := syncHooks_of_sync h
  cases a with
  | call c k => exact calls_home h
  | _ =>
    simp only [syncHooks] at h
    grind -linarith [BaseAction.hookHome, TcpServerHook.home, setHook, setStop]

theorem hookAt_of_reachable {ok : Object (TcpServerCaller C) (TcpServer C) →
      ObjectAction (TcpServerCaller C) (TcpServerAction C) → Prop}
    {s : Object (TcpServerCaller C) (TcpServer C)}
    (hr : (TCPServer_V2 C).system.ReachableBy ok s) : HookAt s.base.current s.ext.hook :=
  Derived.hookHome_of_reachable (fun o : TcpServer C => o.hook.home) rfl sync_home own_home hr

end TcpServer

end ThreadComponent
