import ThreadComponent.DerivedShutdown
import ThreadComponent.TcpServerHandlers

/-!
# What the threads of TCPServer_V2 wait for

Who holds `m_clientsMutex` is in the loop of `closeAllClientSockets`, a thread that can be
joined has begun, and a thread is in the stop hook of the server where the worker has it there.
-/

set_option autoImplicit false
set_option linter.unusedSectionVars false

namespace ThreadComponent

open Transitions System

def TcpServerStop.locks : TcpServerStop → Bool
  | .clients _ | .closeClient _ => true
  | _ => false

namespace TcpServer
variable {C : Type} [DecidableEq C] {s t : BaseWorker (TcpServerCaller C)} {o o' : TcpServer C}

/-! ## The stop hook -/

theorem setStop_stop_ne {c d : TcpServerCaller C} {p : TcpServerStop} (h : c ≠ d) :
    (o.setStop d p).stop c = o.stop c := Function.update_of_ne h _ _

/-- A step of the worker that does not lead a thread into the stop hook or out of it. -/
theorem sync_stop_same {a : BaseAction (TcpServerCaller C)} {c : TcpServerCaller C}
    (h : sync s a o = some o') (hsection : a ≠ .stopSection c)
    (hend : a ≠ .stopTriggeredEnd c) : o'.stop c = o.stop c := by
  have h := syncHooks_of_sync h
  cases a with
  | stopSection d =>
    have hd : c ≠ d := fun he => hsection (he ▸ rfl)
    obtain rfl := Option.some.inj h
    split
    · exact setStop_stop_ne hd
    · rfl
  | stopTriggeredEnd d =>
    have hd : c ≠ d := fun he => hend (he ▸ rfl)
    simp only [syncHooks, Option.ite_none_right_eq_some, Option.some.injEq] at h
    obtain ⟨-, rfl⟩ := h
    exact setStop_stop_ne hd
  | call d k =>
    simp only [syncHooks] at h
    cases d <;> simp only [calls] at h <;> grind -linarith [setHook, destroyAll]
  | _ =>
    simp only [syncHooks] at h
    grind -linarith [setHook]

/-- A step of a stop hook leads from one place in it to another. The mutex is taken on the way
into the loop and given back on the way out. -/
theorem stopTriggered_cases {a : TcpServerAction C} (h : o.stopTriggered a = some o') :
    ∃ d p, o'.stop = Function.update o.stop d p ∧ o.stop d ≠ .idle ∧ p ≠ .idle ∧
      ((o'.mClientsMutex = o.mClientsMutex ∧ (o.stop d).locks = p.locks) ∨
        (o'.mClientsMutex = some d ∧ p.locks = true) ∨ o'.mClientsMutex = none) := by
  cases a with
  | stopExchange d | stopClose d =>
    simp only [stopTriggered, Option.ite_none_right_eq_some, Option.some.injEq] at h
    obtain ⟨hat, rfl⟩ := h
    exact ⟨d, _, rfl, by simp [hat], by simp, .inl ⟨rfl, by rw [hat]; rfl⟩⟩
  | stopLock d =>
    simp only [stopTriggered, Option.ite_none_right_eq_some, Option.some.injEq] at h
    obtain ⟨⟨hat, -⟩, rfl⟩ := h
    exact ⟨d, _, rfl, by simp [hat], by simp, .inr (.inl ⟨rfl, rfl⟩)⟩
  | stopUnlock d =>
    simp only [stopTriggered, Option.ite_none_right_eq_some, Option.some.injEq] at h
    obtain ⟨hat, rfl⟩ := h
    exact ⟨d, _, rfl, by simp [hat], by simp, .inr (.inr rfl)⟩
  | stopClientExchange d | stopClientClose d =>
    simp only [stopTriggered] at h
    split at h
    · rename_i hat
      obtain rfl := Option.some.inj h
      exact ⟨d, _, rfl, by simp [hat], by simp, .inl ⟨rfl, by rw [hat]; rfl⟩⟩
    · cases h
  | _ => cases h

theorem stopTriggered_stop {a : TcpServerAction C} {c : TcpServerCaller C}
    (h : o.stopTriggered a = some o') : o'.stop c = .idle ↔ o.stop c = .idle := by
  obtain ⟨d, p, hstop, hd, hp, -⟩ := stopTriggered_cases h
  rw [hstop]
  by_cases hcd : c = d
  · subst hcd
    rw [Function.update_self]
    exact iff_of_false hp hd
  · rw [Function.update_of_ne hcd]

theorem run_stop {a : TcpServerAction C} (h : run s o a = some o') :
    o'.stop = o.stop ∧ o'.mClientsMutex = o.mClientsMutex := by
  cases runStep_of_run h with
  | @startClientSession r => cases r <;> exact ⟨rfl, rfl⟩
  | _ => exact ⟨rfl, rfl⟩

theorem destroy_stop {a : TcpServerAction C} (h : destroy s o a = some o') :
    o'.stop = o.stop ∧ o'.mClientsMutex = o.mClientsMutex := by
  cases a <;> simp only [destroy] at h <;>
    grind -linarith [spliceAll, endLoop, destroyAll, setLoop]

theorem own_stop {a : TcpServerAction C} {c : TcpServerCaller C} (h : own s o a = some o') :
    o'.stop c = .idle ↔ o.stop c = .idle := by
  obtain ⟨-, h | h | h | h | h | h⟩ := own_cases h
  · rw [(preRun_clients h).2.1]
  · rw [(run_stop h).1]
  · rw [(joinLoop_same h).2.2.1]
  · rw [(handleClient_same h).2.2.1]
  · exact stopTriggered_stop h
  · rw [(destroy_stop h).1]

theorem stop_iff_of_reachable {ok : Object (TcpServerCaller C) (TcpServer C) →
      ObjectAction (TcpServerCaller C) (TcpServerAction C) → Prop}
    {s : Object (TcpServerCaller C) (TcpServer C)}
    (hr : (TCPServer_V2 C).system.ReachableBy ok s) (c : TcpServerCaller C) :
    s.ext.stop c ≠ .idle ↔ ∃ k, s.base.caller c = .stopTriggered k := by
  refine Derived.inStop_iff_of_reachable (fun o : TcpServer C => fun c => o.stop c ≠ .idle)
    (fun _ h => h rfl) (fun {s c o o'} h => ?_) (fun {s c o o'} h => ?_)
    (fun h hsection hend => ?_) (fun h => ?_) hr c
  · obtain rfl := Option.some.inj (syncHooks_of_sync h)
    cases htrigger : s.mState.shouldTriggerStop with
    | true =>
      rw [if_pos rfl]
      simp only [setStop, Function.update_self]
      split <;> simp
    | false =>
      rw [if_neg Bool.false_ne_true]
      simp
  · have h := syncHooks_of_sync h
    simp only [syncHooks, Option.ite_none_right_eq_some, Option.some.injEq] at h
    obtain ⟨-, rfl⟩ := h
    simp [setStop]
  · rw [sync_stop_same h hsection hend]
  · exact not_congr (own_stop h)

theorem idle_of_stopSection {ok : Object (TcpServerCaller C) (TcpServer C) →
      ObjectAction (TcpServerCaller C) (TcpServerAction C) → Prop}
    {x : Object (TcpServerCaller C) (TcpServer C)} {c : TcpServerCaller C}
    (hr : (TCPServer_V2 C).system.ReachableBy ok x)
    (hb : x.base.step (.stopSection c) = some t) : x.ext.stop c = .idle := by
  by_contra hne
  obtain ⟨k, hk⟩ := (stop_iff_of_reachable hr c).mp hne
  obtain ⟨k', hk', -⟩ := BaseWorker.step_stopSection.mp hb
  rw [hk] at hk'
  cases hk'

/-! ## The mutex and the joins -/

structure Waits (o : TcpServer C) : Prop where
  mutex : ∀ c, o.mClientsMutex = some c → (o.stop c).locks = true
  holding : o.hook.starting = true → o.clients.place .accepted ≠ none
  worker : ∀ i, (o.session i).worker = true → (o.session i).handler ≠ .absent

theorem Waits.of_same (hx : Waits o) (hmutex : o'.mClientsMutex = o.mClientsMutex)
    (hstop : ∀ c, (o.stop c).locks = true → (o'.stop c).locks = true)
    (haccepted : SameAccepted o o')
    (hsession : ∀ i, ((o'.session i).worker = true → (o.session i).worker = true) ∧
      ((o'.session i).handler = .absent → (o.session i).handler = .absent)) : Waits o' where
  mutex c hc := hstop c (hx.mutex c (hmutex ▸ hc))
  holding hs := by
    obtain ⟨hold, hplace⟩ := haccepted.2 hs
    rw [hplace]
    exact hx.holding hold
  worker i hi habsent := hx.worker i ((hsession i).1 hi) ((hsession i).2 habsent)

/-- A step of a thread that has nothing to do with the mutex. -/
theorem Waits.of_session (hx : Waits o)
    (hstop : o'.stop = o.stop ∧ o'.mClientsMutex = o.mClientsMutex)
    (haccepted : SameAccepted o o')
    (hsession : ∀ i, ((o'.session i).worker = true → (o.session i).worker = true) ∧
      ((o'.session i).handler = .absent → (o.session i).handler = .absent)) : Waits o' :=
  hx.of_same hstop.2 (fun c hc => by rwa [hstop.1]) haccepted hsession

theorem Waits.startClientSession {i : Nat} {r : SessionStart} (hx : Waits o) :
    Waits (o.startClientSession i r) := by
  cases r with
  | notAdded =>
    exact hx.of_session ⟨rfl, rfl⟩ ⟨rfl, fun hs => by cases hs⟩ fun _ => ⟨id, id⟩
  | created =>
    refine ⟨hx.mutex, (fun hs => by cases hs), fun d hd => ?_⟩
    simp only [TcpServer.startClientSession, setSession] at hd ⊢
    by_cases hdi : d = i
    · subst hdi
      rw [Function.update_self]
      simp
    · rw [Function.update_of_ne hdi] at hd ⊢
      exact hx.worker d hd
  | notCreated =>
    refine ⟨hx.mutex, (fun hs => by cases hs), fun d hd => ?_⟩
    simp only [TcpServer.startClientSession, setSession] at hd ⊢
    by_cases hdi : d = i
    · subst hdi
      rw [Function.update_self] at hd
      cases hd
    · rw [Function.update_of_ne hdi] at hd ⊢
      exact hx.worker d hd

theorem session_destroyAll {nodes : List Nat} (i : Nat) :
    (((o.destroyAll nodes).session i).worker = true → (o.session i).worker = true) ∧
      (((o.destroyAll nodes).session i).handler = .absent →
        (o.session i).handler = .absent) := by
  simp only [destroyAll]
  split <;> exact ⟨id, id⟩

theorem Waits.run {a : TcpServerAction C} (hx : Waits o) (h : run s o a = some o') :
    Waits o' := by
  cases runStep_of_run h with
  | move hmove =>
    refine hx.of_session ⟨rfl, rfl⟩ ⟨rfl, fun hs => ?_⟩ fun _ => ⟨id, id⟩
    rw [show (o.setHook _).hook.starting = false from hmove.not_starting] at hs
    cases hs
  | reapCompletedClients | joinAndClearAllClients | makeClientInfoThrows | exchangeServer
  | closeServer =>
    exact hx.of_session ⟨rfl, rfl⟩ ⟨rfl, fun hs => by cases hs⟩ fun _ => ⟨id, id⟩
  | reaped | joined =>
    exact hx.of_session ⟨rfl, rfl⟩ ⟨rfl, fun hs => by cases hs⟩ session_destroyAll
  | accepted =>
    exact ⟨hx.mutex, fun _ => by simp [ClientSockets.accept_place], hx.worker⟩
  | makeClientInfo hhook =>
    exact hx.of_session ⟨rfl, rfl⟩ ⟨rfl, fun _ => ⟨by rw [hhook]; rfl, rfl⟩⟩ fun _ => ⟨id, id⟩
  | startClientSession => exact hx.startClientSession
  | closeSocketValue =>
    exact hx.of_session ⟨rfl, rfl⟩ ⟨ClientSockets.close_accepted, fun hs => by cases hs⟩
      fun _ => ⟨id, id⟩

theorem Waits.stopTriggered {a : TcpServerAction C} (hx : Waits o)
    (h : o.stopTriggered a = some o') : Waits o' := by
  obtain ⟨d, p, hstop, -, -, hmutex⟩ := stopTriggered_cases h
  refine ⟨fun c hc => ?_, fun hs => ?_, fun i hi => ?_⟩
  · rw [hstop]
    by_cases hcd : c = d
    · subst hcd
      rw [Function.update_self]
      rcases hmutex with ⟨hsame, hlocks⟩ | ⟨-, hlocks⟩ | hnone
      · rw [← hlocks]
        exact hx.mutex c (hsame ▸ hc)
      · exact hlocks
      · rw [hnone] at hc
        cases hc
    · rw [Function.update_of_ne hcd]
      rcases hmutex with ⟨hsame, -⟩ | ⟨htaken, -⟩ | hnone
      · exact hx.mutex c (hsame ▸ hc)
      · rw [htaken] at hc
        exact absurd (Option.some.inj hc).symm hcd
      · rw [hnone] at hc
        cases hc
  · obtain ⟨hbefore, hplace⟩ := (stopTriggered_accepted h).2 hs
    rw [hplace]
    exact hx.holding hbefore
  · rw [(stopTriggered_same h).1.session] at hi ⊢
    exact hx.worker i hi

theorem Waits.own {a : TcpServerAction C} (hx : Waits o) (h : own s o a = some o') :
    Waits o' := by
  obtain ⟨-, h | h | h | h | h | h⟩ := own_cases h
  · refine hx.of_session (preRun_clients h).2 (preRun_accepted h) fun i => ?_
    rw [(preRun_same h).session]
    exact ⟨id, id⟩
  · exact hx.run h
  · obtain ⟨hhandler, haccepted⟩ := joinLoop_handler h
    have hframe : o'.mClientsMutex = o.mClientsMutex ∧
        ∀ i, (o'.session i).worker = true → (o.session i).worker = true := by
      cases loopStep_of_joinLoop h with
      | exchange | close => exact ⟨rfl, fun _ => id⟩
      | @join j joined todo i hj hexited =>
        refine ⟨rfl, fun d hd => ?_⟩
        change (Function.update o.session i { o.session i with worker := false } d).worker = true
          at hd
        by_cases hdi : d = i
        · subst hdi
          rw [Function.update_self] at hd
          cases hd
        · rwa [Function.update_of_ne hdi] at hd
    exact hx.of_session ⟨(joinLoop_same h).2.2.1, hframe.1⟩ haccepted
      fun i => ⟨hframe.2 i, by rw [hhandler]; exact id⟩
  · obtain ⟨i, x, hsession, -, hstarted, hworker, -, -, -, haccepted⟩ := handleClient_effect h
    have hmutex : o'.mClientsMutex = o.mClientsMutex := by
      cases handlerStep_of_handleClient h <;> rfl
    refine hx.of_session ⟨(handleClient_same h).2.2.1, hmutex⟩ haccepted fun d => ?_
    rw [hsession]
    by_cases hdi : d = i
    · subst hdi
      rw [Function.update_self, hworker]
      exact ⟨id, fun habsent => absurd habsent hstarted⟩
    · rw [Function.update_of_ne hdi]
      exact ⟨id, id⟩
  · exact hx.stopTriggered h
  · obtain ⟨hhandler, haccepted⟩ := destroy_handler h
    refine hx.of_session (destroy_stop h) haccepted fun i => ⟨?_, by rw [hhandler]; exact id⟩
    cases a with
    | destructorJoined =>
      simp only [destroy, Option.ite_none_right_eq_some, Option.some.injEq] at h
      obtain ⟨-, rfl⟩ := h
      exact (session_destroyAll i).1
    | _ =>
      have hsession : o'.session = o.session := by
        simp only [destroy] at h
        grind -linarith [spliceAll, setLoop]
      rw [hsession]
      exact id

theorem Waits.sync {a : BaseAction (TcpServerCaller C)} (hx : Waits o)
    (hidle : ∀ c, a = .stopSection c → o.stop c = .idle) (h : sync s a o = some o') :
    Waits o' := by
  obtain ⟨hhandler, haccepted⟩ := sync_handler h
  have hframe : o'.mClientsMutex = o.mClientsMutex ∧
      ∀ i, (o'.session i).worker = true → (o.session i).worker = true := by
    have h := syncHooks_of_sync h
    cases a with
    | call c k =>
      simp only [syncHooks] at h
      cases c <;> simp only [calls] at h <;> grind -linarith [setHook, destroyAll]
    | _ =>
      have hsame : o'.mClientsMutex = o.mClientsMutex ∧ o'.session = o.session := by
        simp only [syncHooks] at h
        grind -linarith [setHook, setStop]
      rw [hsame.2]
      exact ⟨hsame.1, fun _ => id⟩
  refine hx.of_same hframe.1 (fun c hlocks => ?_) haccepted
    fun i => ⟨hframe.2 i, by rw [hhandler]; exact id⟩
  -- who is in the loop neither enters the hook nor leaves it
  rw [sync_stop_same h]
  · exact hlocks
  · rintro rfl
    rw [hidle c rfl] at hlocks
    cases hlocks
  · rintro rfl
    have h := syncHooks_of_sync h
    simp only [syncHooks, Option.ite_none_right_eq_some] at h
    rw [h.1] at hlocks
    cases hlocks

theorem waits_of_reachable {ok : Object (TcpServerCaller C) (TcpServer C) →
      ObjectAction (TcpServerCaller C) (TcpServerAction C) → Prop}
    {s : Object (TcpServerCaller C) (TcpServer C)}
    (hr : (TCPServer_V2 C).system.ReachableBy ok s) : Waits s.ext := by
  refine ReachableBy.invariant (P := fun s => Waits s.ext) ?_ (fun s a t hr hx _ hs => ?_) hr
  · exact ⟨(fun _ h => by cases h), (fun h => by cases h), (fun _ h => by cases h)⟩
  · cases a with
    | base a =>
      obtain ⟨hb, hy⟩ := Derived.step_base.mp hs
      refine hx.sync ?_ hy
      rintro c rfl
      exact idle_of_stopSection hr hb
    | own a => exact hx.own (Derived.step_own.mp hs).2

theorem LoopMove.ne_stopping {stopRequested : Bool} {descriptor : Option Nat}
    {hook hook' : TcpServerHook} {a : TcpServerAction C}
    (h : LoopMove stopRequested descriptor hook a hook') : hook' ≠ .stopping := by
  cases h with
  | load => cases descriptor <;> simp
  | continueRunning | interrupted | testStop => cases stopRequested <;> simp
  | acceptInterrupted | acceptFailed | runStopped => simp

/-- No step of the object itself leads to a place where it waits for its own call. -/
theorem own_waits {a : TcpServerAction C} (h : own s o a = some o') :
    (o'.hook = .stopping → o.hook = .stopping) ∧
      (o'.destructor = .stopThread → o.destructor = .stopThread) := by
  obtain ⟨-, h | h | h | h | h | h⟩ := own_cases h
  · rw [(preRun_same h).destructor]
    exact ⟨fun hhook => absurd hhook (TcpServerHook.ne_of_run (preRun_home h).2 _ rfl), id⟩
  · rw [run_destructor h]
    refine ⟨fun hhook => ?_, id⟩
    cases runStep_of_run h with
    | move hmove => exact absurd hhook hmove.ne_stopping
    | @startClientSession r => cases r <;> cases hhook
    | _ => cases hhook
  · rw [(joinLoop_same h).2.1, (joinLoop_same h).2.2.2]
    exact ⟨id, id⟩
  · rw [(handleClient_same h).2.1, (handleClient_same h).2.2.2]
    exact ⟨id, id⟩
  · rw [(stopTriggered_same h).2, (stopTriggered_same h).1.destructor]
    exact ⟨id, id⟩
  · cases a <;> simp only [destroy] at h <;>
      grind -linarith [spliceAll, endLoop, destroyAll, setLoop]

theorem sync_waits {a : BaseAction (TcpServerCaller C)} (h : sync s a o = some o') :
    (o'.hook = .stopping → o.hook = .stopping ∨ ∃ k, a = .call .run k) ∧
      (o'.destructor = .stopThread →
        o.destructor = .stopThread ∨ ∃ k, a = .call .destructor k) := by
  have h := syncHooks_of_sync h
  cases a with
  | call c k =>
    simp only [syncHooks] at h
    cases c <;> simp only [calls] at h <;> grind -linarith [setHook, destroyAll]
  | _ =>
    simp only [syncHooks] at h
    grind -linarith [setHook, setStop]

/-- Who waits for the end of its own call has made it. -/
theorem called_of_reachable {ok : Object (TcpServerCaller C) (TcpServer C) →
      ObjectAction (TcpServerCaller C) (TcpServerAction C) → Prop}
    {s : Object (TcpServerCaller C) (TcpServer C)}
    (hr : (TCPServer_V2 C).system.ReachableBy ok s) :
    (s.ext.hook = .stopping → s.base.caller .run ≠ .idle) ∧
      (s.ext.destructor = .stopThread → s.base.caller .destructor ≠ .idle) :=
  ⟨Derived.called_of_reachable (fun o : TcpServer C => o.hook = .stopping) (fun h => by cases h)
      (fun hy => (sync_waits hy).1) (fun hy => (own_waits hy).1) hr,
    Derived.called_of_reachable (fun o : TcpServer C => o.destructor = .stopThread)
      (fun h => by cases h) (fun hy => (sync_waits hy).2) (fun hy => (own_waits hy).2) hr⟩

end TcpServer

end ThreadComponent
