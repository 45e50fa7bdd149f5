import ThreadComponent.TcpServerShutdown
import ThreadComponent.TcpServerSystemCalls

/-!
# Where TCPServer_V2 comes to rest

Behind a stop some thread can always go on, until every call has returned, the run has ended
and no handler is left: nobody waits for a mutex or a thread in a circle. System calls and data
callbacks are taken to return by themselves; a callback that calls `stopThreadAndJoin` on its
own server waits for itself.
-/

set_option autoImplicit false
set_option linter.unusedSectionVars false

namespace ThreadComponent

open Transitions System

namespace TcpServer
variable {C : Type} [DecidableEq C] {s t : BaseWorker (TcpServerCaller C)} {o o' : TcpServer C}
  {x : Object (TcpServerCaller C) (TcpServer C)}

/-- Every call has returned, no run is live, no handler is running, and a destructor that has
begun has come to its end. -/
structure AtRest (x : Object (TcpServerCaller C) (TcpServer C)) : Prop where
  base : x.base.AtRest
  hook : x.ext.hook = .idle
  stops : ∀ c, x.ext.stop c = .idle
  handlers : ∀ i, (x.ext.session i).handler.running = false
  destructor : x.ext.destructor = .idle ∨ x.ext.destructor = .inBase

/-- Some step inside the object is possible. -/
abbrev Enabled (x : Object (TcpServerCaller C) (TcpServer C)) : Prop :=
  (TCPServer_V2 C).system.Enabled Inner x

theorem permits (hterm : x.ext.terminated = false) : (TCPServer_V2 C).Permits Inner x := by
  intro a ha
  refine ⟨ObjectAction.among_of_apart ha, ?_⟩
  cases a with
  | call | preRunEnd | runEnd | stopTriggeredEnd => cases ha
  | _ => simp [TCPServer_V2, sync, hterm, syncHooks]

theorem Enabled.of_base {a : BaseAction (TcpServerCaller C)} (hterm : x.ext.terminated = false)
    (hin : Inner x (.base a)) (hb : x.base.step a ≠ none)
    (hy : syncHooks x.base a x.ext ≠ none) : Enabled x :=
  Derived.enabled_of_base hin hb (by simpa [TCPServer_V2, sync, hterm] using hy)

theorem Enabled.of_own (a : TcpServerAction C) (hterm : x.ext.terminated = false)
    (h : x.ext.preRun a ≠ none ∨ run x.base x.ext a ≠ none ∨ x.ext.joinLoop a ≠ none ∨
      handleClient x.base x.ext a ≠ none ∨ x.ext.stopTriggered a ≠ none ∨
      destroy x.base x.ext a ≠ none) : Enabled x := by
  have hown : own x.base x.ext a ≠ none := by
    simp only [own, hterm, Bool.false_eq_true, if_false, ne_eq, Option.orElse_eq_orElse,
      Option.orElse_eq_or, Option.or_eq_none_iff]
    grind -linarith
  exact Derived.enabled_of_own rfl hown

/-! ## Stop hooks, handlers and joiners -/

/-- Who holds the mutex is about to give it back. -/
theorem holder_enabled {c : TcpServerCaller C} (hterm : x.ext.terminated = false)
    (hc : (x.ext.stop c).locks = true) : Enabled x := by
  cases hat : x.ext.stop c with
  | clients todo =>
    cases todo with
    | nil => exact .of_own (.stopUnlock c) hterm (by simp [stopTriggered, hat])
    | cons i todo => exact .of_own (.stopClientExchange c) hterm (by simp [stopTriggered, hat])
  | closeClient todo => exact .of_own (.stopClientClose c) hterm (by simp [stopTriggered, hat])
  | _ =>
    rw [hat] at hc
    cases hc

theorem stop_enabled {c : TcpServerCaller C} (hr : (TCPServer_V2 C).system.Reachable x)
    (hterm : x.ext.terminated = false) (hfree : x.ext.mClientsMutex = none)
    (hc : x.ext.stop c ≠ .idle) : Enabled x := by
  cases hat : x.ext.stop c with
  | idle => exact absurd hat hc
  | exchange => exact .of_own (.stopExchange c) hterm (by simp [stopTriggered, hat])
  | close => exact .of_own (.stopClose c) hterm (by simp [stopTriggered, hat])
  | lock => exact .of_own (.stopLock c) hterm (by simp [stopTriggered, hat, hfree])
  | clients todo | closeClient todo => exact holder_enabled hterm (by rw [hat]; rfl)
  | done =>
    obtain ⟨k, hk⟩ := (stop_iff_of_reachable hr c).mp hc
    exact .of_base (a := .stopTriggeredEnd c) hterm rfl (by simp [BaseWorker.step, hk])
      (by simp [syncHooks, hat])

/-- A handler waits for nobody. -/
theorem handler_enabled {i : Nat} (hterm : x.ext.terminated = false)
    (hi : (x.ext.session i).handler.running = true) : Enabled x := by
  cases hat : (x.ext.session i).handler with
  | absent | exited =>
    rw [hat] at hi
    cases hi
  | entry => exact .of_own (.handlerBuffer i true) hterm (by simp [handleClient, hat])
  | continueRunning =>
    exact .of_own (.handlerContinueRunning i) hterm (by simp [handleClient, hat])
  | load => exact .of_own (.handlerLoad i) hterm (by simp [handleClient, hat])
  | recv clientSocket => exact .of_own (.handlerRecv i .ended) hterm (by simp [handleClient, hat])
  | callback => exact .of_own (.handlerCallback i false) hterm (by simp [handleClient, hat])
  | exchange => exact .of_own (.handlerExchange i) hterm (by simp [handleClient, hat])
  | close => exact .of_own (.handlerClose i) hterm (by simp [handleClient, hat])
  | complete => exact .of_own (.handlerComplete i) hterm (by simp [handleClient, hat])
  | returning => exact .of_own (.handlerReturn i) hterm (by simp [handleClient, hat])

/-- A joiner waits for handlers only. -/
theorem joiner_enabled {j : Joiner} (hr : (TCPServer_V2 C).system.Reachable x)
    (hterm : x.ext.terminated = false)
    (hhandlers : ∀ i, (x.ext.session i).handler.running = false)
    (htodo : (x.ext.loop j).todo ≠ []) : Enabled x := by
  rcases hl : x.ext.loop j with ⟨joined, todo, pc⟩
  rw [hl] at htodo
  obtain ⟨i, todo, rfl⟩ := List.exists_cons_of_ne_nil htodo
  cases pc with
  | exchange => exact .of_own (.loopExchange j) hterm (by simp [joinLoop, hl])
  | close => exact .of_own (.loopClose j) hterm (by simp [joinLoop, hl])
  | join =>
    have hexited : (x.ext.session i).worker = true → (x.ext.session i).handler = .exited := by
      intro hworker
      have hstarted := (waits_of_reachable hr).worker i hworker
      have hended := hhandlers i
      revert hstarted hended
      cases (x.ext.session i).handler <;> simp [HandlerPc.running]
    refine .of_own (.loopJoin j) hterm (.inr (.inr (.inl ?_)))
    simp only [joinLoop, hl]
    rw [if_neg fun hwait => hwait.2 (hexited hwait.1)]
    simp

/-! ## The worker's thread -/

/-- The accept loop makes one call, `requestStop`. -/
theorem stopsItself_of_reachable {ok : Object (TcpServerCaller C) (TcpServer C) →
      ObjectAction (TcpServerCaller C) (TcpServerAction C) → Prop}
    (hr : (TCPServer_V2 C).system.ReachableBy ok x) : StopsItself (x.base.caller .run) := by
  refine Derived.stopsItself_of_reachable (fun {s k o o'} hy => ?_) hr
  have hcalls : o.calls .run k = some o' := syncHooks_of_sync hy
  simp only [calls, Option.ite_none_right_eq_some] at hcalls
  exact hcalls.1.2

/-- The accept loop waits for its own call, for handlers and for the mutex. -/
theorem hook_enabled (hr : (TCPServer_V2 C).system.Reachable x)
    (hterm : x.ext.terminated = false) (hfree : x.ext.mClientsMutex = none)
    (hstops : ∀ c, x.ext.stop c = .idle)
    (hhandlers : ∀ i, (x.ext.session i).handler.running = false)
    (hne : x.ext.hook ≠ .idle) : Enabled x := by
  have hat := hookAt_of_reachable hr
  have hcall : (x.base.caller .run).free = false → Enabled x := by
    apply (permits hterm).enabled_of_stopsItself (stopsItself_of_reachable hr)
    intro k hk
    exact (stop_iff_of_reachable hr .run).mpr ⟨k, hk⟩ (hstops .run)
  cases hhook : x.ext.hook with
  | idle => exact absurd hhook hne
  | openSocket => exact .of_own (.openSocket true) hterm (by simp [preRun, hhook])
  | storeSocket => exact .of_own .storeSocket hterm (by simp [preRun, hhook])
  | bind => exact .of_own (.bind true) hterm (by simp [preRun, hhook])
  | listen => exact .of_own (.listen true) hterm (by simp [preRun, hhook])
  | exchange => exact .of_own .exchange hterm (by simp [preRun, hhook])
  | close => exact .of_own .close hterm (by simp [preRun, hhook])
  | preRunDone e =>
    have hhome : x.ext.hook.home = x.base.current.hookHome := hat
    rw [hhook] at hhome
    cases e with
    | value b =>
      exact Derived.enabled_of_preRun (b := b) (RunnerPc.of_hookHome hhome.symm) rfl
        (by simp [TCPServer_V2, sync, hterm, syncHooks, hhook])
    | threw e => exact absurd hhome.symm (RunnerPc.hookHome_ne_entry _)
  | continueRunning => exact .of_own .continueRunning hterm (by simp [run, hhook])
  | reapCompletedClients =>
    exact .of_own .reapCompletedClients hterm (by simp [run, hhook, hfree])
  | reaping =>
    by_cases htodo : (x.ext.loop .run).todo = []
    · exact .of_own .reaped hterm (by simp [run, hhook, htodo])
    · exact joiner_enabled hr hterm hhandlers htodo
  | load => exact .of_own .load hterm (by simp [run, hhook])
  | accept serverSocket => exact .of_own (.accept .failed) hterm (by simp [run, hhook])
  | interrupted => exact .of_own .interrupted hterm (by simp [run, hhook])
  | testStop => exact .of_own .testStop hterm (by simp [run, hhook])
  | requestStop =>
    cases hbusy : (x.base.caller .run).free with
    | false => exact hcall hbusy
    | true =>
      exact .of_base (a := .call .run .requestStop) hterm rfl
        (by simp [BaseWorker.step, hbusy]) (by simp [syncHooks, calls, hhook])
  | stopping =>
    cases hp : x.base.caller .run with
    | idle => exact absurd hp ((called_of_reachable hr).1 hhook)
    | returned k b => exact .of_own .runStopped hterm (by simp [run, hhook, hp])
    | _ => exact hcall (by rw [hp]; rfl)
  | makeClientInfo => exact .of_own (.makeClientInfo none) hterm (by simp [run, hhook])
  | startClientSession =>
    obtain ⟨i, hi⟩ := Option.ne_none_iff_exists'.mp
      ((waits_of_reachable hr).holding (by rw [hhook]; rfl))
    exact .of_own (.startClientSession .notAdded) hterm (by simp [run, hhook, hi, hfree])
  | closeSocketValue => exact .of_own .closeSocketValue hterm (by simp [run, hhook])
  | joinAndClearAllClients =>
    exact .of_own .joinAndClearAllClients hterm (by simp [run, hhook, hfree])
  | joining =>
    by_cases htodo : (x.ext.loop .run).todo = []
    · exact .of_own .joined hterm (by simp [run, hhook, htodo])
    · exact joiner_enabled hr hterm hhandlers htodo
  | exchangeServer => exact .of_own .exchangeServer hterm (by simp [run, hhook])
  | closeServer => exact .of_own .closeServer hterm (by simp [run, hhook])
  | runDone e =>
    exact Derived.enabled_of_run (e := e) (hat.of_home (by rw [hhook]; rfl)) rfl
      (by simp [TCPServer_V2, sync, hterm, syncHooks, hhook])

/-! ## Calling threads and the destructor -/

theorem destructor_enabled (hr : (TCPServer_V2 C).system.Reachable x)
    (hterm : x.ext.terminated = false) (hfree : x.ext.mClientsMutex = none)
    (hhandlers : ∀ i, (x.ext.session i).handler.running = false)
    (hcallers : ∀ c, (x.base.caller c).free = true)
    (hbegun : x.ext.destructor ≠ .idle) (hended : x.ext.destructor ≠ .inBase) : Enabled x := by
  cases hdtor : x.ext.destructor with
  | idle => exact absurd hdtor hbegun
  | inBase => exact absurd hdtor hended
  | stopThread =>
    have hcalled := (called_of_reachable hr).2 hdtor
    have hreturned := hcallers .destructor
    cases hp : x.base.caller .destructor with
    | idle => exact absurd hp hcalled
    | returned k b => exact .of_own .destructorStopped hterm (by simp [destroy, hdtor, hp])
    | _ =>
      rw [hp] at hreturned
      cases hreturned
  | exchange => exact .of_own .destructorExchange hterm (by simp [destroy, hdtor])
  | close => exact .of_own .destructorClose hterm (by simp [destroy, hdtor])
  | joinAndClearAllClients =>
    exact .of_own .destructorJoinAndClear hterm (by simp [destroy, hdtor, hfree])
  | joining =>
    by_cases htodo : (x.ext.loop .destructor).todo = []
    · exact .of_own .destructorJoined hterm (by simp [destroy, hdtor, htodo])
    · exact joiner_enabled hr hterm hhandlers htodo
  | base =>
    exact .of_base (a := .call .destructor .destructor) hterm rfl
      (by simp [BaseWorker.step, hcallers .destructor]) (by simp [syncHooks, calls, hdtor])

theorem atRest_of_still (hr : (TCPServer_V2 C).system.Reachable x)
    (hterm : x.ext.terminated = false) (hstill : (TCPServer_V2 C).system.Still Inner x) :
    AtRest x := by
  have hnot : ¬ Enabled x := hstill.not_enabled
  have hfree : x.ext.mClientsMutex = none := by
    by_contra hheld
    obtain ⟨c, hc⟩ := Option.ne_none_iff_exists'.mp hheld
    exact hnot (holder_enabled hterm ((waits_of_reachable hr).mutex c hc))
  have hstops : ∀ c, x.ext.stop c = .idle := by
    intro c
    by_contra hne
    exact hnot (stop_enabled hr hterm hfree hne)
  have hhandlers : ∀ i, (x.ext.session i).handler.running = false := by
    intro i
    by_contra hrun
    exact hnot (handler_enabled hterm (by simpa using hrun))
  have hhook : x.ext.hook = .idle := by
    by_contra hne
    exact hnot (hook_enabled hr hterm hfree hstops hhandlers hne)
  have hbase : x.base.AtRest := by
    refine (permits hterm).atRest hr ?_ (fun c k hc => ?_) hnot
    · exact (hookAt_of_reachable hr).symm.trans (by rw [hhook]; rfl)
    · exact (stop_iff_of_reachable hr c).mpr ⟨k, hc⟩ (hstops c)
  refine ⟨hbase, hhook, hstops, hhandlers, ?_⟩
  by_contra hunder
  rw [not_or] at hunder
  exact hnot (destructor_enabled hr hterm hfree hhandlers hbase.callers hunder.1 hunder.2)

/-! ## Runs -/

/-- From every reachable state in which a stop is requested and nobody is about to launch a
run, the server comes to its end: the accept loop, the handlers, the stop hooks, the calls that
are under way and a destructor that has begun take a bounded number of steps in whatever order,
and they stop only at rest, unless a session was destroyed with its thread joinable. -/
theorem server_comes_to_rest (hr : (TCPServer_V2 C).system.Reachable x)
    (hstop : x.base.Stopping) :
    (∃ n, ∀ as y, (TCPServer_V2 C).system.replay Inner x as = some y → as.length ≤ n) ∧
      (∀ y, (TCPServer_V2 C).system.Reaches Inner x y →
        (TCPServer_V2 C).system.Still Inner y → y.ext.terminated = true ∨ AtRest y) ∧
      ∃ y, (TCPServer_V2 C).system.Reaches Inner x y ∧
        (y.ext.terminated = true ∨ AtRest y) := by
  have hrest : ∀ y, (TCPServer_V2 C).system.Reaches Inner x y →
      (TCPServer_V2 C).system.Still Inner y → y.ext.terminated = true ∨ AtRest y := by
    intro y hrun hstill
    cases hterm : y.ext.terminated with
    | true => exact .inl rfl
    | false => exact .inr (atRest_of_still (hr.trans hrun.free) hterm hstill)
  obtain ⟨busy, hown, hx⟩ :=
    Derived.shuttingDown_of_stopping hr hstop {.run, .destructor}
  refine ⟨⟨rank busy x.base x.ext, fun as y hrun => ?_⟩, hrest, ?_⟩
  · have hle := (ranked hown).length_le hx hrun
    omega
  · obtain ⟨y, hrun, -, hstill⟩ := (ranked hown).exists_still hx
    exact ⟨y, hrun, hrest y hrun hstill⟩

/-- The destructor has begun while the handler of a client receives and thread `true` is in the
stop hook, with the mutex. -/
def underwaySchedule : List (ObjectAction (TcpServerCaller Bool) (TcpServerAction Bool)) :=
  openedSchedule ++ listeningSchedule ++ acceptSchedule ++ receivingSchedule ++
    [.base (.call .destructor (.stopThread true))] ++ closingSchedule

theorem server_comes_to_rest_underway :
    let S := (TCPServer_V2 Bool).system
    let x := S.after Free S.init underwaySchedule
    x.ext.mClientsMutex = some (.user true) ∧ (x.ext.session 0).handler = .recv 0 ∧
      x.ext.destructor = .stopThread ∧
      ∃ y, S.Reaches Inner x y ∧ (y.ext.terminated = true ∨ AtRest y) := by
  intro S x
  have hr : S.Reachable x := reaches_after (by decide)
  have hstop : x.base.Stopping := by
    refine ⟨by decide, fun c => ?_⟩
    cases c with
    | user b => cases b <;> decide
    | run | destructor => decide
  exact ⟨by decide, by decide, by decide, (server_comes_to_rest hr hstop).2.2⟩

end TcpServer

end ThreadComponent
