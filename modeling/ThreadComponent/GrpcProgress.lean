import ThreadComponent.GrpcShutdown

/-!
# Where cGenericGrpcWorker comes to rest

Behind a stop some thread can always go on, until every RPC that was received has finished, the
queue is drained, the run has ended and every call has returned. Two defects of the class are in
the way: `OnExecuteRpc` that stops its own worker, and a destructor that does not wait for `run`.
-/

set_option autoImplicit false
set_option linter.unusedSectionVars false

namespace ThreadComponent

open Transitions System

namespace GrpcWorker
variable {C : Type} [DecidableEq C] {s t : BaseWorker (GrpcCaller C)} {o o' : GrpcWorker C}
  {x : Object (GrpcCaller C) (GrpcWorker C)}

/-- Every call has returned, no run is live, nothing is outstanding, the servers have no RPC that
has not finished, and a destructor that has begun has come to its end. -/
structure AtRest (x : Object (GrpcCaller C) (GrpcWorker C)) : Prop where
  base : x.base.AtRest
  hook : x.ext.hook = .idle
  stops : ∀ c, x.ext.stop c = .idle
  ops : x.ext.ops = []
  received : ∀ i, (x.ext.server i).received = []
  destructor : x.ext.destructor = .idle ∨ x.ext.destructor = .inBase

/-- The destructor has given up on `run` and has destroyed the queue that `run` asks next. -/
def Robbed (o : GrpcWorker C) : Prop := (o.hook = .arm ∨ o.hook = .next) ∧ o.mCq = none

/-- A step inside the object that is no timeout and no call of `requestStop` by `OnExecuteRpc`. -/
def Driven (x : Object (GrpcCaller C) (GrpcWorker C))
    (a : ObjectAction (GrpcCaller C) (GrpcAction C)) : Prop :=
  Inner x a ∧ back a = false

abbrev Enabled (x : Object (GrpcCaller C) (GrpcWorker C)) : Prop :=
  (cGenericGrpcWorker C).system.Enabled Driven x

theorem permits : (cGenericGrpcWorker C).Permits Driven x := by
  intro a ha
  refine ⟨⟨ObjectAction.among_of_apart ha, ?_⟩, ?_⟩ <;> cases a with
  | call | preRunEnd | runEnd | stopTriggeredEnd => cases ha
  | _ => simp [back, cGenericGrpcWorker, GrpcWorker.sync]

theorem Enabled.of_own (a : GrpcAction C) (hin : Driven x (.own a))
    (h : x.ext.preRun a ≠ none ∨ run x.base x.ext a ≠ none ∨ x.ext.grpc a ≠ none ∨
      x.ext.stopTriggered a ≠ none ∨ destroy x.base x.ext a ≠ none) : Enabled x := by
  have hown : own x.base x.ext a ≠ none := by
    simp only [own, ne_eq, Option.orElse_eq_orElse, Option.orElse_eq_or, Option.or_eq_none_iff]
    grind -linarith
  exact Derived.enabled_of_own hin hown

/-! ## gRPC and the stop hooks -/

theorem op_enabled {op : GrpcOp} (hop : op ∈ x.ext.ops) (hready : op.ready = none) :
    Enabled x := by
  cases hkind : op.kind with
  | finish =>
    exact .of_own (.finished op true) ⟨rfl, rfl⟩ (by simp [GrpcWorker.grpc, hop, hkind, hready])
  | request =>
    cases hdown : (x.ext.server op.queue).shutdown with
    | true =>
      exact .of_own (.failRequest op) ⟨rfl, rfl⟩
        (by simp [GrpcWorker.grpc, hop, hkind, hready, hdown])
    | false =>
      exact .of_own (.receive op) ⟨rfl, rfl⟩
        (by simp [GrpcWorker.grpc, hop, hkind, hready, hdown])

/-- `Shutdown` is the only wait of the stop hook. -/
theorem stop_enabled {c : GrpcCaller C} (hr : (cGenericGrpcWorker C).system.Reachable x)
    (hwait : ∀ i, x.ext.stop c = .wait i → (x.ext.server i).received = [])
    (hc : x.ext.stop c ≠ .idle) : Enabled x := by
  cases hat : x.ext.stop c with
  | idle => exact absurd hat hc
  | server =>
    exact .of_own (.stopServer c) ⟨rfl, rfl⟩ (by simp [GrpcWorker.stopTriggered, hat])
  | wait i =>
    exact .of_own (.stopWait c) ⟨rfl, rfl⟩
      (by simp [GrpcWorker.stopTriggered, hat, hwait i hat])
  | queue =>
    exact .of_own (.stopQueue c) ⟨rfl, rfl⟩ (by simp [GrpcWorker.stopTriggered, hat])
  | done =>
    obtain ⟨k, hk⟩ := (stop_iff_of_reachable hr c).mp hc
    exact Derived.enabled_of_base (a := .stopTriggeredEnd c) ⟨rfl, rfl⟩
      (by simp [BaseWorker.step, hk]) (by simp [cGenericGrpcWorker, GrpcWorker.sync, hat])

/-- With nothing outstanding and nothing in hand there is nothing to wait for. -/
theorem received_nil (hr : (cGenericGrpcWorker C).system.Reachable x) (hops : x.ext.ops = [])
    (hbusy : x.ext.hook.busy = none) (i : Nat) : (x.ext.server i).received = [] :=
  (served_of_reachable hr).received_nil hops (fun _ => not_awaits_of_nothing hops hbusy) i

/-! ## The thread of the run -/

/-- `AsyncNext` has an event to hand out, or somebody brings it one. -/
theorem next_enabled {q : Nat} (hr : (cGenericGrpcWorker C).system.Reachable x)
    (hclosing : Closing x.base x.ext) (hflag : x.base.stopRequested = true)
    (hhook : x.ext.hook = .next) (hq : x.ext.mCq = some q) : Enabled x := by
  have hown : Owned x.ext := owned_of_reachable hr
  cases hops : x.ext.ops with
  | nil =>
    cases hdown : (x.ext.queue q).shutdown with
    | true =>
      exact .of_own .shutdown ⟨rfl, rfl⟩ (by simp [GrpcWorker.run, hhook, hq, hdown, hops])
    | false =>
      have hcurrent : x.base.current = .run :=
        (hookAt_of_reachable hr).of_home (by rw [hhook]; rfl)
      rcases hclosing hflag (by rw [hcurrent]; rfl) with hall | ⟨c, hc⟩
      · rw [hall q hq] at hdown
        cases hdown
      · refine stop_enabled (c := c) hr
          (fun i _ => received_nil hr hops (by rw [hhook]; rfl) i) ?_
        intro hidle
        rw [hidle] at hc
        cases hc
  | cons op ops =>
    have hop : op ∈ x.ext.ops := by simp [hops]
    cases hready : op.ready with
    | none => exact op_enabled hop hready
    | some ok =>
      have hqueue : op.queue = q := by
        have hlatest := (hown.queue op hop).1
        have hcq := hown.cq q hq
        omega
      exact .of_own (.event op) ⟨rfl, rfl⟩
        (by simp [GrpcWorker.run, hhook, hq, hready, hop, hqueue])

/-- `OnExecuteRpc` comes back from `requestStop`, if its thread does not wait in `Shutdown`. -/
theorem requestStop_enabled {tag : Nat} (hr : (cGenericGrpcWorker C).system.Reachable x)
    (hblocked : ¬ SelfBlocked x.ext) (hhook : x.ext.hook = .requestStop tag) : Enabled x := by
  have hcalled : x.base.caller .run ≠ .idle := called_of_reachable (c := .run) hr ⟨tag, hhook⟩
  by_cases hstop : x.ext.stop .run = .idle
  · have hpart : (x.base.caller .run).free = false → Enabled x := by
      apply permits.enabled_of_stopsItself (stopsItself_of_reachable hr)
      intro k hk
      exact (stop_iff_of_reachable hr .run).mpr ⟨k, hk⟩ hstop
    cases hp : x.base.caller .run with
    | idle => exact absurd hp hcalled
    | returned k b =>
      exact .of_own .executeStopped ⟨rfl, rfl⟩ (by simp [GrpcWorker.run, hhook, hp])
    | _ => exact hpart (by rw [hp]; rfl)
  · refine stop_enabled hr (fun i hwait => ?_) hstop
    exact absurd (selfBlocked_of_wait hr hwait) hblocked

theorem hook_enabled (hr : (cGenericGrpcWorker C).system.Reachable x)
    (hclosing : Closing x.base x.ext) (hflag : x.base.stopRequested = true)
    (hblocked : ¬ SelfBlocked x.ext) (hrobbed : ¬ Robbed x.ext) (hne : x.ext.hook ≠ .idle) :
    Enabled x := by
  have hat := hookAt_of_reachable hr
  cases hhook : x.ext.hook with
  | idle => exact absurd hhook hne
  | builder =>
    exact .of_own (.builder none) ⟨rfl, rfl⟩ (by simp [GrpcWorker.preRun, hhook])
  | addCompletionQueue =>
    exact .of_own (.addCompletionQueue none) ⟨rfl, rfl⟩ (by simp [GrpcWorker.preRun, hhook])
  | buildAndStart =>
    exact .of_own (.buildAndStart .null) ⟨rfl, rfl⟩ (by simp [GrpcWorker.preRun, hhook])
  | storePort port =>
    exact .of_own .storePort ⟨rfl, rfl⟩ (by simp [GrpcWorker.preRun, hhook])
  | preRunDone e =>
    have hhome : x.ext.hook.home = x.base.current.hookHome := hat
    rw [hhook] at hhome
    cases e with
    | value b =>
      exact Derived.enabled_of_preRun (b := b) (RunnerPc.of_hookHome hhome.symm) ⟨rfl, rfl⟩
        (by simp [cGenericGrpcWorker, GrpcWorker.sync, hhook])
    | threw e => exact absurd hhome.symm (RunnerPc.hookHome_ne_entry _)
  | arm =>
    cases hq : x.ext.mCq with
    | none => exact absurd ⟨.inl hhook, hq⟩ hrobbed
    | some q => exact .of_own .arm ⟨rfl, rfl⟩ (by simp [GrpcWorker.run, hhook, hq])
  | next =>
    cases hq : x.ext.mCq with
    | none => exact absurd ⟨.inr hhook, hq⟩ hrobbed
    | some q => exact next_enabled hr hclosing hflag hhook hq
  | event tag ok => exact .of_own .dispatch ⟨rfl, rfl⟩ (by simp [GrpcWorker.run, hhook])
  | continueRunning tag =>
    exact .of_own .continueRunning ⟨rfl, rfl⟩ (by simp [GrpcWorker.run, hhook])
  | rearm tag => exact .of_own .rearm ⟨rfl, rfl⟩ (by simp [GrpcWorker.run, hhook])
  | execute tag =>
    exact .of_own (.executed (.status ⟨0, ""⟩)) ⟨rfl, rfl⟩ (by simp [GrpcWorker.run, hhook])
  | requestStop tag => exact requestStop_enabled hr hblocked hhook
  | finish tag status => exact .of_own .finish ⟨rfl, rfl⟩ (by simp [GrpcWorker.run, hhook])
  | runDone e =>
    exact Derived.enabled_of_run (e := e) (hat.of_home (by rw [hhook]; rfl)) ⟨rfl, rfl⟩
      (by simp [cGenericGrpcWorker, GrpcWorker.sync, hhook])

/-! ## Calling threads and the destructor -/

theorem destructor_enabled (hr : (cGenericGrpcWorker C).system.Reachable x)
    (hcallers : ∀ c, (x.base.caller c).free = true)
    (hbegun : x.ext.destructor ≠ .idle) (hended : x.ext.destructor ≠ .inBase) : Enabled x := by
  cases hdtor : x.ext.destructor with
  | idle => exact absurd hdtor hbegun
  | inBase => exact absurd hdtor hended
  | stopThread =>
    have hreturned := hcallers .destructor
    cases hp : x.base.caller .destructor with
    | idle => exact absurd hp (called_of_reachable (c := .destructor) hr hdtor)
    | returned k b =>
      exact .of_own .destructorStopped ⟨rfl, rfl⟩ (by simp [GrpcWorker.destroy, hdtor, hp])
    | _ =>
      rw [hp] at hreturned
      cases hreturned
  | server =>
    exact .of_own .destroyServer ⟨rfl, rfl⟩ (by simp [GrpcWorker.destroy, hdtor])
  | queue =>
    exact .of_own .destroyQueue ⟨rfl, rfl⟩ (by simp [GrpcWorker.destroy, hdtor])
  | base =>
    exact Derived.enabled_of_base (a := .call .destructor .destructor) ⟨rfl, rfl⟩
      (by simp [BaseWorker.step, hcallers .destructor])
      (by simp [cGenericGrpcWorker, GrpcWorker.sync, calls, hdtor])

theorem atRest_of_still (hr : (cGenericGrpcWorker C).system.Reachable x)
    (hclosing : Closing x.base x.ext) (hflag : x.base.stopRequested = true)
    (hblocked : ¬ SelfBlocked x.ext) (hrobbed : ¬ Robbed x.ext)
    (hstill : (cGenericGrpcWorker C).system.Still Driven x) : AtRest x := by
  have hnot : ¬ Enabled x := hstill.not_enabled
  have hhook : x.ext.hook = .idle := by
    by_contra hne
    exact hnot (hook_enabled hr hclosing hflag hblocked hrobbed hne)
  have hops : x.ext.ops = [] := (owned_of_reachable hr).resting (by rw [hhook]; rfl)
  have hreceived : ∀ i, (x.ext.server i).received = [] :=
    received_nil hr hops (by rw [hhook]; rfl)
  have hstops : ∀ c, x.ext.stop c = .idle := by
    intro c
    by_contra hne
    exact hnot (stop_enabled hr (fun i _ => hreceived i) hne)
  have hbase : x.base.AtRest := by
    refine permits.atRest hr ?_ (fun c k hc => ?_) hnot
    · exact (hookAt_of_reachable hr).symm.trans (by rw [hhook]; rfl)
    · exact (stop_iff_of_reachable hr c).mpr ⟨k, hc⟩ (hstops c)
  refine ⟨hbase, hhook, hstops, hops, hreceived, ?_⟩
  by_contra hunder
  rw [not_or] at hunder
  exact hnot (destructor_enabled hr hbase.callers hunder.1 hunder.2)

/-! ## Runs -/

/-- From every reachable state in which a stop is requested, nobody is about to launch a run and
the members are not yet destroyed, the worker comes to its end: `run`, gRPC, the stop hooks, the
calls that are under way and a destructor that has begun take a bounded number of steps in
whatever order, but for a fixed number for each timeout of `AsyncNext` and each call of
`requestStop` from `OnExecuteRpc`. They stop only at rest, with every RPC finished and every
operation handed out, unless the worker's thread waits in `Shutdown` for its own RPC or the
destructor has taken the queue away from `run`. -/
theorem worker_comes_to_rest (hr : (cGenericGrpcWorker C).system.Reachable x)
    (hmembers : x.ext.destructor ≠ .inBase) (hstop : x.base.Stopping) :
    (∃ n, ∀ as y, (cGenericGrpcWorker C).system.replay Inner x as = some y →
      as.length ≤ n + 184 * as.countP back) ∧
      (∀ y, (cGenericGrpcWorker C).system.Reaches Inner x y →
        (cGenericGrpcWorker C).system.Still Driven y →
          SelfBlocked y.ext ∨ Robbed y.ext ∨ AtRest y) ∧
      ∃ y, (cGenericGrpcWorker C).system.Reaches Inner x y ∧
        (SelfBlocked y.ext ∨ Robbed y.ext ∨ AtRest y) := by
  obtain ⟨busy, hown, hshutting⟩ := Derived.shuttingDown_of_stopping hr hstop {.run, .destructor}
  have hx : Leaving busy x := ⟨hshutting, closing_of_reachable hr hmembers⟩
  have hranked : RankedBut (cGenericGrpcWorker C).system Inner back 183 (Leaving busy)
      fun x => rank busy x.base x.ext := rankedBut hown
  have hrest : ∀ y, Leaving busy y → (cGenericGrpcWorker C).system.Still Driven y →
      SelfBlocked y.ext ∨ Robbed y.ext ∨ AtRest y := by
    intro y hy hstill
    by_cases hblocked : SelfBlocked y.ext
    · exact .inl hblocked
    · by_cases hrobbed : Robbed y.ext
      · exact .inr (.inl hrobbed)
      · exact .inr (.inr (atRest_of_still hy.shutting.reachable hy.closing
          hy.shutting.stopping.requested hblocked hrobbed hstill))
  refine ⟨⟨rank busy x.base x.ext, fun as y hrun => ?_⟩, fun y hrun => ?_, ?_⟩
  · have hle := hranked.length_le hx hrun
    omega
  · exact hrest y (hrun.keeps hranked.keeps hx)
  · obtain ⟨y, hrun, hy, hstill⟩ := hranked.ranked.exists_still hx
    exact ⟨y, hrun.mono fun _ _ hin => hin.1, hrest y hy hstill⟩

/-- `OnExecuteRpc` is called for an RPC, and the next listener is armed, when thread `true` stops
the worker and comes to wait in `Shutdown`. -/
def waitingSchedule : List (ObjectAction (GrpcCaller Bool) (GrpcAction Bool)) :=
  builtSchedule ++ receivedSchedule ++
    [.own (.event { tag := 0, queue := 0, kind := .request, ready := some true }),
      .own .dispatch, .own .continueRunning, .own .rearm,
      .base (.call (.user true) .requestStop), .base (.stopSection (.user true)),
      .own (.stopServer (.user true))]

theorem worker_comes_to_rest_executing :
    let S := (cGenericGrpcWorker Bool).system
    let x := S.after Free S.init waitingSchedule
    x.ext.hook = .execute 0 ∧ x.ext.stop (.user true) = .wait 0 ∧ x.ext.ops.length = 1 ∧
      ∃ y, S.Reaches Inner x y ∧ (SelfBlocked y.ext ∨ Robbed y.ext ∨ AtRest y) := by
  intro S x
  have hr : S.Reachable x := reaches_after (by decide)
  have hstop : x.base.Stopping := by
    refine ⟨by decide, fun c => ?_⟩
    cases c with
    | user b => cases b <;> decide
    | run | destructor => decide
  exact ⟨by decide, by decide, by decide, (worker_comes_to_rest hr (by decide) hstop).2.2⟩

end GrpcWorker

end ThreadComponent
