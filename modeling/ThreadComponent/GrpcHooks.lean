import ThreadComponent.DerivedHooks
import ThreadComponent.GrpcWorker

/-!
# Where the threads of cGenericGrpcWorker stand

The places of its hooks belong to `preRun` or to `run`. gRPC, the stop hook and the
destructor leave the hooks alone, and all but `run` and gRPC leave the operations alone.
-/

set_option autoImplicit false
set_option linter.unusedSectionVars false

namespace ThreadComponent

open Transitions System

/-- The part of `threadRunner` that a place belongs to. `preRun` does not throw. -/
def GrpcHook.home : GrpcHook → Option RunnerPc
  | .idle => none
  | .builder | .addCompletionQueue | .buildAndStart | .storePort _ | .preRunDone (.value _) =>
    some .preRun
  | .preRunDone (.threw _) => some .entry
  | _ => some .run

/-- A field that the new entry has from the old one is what it was, everywhere. -/
theorem field_update {α β : Type} {f : Nat → α} {i : Nat} {x : α} (g : α → β)
    (h : g x = g (f i)) (j : Nat) : g (Function.update f i x j) = g (f j) := by
  by_cases hj : j = i
  · rw [hj, Function.update_self, h]
  · rw [Function.update_of_ne hj]

namespace GrpcWorker
variable {C : Type} [DecidableEq C] {s : BaseWorker (GrpcCaller C)} {o o' : GrpcWorker C}

theorem own_cases {a : GrpcAction C} (h : own s o a = some o') :
    o.preRun a = some o' ∨ run s o a = some o' ∨ o.grpc a = some o' ∨
      o.stopTriggered a = some o' ∨ destroy s o a = some o' := by
  simp only [own, Option.orElse_eq_orElse, Option.orElse_eq_or, Option.or_eq_some_iff] at h
  grind -linarith

@[simp] theorem setHook_hook (hook : GrpcHook) : (o.setHook hook).hook = hook := rfl

@[simp] theorem destroyQueue_hook : o.destroyQueue.hook = o.hook := by
  unfold destroyQueue
  split <;> rfl

@[simp] theorem destroyServer_hook : o.destroyServer.hook = o.hook := by
  unfold destroyServer
  split <;> rfl

/-- The worker's thread is in the hook that its place belongs to. -/
def HookAt (p : RunnerPc) (hook : GrpcHook) : Prop := hook.home = p.hookHome

/-- A step of `run`, with the place that it is taken in. -/
inductive RunStep (s : BaseWorker (GrpcCaller C)) (o : GrpcWorker C) :
    GrpcAction C → GrpcWorker C → Prop where
  | arm {q : Nat} (hhook : o.hook = .arm) (hq : o.mCq = some q) :
    RunStep s o .arm ((o.newCall q).setHook .next)
  | timeout (hhook : o.hook = .next) : RunStep s o .timeout o
  | shutdown {q : Nat} (hhook : o.hook = .next) (hq : o.mCq = some q)
      (hdown : (o.queue q).shutdown = true) (hnone : ∀ op ∈ o.ops, op.queue ≠ q) :
    RunStep s o .shutdown
      ((o.setQueue q { o.queue q with drained := true }).setHook (.runDone (.value true)))
  | event {op : GrpcOp} {ok : Bool} (hhook : o.hook = .next) (hready : op.ready = some ok)
      (hop : op ∈ o.ops) :
    RunStep s o (.event op) ({ o with ops := o.ops.erase op }.setHook (.event op.tag ok))
  | dispatch {tag : Nat} {ok : Bool} (hhook : o.hook = .event tag ok) :
    RunStep s o .dispatch (if ok then o.proceed tag else (o.deleteCall tag).setHook .next)
  | continueRunning {tag : Nat} (hhook : o.hook = .continueRunning tag) :
    RunStep s o .continueRunning
      (o.setHook (if s.stopRequested then .execute tag else .rearm tag))
  | rearm {tag : Nat} (hhook : o.hook = .rearm tag) :
    RunStep s o .rearm ((o.newCall (o.call tag).queue).setHook (.execute tag))
  | executed {r : ExecuteEnd} {tag : Nat} (hhook : o.hook = .execute tag) :
    RunStep s o (.executed r) (o.setHook (.finish tag r.toStatus))
  | executeStopped {tag : Nat} (hhook : o.hook = .requestStop tag) :
    RunStep s o .executeStopped (o.setHook (.execute tag))
  | finish {tag : Nat} {status : GrpcStatus} (hhook : o.hook = .finish tag status) :
    RunStep s o .finish ((o.finishCall tag status).setHook .next)

theorem runStep_of_run {a : GrpcAction C} (h : run s o a = some o') : RunStep s o a o' := by
  cases a with
  | arm =>
    simp only [run] at h
    split at h
    · rename_i q hhook hq
      obtain rfl := Option.some.inj h
      exact .arm hhook hq
    · cases h
  | timeout =>
    simp only [run, Option.ite_none_right_eq_some, Option.some.injEq] at h
    obtain ⟨⟨hhook, -⟩, rfl⟩ := h
    exact .timeout hhook
  | shutdown =>
    simp only [run] at h
    split at h
    · rename_i q hhook hq
      simp only [Option.ite_none_right_eq_some, Option.some.injEq] at h
      obtain ⟨⟨hdown, hnone⟩, rfl⟩ := h
      exact .shutdown hhook hq hdown hnone
    · cases h
  | event op =>
    simp only [run] at h
    split at h
    · rename_i q ok hhook hq hready
      simp only [Option.ite_none_right_eq_some, Option.some.injEq] at h
      obtain ⟨⟨hop, -⟩, rfl⟩ := h
      exact .event hhook hready hop
    · cases h
  | dispatch =>
    simp only [run] at h
    split at h
    · rename_i tag ok hhook
      obtain rfl := Option.some.inj h
      exact .dispatch hhook
    · cases h
  | continueRunning =>
    simp only [run] at h
    split at h
    · rename_i tag hhook
      obtain rfl := Option.some.inj h
      exact .continueRunning hhook
    · cases h
  | rearm =>
    simp only [run] at h
    split at h
    · rename_i tag hhook
      obtain rfl := Option.some.inj h
      exact .rearm hhook
    · cases h
  | executed r =>
    simp only [run] at h
    split at h
    · rename_i tag hhook
      obtain rfl := Option.some.inj h
      exact .executed hhook
    · cases h
  | executeStopped =>
    simp only [run] at h
    split at h
    · rename_i tag _ _ hhook _
      obtain rfl := Option.some.inj h
      exact .executeStopped hhook
    · cases h
  | finish =>
    simp only [run] at h
    split at h
    · rename_i tag status hhook
      obtain rfl := Option.some.inj h
      exact .finish hhook
    · cases h
  | _ => cases h

theorem HookAt.of_home {p q : RunnerPc} {hook : GrpcHook} (h : HookAt p hook)
    (hh : hook.home = some q) : p = q :=
  RunnerPc.of_hookHome (h.symm.trans hh)

theorem HookAt.idle {p : RunnerPc} {hook : GrpcHook} (h : HookAt p hook)
    (hp : p.hookHome = none) : hook = .idle := by
  have hh : hook.home = none := h.trans hp
  cases hook with
  | preRunDone e => cases e <;> cases hh
  | _ => first | rfl | cases hh

theorem preRun_home {a : GrpcAction C} (h : o.preRun a = some o') :
    o.hook.home = some .preRun ∧ o'.hook.home = some .preRun := by
  cases a <;> simp only [preRun] at h <;>
    grind -linarith [GrpcHook.home, setHook, startupFailed, addCompletionQueue]

theorem proceed_home (o : GrpcWorker C) (tag : Nat) : (o.proceed tag).hook.home = some .run := by
  unfold proceed
  split <;> rfl

theorem run_home {a : GrpcAction C} (h : run s o a = some o') :
    o.hook.home = some .run ∧ o'.hook.home = some .run := by
  cases runStep_of_run h with
  | arm hhook | shutdown hhook | event hhook | rearm hhook | executed hhook | executeStopped hhook
  | finish hhook => exact ⟨by rw [hhook]; rfl, rfl⟩
  | timeout hhook => exact ⟨by rw [hhook]; rfl, by rw [hhook]; rfl⟩
  | @dispatch tag ok hhook =>
    refine ⟨by rw [hhook]; rfl, ?_⟩
    cases ok
    · rfl
    · exact proceed_home o tag
  | continueRunning hhook =>
    refine ⟨by rw [hhook]; rfl, ?_⟩
    cases s.stopRequested <;> rfl

theorem grpc_hook {a : GrpcAction C} (h : o.grpc a = some o') : o'.hook = o.hook := by
  cases a <;> simp only [grpc] at h <;> grind -linarith [complete, setServer]

theorem stopTriggered_hook {a : GrpcAction C} (h : o.stopTriggered a = some o') :
    o'.hook = o.hook := by
  cases a <;> simp only [stopTriggered] at h <;> grind -linarith [setServer, setQueue, setStop]

theorem destroy_hook {a : GrpcAction C} (h : destroy s o a = some o') : o'.hook = o.hook := by
  cases a <;> simp only [destroy] at h <;> grind -linarith [destroyQueue_hook, destroyServer_hook]

/-- The members that only `preRun`, the stop hook and the destructor change. -/
structure SameOutside (o o' : GrpcWorker C) : Prop where
  mBoundPort : o'.mBoundPort = o.mBoundPort
  mCq : o'.mCq = o.mCq
  mServer : o'.mServer = o.mServer
  queues : o'.queues = o.queues
  stop : o'.stop = o.stop
  destructor : o'.destructor = o.destructor

theorem SameOutside.refl : SameOutside o o := ⟨rfl, rfl, rfl, rfl, rfl, rfl⟩

theorem SameOutside.setHook (h : SameOutside o o') (hook : GrpcHook) :
    SameOutside o (o'.setHook hook) :=
  ⟨h.mBoundPort, h.mCq, h.mServer, h.queues, h.stop, h.destructor⟩

theorem SameOutside.setQueue (h : SameOutside o o') (q : Nat) (x : CompletionQueue) :
    SameOutside o (o'.setQueue q x) :=
  ⟨h.mBoundPort, h.mCq, h.mServer, h.queues, h.stop, h.destructor⟩

theorem SameOutside.setCall (h : SameOutside o o') (tag : Nat) (x : CallData) :
    SameOutside o (o'.setCall tag x) :=
  ⟨h.mBoundPort, h.mCq, h.mServer, h.queues, h.stop, h.destructor⟩

theorem SameOutside.submit (h : SameOutside o o') (op : GrpcOp) :
    SameOutside o (o'.submit op) := by
  have hops : SameOutside o { o' with ops := o'.ops ++ [op] } :=
    ⟨h.mBoundPort, h.mCq, h.mServer, h.queues, h.stop, h.destructor⟩
  exact hops.setQueue _ _

theorem SameOutside.armCall (h : SameOutside o o') (tag : Nat) : SameOutside o (o'.armCall tag) :=
  (h.setCall tag _).submit _

theorem SameOutside.newCall (h : SameOutside o o') (q : Nat) : SameOutside o (o'.newCall q) := by
  have hallocated : SameOutside o { o' with allocated := o'.allocated + 1 } :=
    ⟨h.mBoundPort, h.mCq, h.mServer, h.queues, h.stop, h.destructor⟩
  exact (hallocated.setCall _ _).armCall _

theorem SameOutside.proceed (h : SameOutside o o') (tag : Nat) :
    SameOutside o (o'.proceed tag) := by
  unfold GrpcWorker.proceed
  split
  · exact (h.armCall tag).setHook _
  · exact h.setHook _
  · exact (h.setCall tag _).setHook _

theorem run_sameOutside {a : GrpcAction C} (h : run s o a = some o') : SameOutside o o' := by
  have hrefl : SameOutside o o := .refl
  cases runStep_of_run h with
  | arm | rearm => exact (hrefl.newCall _).setHook _
  | continueRunning | executed | executeStopped => exact hrefl.setHook _
  | finish => exact ((hrefl.setCall _ _).submit _).setHook _
  | timeout => exact hrefl
  | shutdown => exact (hrefl.setQueue _ _).setHook _
  | event => exact ⟨rfl, rfl, rfl, rfl, rfl, rfl⟩
  | dispatch =>
    split
    · exact hrefl.proceed _
    · exact (hrefl.setCall _ _).setHook _

theorem grpc_sameOutside {a : GrpcAction C} (h : o.grpc a = some o') : SameOutside o o' := by
  cases a with
  | receive op | failRequest op | finished op ok =>
    simp only [grpc, Option.ite_none_right_eq_some, Option.some.injEq] at h
    obtain ⟨-, rfl⟩ := h
    exact ⟨rfl, rfl, rfl, rfl, rfl, rfl⟩
  | _ => cases h

theorem preRun_same {a : GrpcAction C} (h : o.preRun a = some o') :
    o'.stop = o.stop ∧ o'.destructor = o.destructor := by
  cases a <;> simp only [preRun] at h <;>
    grind -linarith [setHook, startupFailed, addCompletionQueue, destroyQueue, destroyServer,
      setQueue, setServer]

theorem own_home {a : GrpcAction C} (h : own s o a = some o') :
    o'.hook.home = o.hook.home := by
  rcases own_cases h with h | h | h | h | h
  · exact (preRun_home h).2.trans (preRun_home h).1.symm
  · exact (run_home h).2.trans (run_home h).1.symm
  · rw [grpc_hook h]
  · rw [stopTriggered_hook h]
  · rw [destroy_hook h]

theorem calls_home {c : GrpcCaller C} {k : Call} (h : o.calls c k = some o') :
    o'.hook.home = o.hook.home := by
  cases c <;> simp only [calls] at h <;> grind -linarith [GrpcHook.home, setHook]

theorem sync_home {a : BaseAction (GrpcCaller C)} (h : sync s a o = some o') :
    o'.hook.home = a.hookHome o.hook.home := by
  cases a with
  | call c k => exact calls_home h
  | _ =>
    simp only [sync] at h
    grind -linarith [BaseAction.hookHome, GrpcHook.home, setHook, setStop]

theorem hookAt_of_reachable {ok : Object (GrpcCaller C) (GrpcWorker C) →
      ObjectAction (GrpcCaller C) (GrpcAction C) → Prop}
    {s : Object (GrpcCaller C) (GrpcWorker C)}
    (hr : (cGenericGrpcWorker C).system.ReachableBy ok s) : HookAt s.base.current s.ext.hook :=
  Derived.hookHome_of_reachable (fun o : GrpcWorker C => o.hook.home) rfl sync_home own_home hr

end GrpcWorker

end ThreadComponent
