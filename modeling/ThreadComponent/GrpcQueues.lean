import ThreadComponent.Destructor
import ThreadComponent.GrpcSubmissions

/-!
# The completion queues of cGenericGrpcWorker

The queue that `preRun` has made is drained by the `run` that follows. Where no `run` follows,
since the server was not built or a stop came before, the next `preRun` or the destructor
destroys a queue that nobody has drained.
-/

set_option autoImplicit false
set_option linter.unusedSectionVars false

namespace ThreadComponent

open Transitions System

def GrpcHook.filling : GrpcHook → Bool
  | .buildAndStart | .storePort _ | .preRunDone (.value true) | .arm => true
  | hook => hook.serving

def RunnerPc.owing (p : RunnerPc) (hook : GrpcHook) : Bool :=
  p = .checkStop ∨ p = .setRunning ∨ hook.filling

/-- The thread of a run whose stop flag is set makes no queue from there on and leaves none
undrained. -/
def RunnerPc.ended : RunnerPc → Bool
  | .absent | .catching _ | .setStopped | .exited => true
  | _ => false

def GrpcHook.ended : GrpcHook → Bool
  | .preRunDone (.value false) | .runDone _ => true
  | _ => false

def BuildResult.built : BuildResult → Bool
  | .started _ => true
  | _ => false

/-- How far the destructor has come with the `stopThread` of its body. -/
def GrpcDestructor.stage : GrpcDestructor → DestructorStage
  | .idle => .idle
  | .stopThread => .stopThread
  | _ => .behind

namespace GrpcWorker
variable {C : Type} [DecidableEq C] {s t : BaseWorker (GrpcCaller C)} {o o' : GrpcWorker C}

/-! ## The destructor -/

theorem sync_stage {a : BaseAction (GrpcCaller C)} (h : sync s a o = some o') :
    o'.destructor.stage = o.destructor.stage ∨ (o.destructor.stage = .idle ∧
      a = .call .destructor (.stopThread true) ∧ o'.destructor.stage = .stopThread) := by
  cases a with
  | call c k =>
    simp only [GrpcWorker.sync] at h
    cases c <;> simp only [calls] at h <;> grind -linarith [setHook, GrpcDestructor.stage]
  | _ =>
    simp only [GrpcWorker.sync] at h
    grind -linarith [setHook, setStop]

theorem stopTriggered_destructor {a : GrpcAction C} (h : o.stopTriggered a = some o') :
    o'.destructor = o.destructor := by
  cases a <;> simp only [GrpcWorker.stopTriggered] at h <;>
    grind -linarith [setServer, setQueue, setStop]

theorem own_stage {a : GrpcAction C} (h : own s o a = some o') :
    o'.destructor.stage = o.destructor.stage ∨ (o.destructor.stage = .stopThread ∧
      (∃ k b, s.caller .destructor = .returned k b) ∧ o'.destructor.stage = .behind) := by
  rcases own_cases h with h | h | h | h | h
  · exact .inl (by rw [(preRun_same h).2])
  · exact .inl (by rw [(run_sameOutside h).destructor])
  · exact .inl (by rw [(grpc_sameOutside h).destructor])
  · exact .inl (by rw [stopTriggered_destructor h])
  · cases a <;> simp only [GrpcWorker.destroy] at h <;> grind -linarith [GrpcDestructor.stage]

variable (C) in
def destroyed : Destroyed (GrpcCaller C) (GrpcWorker C) (GrpcAction C) where
  derived := cGenericGrpcWorker C
  destructor := .destructor
  stage o := o.destructor.stage
  init := rfl
  sync := sync_stage
  called {s o o' k} h hstage := by
    change o.calls .destructor k = some o' at h
    cases hd : o.destructor <;> simp_all [calls, GrpcDestructor.stage]
  own := own_stage

/-- The worker makes no queue and leaves none undrained, if nobody launches it again. -/
def ended (s : Object (GrpcCaller C) (GrpcWorker C)) : Bool :=
  s.base.current.ended || s.ext.hook.ended

/-- Every run that builds a queue gets to drain it: the server is built, and the stop check
finds no stop. -/
def ServesQueues (s : Object (GrpcCaller C) (GrpcWorker C)) :
    ObjectAction (GrpcCaller C) (GrpcAction C) → Prop
  | .own (.buildAndStart r) => r.built = true
  | .base (.checkStop _) => s.base.stopRequested = false
  | _ => True

instance (s : Object (GrpcCaller C) (GrpcWorker C))
    (a : ObjectAction (GrpcCaller C) (GrpcAction C)) : Decidable (ServesQueues s a) := by
  induction a using ObjectAction.casesOn with
  | base a => induction a using BaseAction.casesOn <;> (unfold ServesQueues; infer_instance)
  | own a => induction a using GrpcAction.casesOn <;> (unfold ServesQueues; infer_instance)

def DrainsQueues (s : Object (GrpcCaller C) (GrpcWorker C))
    (a : ObjectAction (GrpcCaller C) (GrpcAction C)) : Prop :=
  (destroyed C).WaitsUntil ended s a ∧ ServesQueues s a

instance (s : Object (GrpcCaller C) (GrpcWorker C))
    (a : ObjectAction (GrpcCaller C) (GrpcAction C)) : Decidable (DrainsQueues s a) :=
  inferInstanceAs (Decidable (_ ∧ _))

/-! ## The worker has ended -/

theorem HookAt.not_ended {p : RunnerPc} (hat : HookAt p o.hook) (hp : p.hookHome = none) :
    o.hook.ended = false := by
  rw [hat.idle hp]
  rfl

/-- A worker that has ended has no queue to drain. -/
theorem owing_of_ended {p : RunnerPc} (hat : HookAt p o.hook)
    (h : (p.ended || o.hook.ended) = true) : p.owing o.hook = false := by
  rcases (Bool.or_eq_true _ _).mp h with hp | hhook
  · have hnone : p.hookHome = none := by
      cases p <;> first | rfl | cases hp
    rw [hat.idle hnone]
    cases p <;> first | rfl | cases hp
  · cases hh : o.hook with
    | preRunDone e =>
      rcases e with ⟨_ | _⟩ | _
      · obtain rfl := hat.of_home (q := .preRun) (by rw [hh]; rfl)
        rfl
      · rw [hh] at hhook
        cases hhook
      · rw [hh] at hhook
        cases hhook
    | runDone e =>
      obtain rfl := hat.of_home (q := .run) (by rw [hh]; rfl)
      rfl
    | _ =>
      rw [hh] at hhook
      cases hhook

theorem own_ended {a : GrpcAction C} (h : own s o a = some o') (hhook : o.hook.ended = true) :
    o'.hook = o.hook := by
  rcases own_cases h with h | h | h | h | h
  · cases a <;> simp only [GrpcWorker.preRun] at h <;> grind -linarith [GrpcHook.ended]
  · cases a <;> simp only [GrpcWorker.run] at h <;> grind -linarith [GrpcHook.ended]
  · exact grpc_hook h
  · exact stopTriggered_hook h
  · exact destroy_hook h

theorem sync_hook {a : BaseAction (GrpcCaller C)} (h : sync s a o = some o')
    (hact : BaseWorker.actingRun a = none) :
    o'.hook = o.hook ∨ ∃ tag, o.hook = .execute tag ∧ o'.hook = .requestStop tag := by
  cases a with
  | call c k =>
    simp only [GrpcWorker.sync] at h
    cases c <;> simp only [calls] at h <;> grind -linarith [setHook]
  | preRunBegin r | preRunEnd r e | setRunning r | runEnd r e => cases hact
  | _ =>
    simp only [GrpcWorker.sync] at h
    grind -linarith [setStop]

theorem keeps_ended {ok : Object (GrpcCaller C) (GrpcWorker C) →
      ObjectAction (GrpcCaller C) (GrpcAction C) → Prop}
    {s : Object (GrpcCaller C) (GrpcWorker C)} {a : ObjectAction (GrpcCaller C) (GrpcAction C)}
    (hr : (cGenericGrpcWorker C).system.ReachableBy ok s) : (destroyed C).Keeps ended s a := by
  intro t hs hended _ hlaunch
  have hat : HookAt s.base.current s.ext.hook := hookAt_of_reachable hr
  unfold ended at hended ⊢
  cases a with
  | own a =>
    obtain ⟨hb, hy⟩ := Derived.step_own.mp hs
    rw [hb]
    cases hhook : s.ext.hook.ended
    · rw [hhook, Bool.or_false] at hended
      rw [hended, Bool.true_or]
    · rw [own_ended hy hhook, hhook, Bool.or_true]
  | base a =>
    obtain ⟨hi, hu⟩ := Derived.inherits hr
    obtain ⟨hb, hy⟩ := Derived.step_base.mp hs
    have hm := BaseWorker.moves_of_step hi hu hb
    have hidle : ∀ p, s.base.current = p → p.hookHome = none → p.ended = false → False :=
      fun p hp hhome hnot => by
        rw [hat.not_ended (hp ▸ hhome), hp, hnot] at hended
        cases hended
    cases hm with
    | rest hact _ hcur =>
      rw [hcur]
      rcases sync_hook hy hact with hhook | ⟨tag, hhook, -⟩
      · rwa [hhook]
      · rw [hhook] at hended
        rw [(Bool.or_eq_true _ _).mp hended |>.resolve_right (by simp [GrpcHook.ended])]
        rfl
    | launch c created hmay =>
      rw [hlaunch c created rfl] at hmay
      cases hmay
    | preRunBegin r hfrom => exact (hidle _ hfrom rfl rfl).elim
    | checkStop r hfrom => exact (hidle _ hfrom rfl rfl).elim
    | setRunning r hfrom => exact (hidle _ hfrom rfl rfl).elim
    | preRunEnd r e hfrom hto =>
      simp only [destroyed, cGenericGrpcWorker, GrpcWorker.sync,
        Option.ite_none_right_eq_some] at hy
      rw [hfrom, hy.1] at hended
      rw [hto]
      rcases e with ⟨_ | _⟩ | _ <;> first | rfl | cases hended
    | runEnd r e hfrom hto =>
      rw [hto]
      cases e <;> rfl
    | catchException r e _ hto => rw [hto]; rfl
    | setStopped r _ hto => rw [hto]; rfl

/-! ## The queues -/

/-- The queue of `m_cq` is drained, or there is a hook left to drain it. -/
structure Drains (p : RunnerPc) (o : GrpcWorker C) : Prop where
  shutdown : ∀ q, (o.queue q).drained = true → (o.queue q).shutdown = true
  cq : p.owing o.hook = false → ∀ q, o.mCq = some q → (o.queue q).drained = true
  destroyed : ∀ q, (o.queue q).destroyed = true → (o.queue q).drained = true

/-- What is known of a queue stays true, and nothing is destroyed. -/
def KeepsQueues (o o' : GrpcWorker C) : Prop :=
  ∀ q, (o'.queue q).destroyed = (o.queue q).destroyed ∧
    (o'.queue q).drained = (o.queue q).drained ∧
    ((o.queue q).shutdown = true → (o'.queue q).shutdown = true)

theorem Drains.of_keeps {p q : RunnerPc} (hx : Drains p o) (h : KeepsQueues o o')
    (hcq : ∀ d, o'.mCq = some d → o.mCq = some d)
    (howing : p.owing o.hook = true → q.owing o'.hook = true) : Drains q o' where
  shutdown d hd := (h d).2.2 (hx.shutdown d ((h d).2.1 ▸ hd))
  cq hnot d hd := by
    rw [(h d).2.1]
    refine hx.cq ?_ d (hcq d hd)
    by_contra hne
    rw [howing (by simpa using hne)] at hnot
    cases hnot
  destroyed d hd := by
    rw [(h d).2.1]
    exact hx.destroyed d ((h d).1 ▸ hd)

theorem Drains.destroyQueue {p : RunnerPc} (hx : Drains p o) (hnot : p.owing o.hook = false) :
    ∀ q, ((o.destroyQueue.queue q).drained = true → (o.destroyQueue.queue q).shutdown = true) ∧
      ((o.destroyQueue.queue q).destroyed = true → (o.destroyQueue.queue q).drained = true) := by
  intro q
  obtain ⟨hshutdown, hdrained, -⟩ := destroyQueue_queue (o := o) q
  rw [hshutdown, hdrained]
  refine ⟨hx.shutdown q, fun hq => ?_⟩
  unfold GrpcWorker.destroyQueue at hq
  split at hq
  · rename_i d hd
    change (Function.update o.queue d { o.queue d with destroyed := true } q).destroyed = true
      at hq
    by_cases hqd : q = d
    · exact hqd ▸ hx.cq hnot d hd
    · rw [Function.update_of_ne hqd] at hq
      exact hx.destroyed q hq
  · exact hx.destroyed q hq

theorem owing_of_hook {p : RunnerPc} {hook : GrpcHook} (h : hook.filling = true) :
    p.owing hook = true := by
  simp [RunnerPc.owing, h]

theorem owing_of_not_live {p : RunnerPc} (h : ¬ p.live) : p.owing .idle = false := by
  cases p <;> first | rfl | exact absurd (by decide) h

theorem owing_of_home {p q : RunnerPc} {hook : GrpcHook} (hat : HookAt p hook)
    (hh : hook.home = some q) : p.owing hook = hook.filling := by
  have hp := hat.of_home hh
  have hq : p.hookHome = some q := hat.symm.trans hh
  cases p <;> first | (simp [RunnerPc.owing]; done) | cases hq

theorem KeepsQueues.of_eq (h : o'.queue = o.queue) : KeepsQueues o o' := fun q => by
  rw [h]
  exact ⟨rfl, rfl, id⟩

/-- One queue changes, and it was not down before or stays so. -/
theorem KeepsQueues.setQueue {q : Nat} {x : CompletionQueue}
    (hsame : x.destroyed = (o.queue q).destroyed ∧ x.drained = (o.queue q).drained)
    (hdown : (o.queue q).shutdown = true → x.shutdown = true) :
    KeepsQueues o (o.setQueue q x) := fun d => by
  refine ⟨field_update CompletionQueue.destroyed hsame.1 d,
    field_update CompletionQueue.drained hsame.2 d, ?_⟩
  change _ → (Function.update o.queue q x d).shutdown = true
  by_cases hd : d = q
  · rw [hd, Function.update_self]
    exact hdown
  · rw [Function.update_of_ne hd]
    exact id

theorem submit_keeps (op : GrpcOp) : KeepsQueues o (o.submit op) :=
  KeepsQueues.setQueue (o := o) ⟨rfl, rfl⟩ id

theorem run_keeps {a : GrpcAction C} (h : run s o a = some o') (ha : a ≠ .shutdown) :
    KeepsQueues o o' ∧ o'.mCq = o.mCq ∧ o'.hook.filling = true := by
  cases runStep_of_run h with
  | arm | rearm | finish => exact ⟨submit_keeps _, rfl, rfl⟩
  | @dispatch tag ok hhook =>
    cases ok
    · exact ⟨.of_eq rfl, rfl, rfl⟩
    · change KeepsQueues o (o.proceed tag) ∧ (o.proceed tag).mCq = o.mCq ∧
        (o.proceed tag).hook.filling = true
      unfold GrpcWorker.proceed
      split
      · exact ⟨submit_keeps _, rfl, rfl⟩
      · exact ⟨.of_eq rfl, rfl, rfl⟩
      · exact ⟨.of_eq rfl, rfl, rfl⟩
  | shutdown => exact absurd rfl ha
  | timeout hhook => exact ⟨.of_eq rfl, rfl, by rw [hhook]; rfl⟩
  | continueRunning => exact ⟨.of_eq rfl, rfl, by cases s.stopRequested <;> rfl⟩
  | event | executed | executeStopped => exact ⟨.of_eq rfl, rfl, rfl⟩

theorem Drains.preRun {p : RunnerPc} {a : GrpcAction C} (hx : Drains p o)
    (hat : HookAt p o.hook) (hbuilt : ∀ r, a = .buildAndStart r → r.built = true)
    (h : o.preRun a = some o') : Drains p o' := by
  have howing := owing_of_home hat (preRun_home h).1
  cases a with
  | builder failure =>
    simp only [GrpcWorker.preRun, Option.ite_none_right_eq_some, Option.some.injEq] at h
    obtain ⟨hhook, rfl⟩ := h
    rw [hhook] at howing
    refine hx.of_keeps (.of_eq ?_) (fun d hd => ?_) fun hold => ?_
    · split <;> rfl
    · split at hd <;> exact hd
    · rw [hhook, howing] at hold
      cases hold
  | addCompletionQueue failure =>
    simp only [GrpcWorker.preRun, Option.ite_none_right_eq_some, Option.some.injEq] at h
    obtain ⟨hhook, rfl⟩ := h
    rw [hhook] at howing
    split
    · have hold := hx.destroyQueue (by rw [hhook, howing]; rfl)
      refine ⟨fun q => (hold q).1, fun hnot => ?_, fun q => (hold q).2⟩
      rw [owing_of_hook rfl] at hnot
      cases hnot
    · refine hx.of_keeps (.of_eq rfl) (fun d hd => hd) fun hold => ?_
      rw [hhook, howing] at hold
      cases hold
  | buildAndStart r =>
    have hr := hbuilt r rfl
    simp only [GrpcWorker.preRun, Option.ite_none_right_eq_some, Option.some.injEq] at h
    obtain ⟨hhook, rfl⟩ := h
    cases r with
    | started selectedPort =>
      exact hx.of_keeps (.of_eq destroyServer_queue) (fun d hd => destroyServer_mCq (o := o) ▸ hd)
        fun _ => owing_of_hook rfl
    | null => cases hr
    | threw e => cases hr
  | storePort =>
    simp only [GrpcWorker.preRun] at h
    split at h
    · obtain rfl := Option.some.inj h
      exact hx.of_keeps (.of_eq rfl) (fun _ hd => hd) fun _ => owing_of_hook rfl
    · cases h
  | _ => cases h

theorem Drains.drain {p : RunnerPc} {q : Nat} {hook : GrpcHook} (hx : Drains p o)
    (hq : o.mCq = some q) (hdown : (o.queue q).shutdown = true) :
    Drains p ((o.setQueue q { o.queue q with drained := true }).setHook hook) := by
  have hself : ((o.setQueue q { o.queue q with drained := true }).setHook hook).queue q =
      { o.queue q with drained := true } := Function.update_self ..
  have hsame : ∀ d, d ≠ q →
      ((o.setQueue q { o.queue q with drained := true }).setHook hook).queue d = o.queue d :=
    fun d hd => Function.update_of_ne hd _ _
  refine ⟨fun d hd => ?_, fun _ d hd => ?_, fun d hd => ?_⟩
  · by_cases hdq : d = q
    · rw [hdq, hself]
      exact hdown
    · rw [hsame d hdq] at hd ⊢
      exact hx.shutdown d hd
  · obtain rfl : q = d := Option.some.inj (hq.symm.trans hd)
    rw [hself]
  · by_cases hdq : d = q
    · rw [hdq, hself]
    · rw [hsame d hdq] at hd ⊢
      exact hx.destroyed d hd

theorem Drains.run {p : RunnerPc} {a : GrpcAction C} (hx : Drains p o)
    (h : run s o a = some o') : Drains p o' := by
  by_cases ha : a = .shutdown
  · subst ha
    cases runStep_of_run h with
    | shutdown _ hq hdown _ => exact hx.drain hq hdown
  · obtain ⟨hkeeps, hcq, hfilling⟩ := run_keeps h ha
    exact hx.of_keeps hkeeps (fun d hd => hcq ▸ hd) fun _ => owing_of_hook hfilling

theorem grpc_queue {a : GrpcAction C} (h : o.grpc a = some o') :
    o'.queue = o.queue ∧ o'.mCq = o.mCq := by
  cases a <;> simp only [GrpcWorker.grpc] at h <;> grind -linarith [GrpcWorker.complete, setServer]

theorem stopTriggered_keeps {a : GrpcAction C} (h : o.stopTriggered a = some o') :
    KeepsQueues o o' := by
  cases a with
  | stopQueue c =>
    simp only [GrpcWorker.stopTriggered, Option.ite_none_right_eq_some, Option.some.injEq] at h
    obtain ⟨-, rfl⟩ := h
    split
    · exact KeepsQueues.setQueue (o := o) ⟨rfl, rfl⟩ fun _ => rfl
    · exact .of_eq rfl
  | _ =>
    refine .of_eq ?_
    simp only [GrpcWorker.stopTriggered] at h
    grind -linarith [setServer, setStop]

theorem Drains.destroy {p : RunnerPc} {a : GrpcAction C} (hx : Drains p o)
    (hnot : o.destructor.stage = .behind → p.owing o.hook = false)
    (h : destroy s o a = some o') : Drains p o' := by
  have hhook := destroy_hook h
  have hcq := (destroy_same h).2
  cases a with
  | destructorStopped =>
    refine hx.of_keeps (.of_eq ?_) hcq fun hold => by rwa [hhook]
    simp only [GrpcWorker.destroy] at h
    grind -linarith
  | destroyServer =>
    refine hx.of_keeps (.of_eq ?_) hcq fun hold => by rwa [hhook]
    simp only [GrpcWorker.destroy, Option.ite_none_right_eq_some, Option.some.injEq] at h
    obtain ⟨-, rfl⟩ := h
    exact destroyServer_queue
  | destroyQueue =>
    simp only [GrpcWorker.destroy, Option.ite_none_right_eq_some, Option.some.injEq] at h
    obtain ⟨hdtor, rfl⟩ := h
    have hold := hx.destroyQueue (hnot (by rw [hdtor]; rfl))
    refine ⟨fun q => (hold q).1, fun _ q hq => ?_, fun q => (hold q).2⟩
    change o.destroyQueue.mCq = some q at hq
    unfold GrpcWorker.destroyQueue at hq
    split at hq
    · cases hq
    · rename_i hnone
      rw [hnone] at hq
      cases hq
  | _ => cases h

theorem Drains.own {p : RunnerPc} {a : GrpcAction C} (hx : Drains p o)
    (hat : HookAt p o.hook) (hbuilt : ∀ r, a = .buildAndStart r → r.built = true)
    (hnot : o.destructor.stage = .behind → p.owing o.hook = false)
    (h : own s o a = some o') : Drains p o' := by
  rcases own_cases h with h | h | h | h | h
  · exact hx.preRun hat hbuilt h
  · exact hx.run h
  · obtain ⟨hqueue, hcq⟩ := grpc_queue h
    refine hx.of_keeps (.of_eq hqueue) (fun d hd => hcq ▸ hd) fun hold => ?_
    rwa [grpc_hook h]
  · refine hx.of_keeps (stopTriggered_keeps h)
      (fun d hd => (stopTriggered_same h).2 ▸ hd) fun hold => ?_
    rwa [stopTriggered_hook h]
  · exact hx.destroy hnot h

theorem Drains.sync {a : BaseAction (GrpcCaller C)} (hx : Drains s.current o)
    (hat : HookAt s.current o.hook) (hm : BaseWorker.Moves s a t)
    (hcheck : ∀ r, a = .checkStop r → s.stopRequested = false)
    (hy : sync s a o = some o') : Drains t.current o' := by
  obtain ⟨hsame, -⟩ := sync_same hat hm hy
  refine hx.of_keeps (.of_eq hsame.queue) (fun d hd => hsame.mCq ▸ hd) fun hold => ?_
  cases hm with
  | rest hact _ hcur =>
    rw [hcur]
    rcases sync_hook hy hact with hhook | ⟨tag, -, hhook⟩
    · rwa [hhook]
    · exact owing_of_hook (by rw [hhook]; rfl)
  | launch c created hmay hfrom =>
    rw [hat.idle (RunnerPc.hookHome_of_not_live hfrom), owing_of_not_live hfrom] at hold
    cases hold
  | preRunBegin r hfrom =>
    rw [hfrom, hat.idle (by rw [hfrom]; rfl)] at hold
    cases hold
  | preRunEnd r e hfrom hto =>
    simp only [GrpcWorker.sync, Option.ite_none_right_eq_some] at hy
    rw [hfrom, hy.1] at hold
    rw [hto]
    rcases e with ⟨_ | _⟩ | _ <;> first | rfl | cases hold
  | checkStop r hfrom hto =>
    rw [hto, hcheck r rfl]
    rfl
  | setRunning r hfrom hto =>
    obtain rfl := Option.some.inj hy
    exact owing_of_hook rfl
  | runEnd r e hfrom hto =>
    simp only [GrpcWorker.sync, Option.ite_none_right_eq_some] at hy
    rw [hfrom, hy.1] at hold
    cases hold
  | catchException r e hfrom =>
    rw [hfrom, hat.idle (by rw [hfrom]; rfl)] at hold
    cases hold
  | setStopped r hfrom =>
    rw [hfrom, hat.idle (by rw [hfrom]; rfl)] at hold
    cases hold

theorem waitsUntil_of_drains (s : Object (GrpcCaller C) (GrpcWorker C))
    (a : ObjectAction (GrpcCaller C) (GrpcAction C)) (h : DrainsQueues s a) :
    (destroyed C).WaitsUntil ended s a := h.1

theorem drains_init : Drains .absent ({} : GrpcWorker C) where
  shutdown _ h := by cases h
  cq _ _ h := by cases h
  destroyed _ h := by cases h

theorem drains_of_reachable {s : Object (GrpcCaller C) (GrpcWorker C)}
    (hr : (cGenericGrpcWorker C).system.ReachableBy DrainsQueues s) :
    Drains s.base.current s.ext := by
  refine ReachableBy.invariant (P := fun s => Drains s.base.current s.ext) drains_init
    (fun s a t hr hx hok hs => ?_) hr
  have hat : HookAt s.base.current s.ext.hook := hookAt_of_reachable hr
  cases a with
  | base a =>
    obtain ⟨hb, hy⟩ := Derived.step_base.mp hs
    obtain ⟨hi, hu⟩ := Derived.inherits hr
    refine hx.sync hat (BaseWorker.moves_of_step hi hu hb) ?_ hy
    rintro r rfl
    exact hok.2
  | own a =>
    obtain ⟨hb, hy⟩ := Derived.step_own.mp hs
    rw [hb]
    refine hx.own hat ?_ (fun hstage => ?_) hy
    · rintro r rfl
      exact hok.2
    · exact owing_of_ended hat (Destroyed.past_of_behind waitsUntil_of_drains
        (fun _ _ hr _ => keeps_ended hr) hr hstage)

/-- In a run whose `preRun` gets a server once it has made a queue, whose stop check finds no
stop, and whose destructor waits until the worker has drained its queue, a queue is destroyed
only when it was shut down and `run` has received its SHUTDOWN event. -/
theorem queue_is_destroyed_drained (C : Type) [DecidableEq C]
    (s : Object (GrpcCaller C) (GrpcWorker C))
    (hr : (cGenericGrpcWorker C).system.ReachableBy DrainsQueues s) :
    ∀ q, (s.ext.queue q).destroyed = true →
      (s.ext.queue q).shutdown = true ∧ (s.ext.queue q).drained = true := by
  intro q hq
  have hx := drains_of_reachable hr
  have hdrained := hx.destroyed q hq
  exact ⟨hx.shutdown q hdrained, hdrained⟩

def destroyedSchedule : List (ObjectAction (GrpcCaller Bool) (GrpcAction Bool)) :=
  [.own .shutdown, .base (.call .destructor (.stopThread true)),
    .base (.stopSection .destructor), .own (.stopServer .destructor),
    .own (.stopWait .destructor), .own (.stopQueue .destructor),
    .base (.stopTriggeredEnd .destructor), .base (.runEnd 0 (.value true)),
    .base (.setStopped 0), .base (.waitForStopped .destructor),
    .base (.joinFinished .destructor), .base (.joined .destructor), .own .destructorStopped,
    .own .destroyServer, .own .destroyQueue]

theorem queue_is_destroyed_drained_served :
    let S := (cGenericGrpcWorker Bool).system
    let s := S.after DrainsQueues S.init (builtSchedule ++ receivedSchedule ++
      processedSchedule ++ stoppedSchedule ++ destroyedSchedule)
    (s.ext.queue 0).shutdown = true ∧ (s.ext.queue 0).drained = true := by
  intro S s
  have hs : S.ReachableBy DrainsQueues s := reaches_after (by decide)
  exact queue_is_destroyed_drained Bool s hs 0 (by decide)

/-- The server cannot be built; `false` starts the worker once more. -/
def restartedSchedule : List (ObjectAction (GrpcCaller Bool) (GrpcAction Bool)) :=
  [.base (.call (.user false) (.startThread true)), .base (.joinFinished (.user false)),
    .base (.startSection (.user false) true), .base (.waitForStart (.user false)),
    .base (.preRunBegin 0), .own (.builder none), .own (.addCompletionQueue none),
    .own (.buildAndStart .null), .base (.preRunEnd 0 (.value false)), .base (.setStopped 0),
    .base (.call (.user false) (.startThread true)), .base (.joinFinished (.user false)),
    .base (.joined (.user false)), .base (.startSection (.user false) true),
    .base (.preRunBegin 1), .own (.builder none), .own (.addCompletionQueue none)]

/-- The second `preRun` destroys the queue of the first, which nobody has shut down. -/
theorem restart_destroys_undrained :
    ¬ ∀ s, (cGenericGrpcWorker Bool).system.Reachable s → ∀ q,
      (s.ext.queue q).destroyed = true →
        (s.ext.queue q).shutdown = true ∧ (s.ext.queue q).drained = true := by
  intro h
  let S := (cGenericGrpcWorker Bool).system
  have hs : S.Reachable (S.after Free S.init restartedSchedule) := reaches_after (by decide)
  have hdrained := (h _ hs 0 (by decide)).2
  have hnot : ((S.after Free S.init restartedSchedule).ext.queue 0).drained = false := by decide
  rw [hnot] at hdrained
  cases hdrained

end GrpcWorker

end ThreadComponent
