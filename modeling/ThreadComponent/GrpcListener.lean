import Mathlib.Data.List.Nodup
import ThreadComponent.GrpcCalls

/-!
# The listener of cGenericGrpcWorker

While nobody stops it `run` has one request outstanding whenever it asks for the next event:
the one whose event it was given is replaced before the business logic is called.
-/

set_option autoImplicit false
set_option linter.unusedSectionVars false

namespace ThreadComponent

open Transitions System

namespace GrpcWorker
variable {C : Type} [DecidableEq C] {s t : BaseWorker (GrpcCaller C)} {o o' : GrpcWorker C}
  {tag : Nat} {op : GrpcOp}

def listeners (o : GrpcWorker C) : Nat := o.ops.countP fun op => op.kind = .request

/-- How many there are at each place of `run`, while nobody stops it: one, but for the time
from the event of a request to the new object made for the next one. -/
def listening (o : GrpcWorker C) : Nat :=
  match o.hook with
  | .event tag _ => if (o.call tag).mStatus = .process then 0 else 1
  | .continueRunning _ | .rearm _ => 0
  | _ => 1

/-- The number that the queue and the server of the latest `preRun` have. -/
def latest (o : GrpcWorker C) : Nat := o.queues - 1

structure Listens (s : BaseWorker (GrpcCaller C)) (o : GrpcWorker C) : Prop where
  count : o.hook.serving = true → s.stopRequested = false →
    (o.server o.latest).shutdown = false → o.listeners = o.listening
  failed : ∀ op ∈ o.ops, op.kind = .request → op.ready = some false →
    (o.server op.queue).shutdown = true
  event : ∀ tag, o.hook = .event tag false → (o.call tag).mStatus = .process →
    (o.server o.latest).shutdown = true

/-- A step of another thread; no server comes up again, and no flag is cleared. -/
theorem Listens.of_same (hx : Listens s o) (hhook : o'.hook = o.hook)
    (hsame : o'.ops = o.ops ∧ o'.call = o.call ∧ o'.allocated = o.allocated ∧
      o'.queues = o.queues)
    (hserver : ∀ i, (o.server i).shutdown = true → (o'.server i).shutdown = true)
    (hflag : t.stopRequested = false → s.stopRequested = false) : Listens t o' := by
  obtain ⟨hops, hcall, -, hqueues⟩ := hsame
  have hlatest : o'.latest = o.latest := by rw [latest, latest, hqueues]
  refine ⟨fun hserving hclear hup => ?_, fun op hop hkind hready => ?_, fun tag htag hstatus => ?_⟩
  · have hup' : (o.server o.latest).shutdown = false := by
      by_contra hne
      rw [hlatest, hserver _ (by simpa using hne)] at hup
      cases hup
    have hold := hx.count (hhook ▸ hserving) (hflag hclear) hup'
    rw [listeners, listening, hops, hhook, hcall]
    exact hold
  · rw [hops] at hop
    exact hserver _ (hx.failed op hop hkind hready)
  · rw [hhook] at htag
    rw [hcall] at hstatus
    rw [hlatest]
    exact hserver _ (hx.event tag htag hstatus)

theorem Listens.rest (hops : o'.ops = []) (hnew : o'.hook.serving = false) : Listens s o' where
  count hserving := by
    rw [hnew] at hserving
    cases hserving
  failed op hop := by
    rw [hops] at hop
    cases hop
  event tag htag := by
    rw [htag] at hnew
    cases hnew

theorem Listens.moveHook {hook : GrpcHook} (hx : Listens s o)
    (hcount : s.stopRequested = false → (o.server o.latest).shutdown = false →
      o.listeners = (o.setHook hook).listening)
    (hevent : ∀ tag, hook ≠ .event tag false) : Listens s (o.setHook hook) where
  count _ hclear hup := hcount hclear hup
  failed := hx.failed
  event tag htag := absurd htag (hevent tag)

theorem newCall_listeners (q : Nat) : (o.newCall q).listeners = o.listeners + 1 := by
  rw [listeners, newCall_ops, List.countP_append]
  rfl

theorem Listens.newCall {q : Nat} {hook : GrpcHook} (hx : Listens s o)
    (hcount : s.stopRequested = false → (o.server o.latest).shutdown = false →
      o.listeners = 0)
    (hhook : hook = .next ∨ ∃ tag, hook = .execute tag) :
    Listens s ((o.newCall q).setHook hook) := by
  have hlistening : ((o.newCall q).setHook hook).listening = 1 := by
    rcases hhook with rfl | ⟨tag, rfl⟩ <;> rfl
  refine ⟨fun _ hclear hup => ?_, fun op hop hkind hready => ?_, fun tag htag => ?_⟩
  · rw [hlistening]
    change (o.newCall q).listeners = 1
    rw [newCall_listeners, hcount hclear hup]
  · change op ∈ (o.newCall q).ops at hop
    rw [newCall_ops, List.mem_append, List.mem_singleton] at hop
    rcases hop with hop | rfl
    · exact hx.failed op hop hkind hready
    · cases hready
  · rcases hhook with rfl | ⟨tag, rfl⟩ <;> cases htag

theorem Listens.event_step (hx : Listens s o) (hown : Owned o) (hhook : o.hook = .next)
    (hop : op ∈ o.ops) {ok : Bool} (hready : op.ready = some ok) :
    Listens s ({ o with ops := o.ops.erase op }.setHook (.event op.tag ok)) := by
  have hstatus := (hown.op op hop).2
  refine ⟨fun _ hclear hup => ?_, fun d hd => hx.failed d (List.mem_of_mem_erase hd),
    fun tag htag hprocess => ?_⟩
  · have hold := hx.count (by rw [hhook]; rfl) hclear hup
    have hperm := (List.perm_cons_erase hop).countP_eq fun op => decide (op.kind = .request)
    rw [listeners, listening, hhook, hperm, List.countP_cons] at hold
    change (o.ops.erase op).countP _ = if (o.call op.tag).mStatus = .process then 0 else 1
    rw [hstatus]
    cases hkind : op.kind <;> simp_all [OpKind.status]
  · obtain ⟨rfl, rfl⟩ : op.tag = tag ∧ ok = false := by
      cases htag
      exact ⟨rfl, rfl⟩
    have hkind : op.kind = .request := by
      change (o.call op.tag).mStatus = .process at hprocess
      rw [hstatus] at hprocess
      revert hprocess
      cases op.kind <;> simp [OpKind.status]
    have hdown := hx.failed op hop hkind hready
    have hqueue := (hown.queue op hop).1
    change (o.server o.latest).shutdown = true
    rwa [latest, ← hqueue, Nat.add_sub_cancel]

theorem Listens.deleteCall (hx : Listens s o)
    (hcount : s.stopRequested = false → (o.server o.latest).shutdown = false →
      o.listeners = 1) : Listens s ((o.deleteCall tag).setHook .next) where
  count _ hclear hup := hcount hclear hup
  failed := hx.failed
  event _ htag := by cases htag

theorem Listens.dispatch {ok : Bool} (hx : Listens s o) (hown : Owned o)
    (hhook : o.hook = .event tag ok) :
    Listens s (if ok then o.proceed tag else (o.deleteCall tag).setHook .next) := by
  have hcount := hx.count (by rw [hhook]; rfl)
  simp only [listening, hhook] at hcount
  cases ok with
  | false =>
    refine hx.deleteCall fun hclear hup => ?_
    have hstatus : (o.call tag).mStatus ≠ .process := fun hstatus => by
      rw [hx.event tag hhook hstatus] at hup
      cases hup
    exact (hcount hclear hup).trans (if_neg hstatus)
  | true =>
    change Listens s (o.proceed tag)
    unfold GrpcWorker.proceed
    split
    · rename_i hcreate
      exact absurd hcreate (hown.busy tag (by rw [hhook]; rfl)).2.2.2
    · rename_i hprocess
      refine hx.moveHook (fun hclear hup => ?_) (by simp)
      exact (hcount hclear hup).trans (if_pos hprocess)
    · rename_i hfinish
      refine hx.deleteCall fun hclear hup => ?_
      exact (hcount hclear hup).trans (if_neg (by simp [hfinish]))

theorem Listens.finishCall {status : GrpcStatus} (hx : Listens s o)
    (hhook : o.hook = .finish tag status) :
    Listens s ((o.finishCall tag status).setHook .next) := by
  have hcount := hx.count (by rw [hhook]; rfl)
  simp only [listening, hhook] at hcount
  have hops : (o.finishCall tag status).ops =
      o.ops ++ [{ tag := tag, queue := (o.call tag).queue, kind := .finish }] := rfl
  refine ⟨fun _ hclear hup => ?_, fun op hop hkind hready => ?_, fun d hd => by cases hd⟩
  · change (o.finishCall tag status).ops.countP _ = 1
    rw [hops, List.countP_append]
    exact hcount hclear hup
  · change op ∈ (o.finishCall tag status).ops at hop
    rw [hops, List.mem_append, List.mem_singleton] at hop
    rcases hop with hop | rfl
    · exact hx.failed op hop hkind hready
    · cases hkind

theorem Listens.run {a : GrpcAction C} (hx : Listens s o) (hown : Owned o)
    (h : run s o a = some o') : Listens s o' := by
  cases runStep_of_run h with
  | arm hhook _ =>
    refine hx.newCall (fun _ _ => ?_) (.inl rfl)
    rw [listeners, hown.resting (by rw [hhook]; rfl)]
    rfl
  | timeout => exact hx
  | shutdown _ hq _ hnone => exact .rest (hown.ops_nil hq hnone) rfl
  | event hhook hready hop => exact hx.event_step hown hhook hop hready
  | dispatch hhook => exact hx.dispatch hown hhook
  | continueRunning hhook =>
    have hcount := hx.count (by rw [hhook]; rfl)
    simp only [listening, hhook] at hcount
    refine hx.moveHook (fun hclear hup => ?_) (fun d hd => by split at hd <;> cases hd)
    rw [if_neg (by simp [hclear])]
    exact hcount hclear hup
  | @rearm tag hhook =>
    have hcount := hx.count (by rw [hhook]; rfl)
    simp only [listening, hhook] at hcount
    exact hx.newCall hcount (.inr ⟨tag, rfl⟩)
  | executed hhook | executeStopped hhook =>
    have hcount := hx.count (by rw [hhook]; rfl)
    simp only [listening, hhook] at hcount
    exact hx.moveHook hcount (by simp)
  | finish hhook => exact hx.finishCall hhook

/-- gRPC completes an operation and leaves the servers as they are, but for their RPCs. -/
theorem Listens.complete {server : Nat → GrpcServer} {ok : Bool} (hx : Listens s o)
    (hop : op ∈ o.ops) (hserver : ∀ i, (server i).shutdown = (o.server i).shutdown)
    (hfailed : op.kind = .request → ok = false → (o.server op.queue).shutdown = true) :
    Listens s { o.complete op ok with server := server } := by
  have hlisteners : (o.complete op ok).listeners = o.listeners := by
    rw [listeners, listeners, (List.perm_cons_erase hop).countP_eq]
    change List.countP _ ({ op with ready := some ok } :: o.ops.erase op) = _
    rw [List.countP_cons, List.countP_cons]
  refine ⟨fun hserving hclear hup => ?_, fun d hd hkind hready => ?_, fun d hd hstatus => ?_⟩
  · refine hlisteners.trans (hx.count hserving hclear ?_)
    rw [← hserver]
    exact hup
  · change (server d.queue).shutdown = true
    rw [hserver]
    rcases mem_complete hd with rfl | hd
    · exact hfailed hkind (Option.some.inj hready)
    · exact hx.failed d hd hkind hready
  · change (server o.latest).shutdown = true
    rw [hserver]
    exact hx.event d hd hstatus

theorem received_shutdown {i : Nat} {received : List Nat} (j : Nat) :
    (Function.update o.server i { o.server i with received := received } j).shutdown =
      (o.server j).shutdown :=
  field_update GrpcServer.shutdown (by rfl) j

theorem Listens.grpc {a : GrpcAction C} (hx : Listens s o) (h : o.grpc a = some o') :
    Listens s o' := by
  cases a with
  | receive op =>
    simp only [GrpcWorker.grpc, Option.ite_none_right_eq_some, Option.some.injEq] at h
    obtain ⟨⟨hop, -⟩, rfl⟩ := h
    exact hx.complete hop received_shutdown fun _ hok => by cases hok
  | finished op ok =>
    simp only [GrpcWorker.grpc, Option.ite_none_right_eq_some, Option.some.injEq] at h
    obtain ⟨⟨hop, hkind, -⟩, rfl⟩ := h
    exact hx.complete hop received_shutdown fun hrequest => by
      rw [hkind] at hrequest
      cases hrequest
  | failRequest op =>
    simp only [GrpcWorker.grpc, Option.ite_none_right_eq_some, Option.some.injEq] at h
    obtain ⟨⟨hop, -, -, hdown⟩, rfl⟩ := h
    have hnext : Listens s { o.complete op false with server := o.server } :=
      hx.complete hop (fun _ => rfl) fun _ _ => hdown
    exact hnext
  | _ => cases h

/-- No step of the stop hook or the destructor starts a server again. -/
theorem stopTriggered_shutdown {a : GrpcAction C} (h : o.stopTriggered a = some o') (i : Nat)
    (hi : (o.server i).shutdown = true) : (o'.server i).shutdown = true := by
  have hset : ∀ j, (Function.update o.server j { o.server j with shutdown := true } i).shutdown =
      true := fun j => by
    by_cases hj : i = j
    · rw [hj, Function.update_self]
    · rw [Function.update_of_ne hj]
      exact hi
  cases a with
  | stopServer c =>
    simp only [stopTriggered, Option.ite_none_right_eq_some, Option.some.injEq] at h
    obtain ⟨-, rfl⟩ := h
    split
    · exact hset _
    · exact hi
  | stopWait c =>
    simp only [stopTriggered] at h
    split at h
    · simp only [Option.ite_none_right_eq_some, Option.some.injEq] at h
      obtain ⟨-, rfl⟩ := h
      exact hi
    · cases h
  | stopQueue c =>
    simp only [stopTriggered, Option.ite_none_right_eq_some, Option.some.injEq] at h
    obtain ⟨-, rfl⟩ := h
    split <;> exact hi
  | _ => cases h

theorem destroyServer_shutdown {i : Nat} (hi : (o.server i).shutdown = true) :
    (o.destroyServer.server i).shutdown = true := by
  unfold GrpcWorker.destroyServer
  split
  · rename_i j _
    change (Function.update o.server j _ i).shutdown = true
    by_cases hj : i = j
    · rw [hj, Function.update_self]
    · rw [Function.update_of_ne hj]
      exact hi
  · exact hi

theorem destroy_shutdown {a : GrpcAction C} (h : destroy s o a = some o') (i : Nat)
    (hi : (o.server i).shutdown = true) : (o'.server i).shutdown = true := by
  have hdestroy := destroyServer_shutdown hi
  cases a <;> simp only [destroy] at h <;> grind -linarith [GrpcWorker.destroyQueue, setQueue]

theorem Listens.own {a : GrpcAction C} (hx : Listens s o) (hown : Owned o)
    (h : own s o a = some o') : Listens s o' := by
  rcases own_cases h with h | h | h | h | h
  · have hnext := hown.preRun h
    have hresting := GrpcHook.resting_of_preRun (preRun_home h).2
    exact .rest (hnext.resting hresting) hresting
  · exact hx.run hown h
  · exact hx.grpc h
  · exact hx.of_same (stopTriggered_hook h) (stopTriggered_same h).1
      (stopTriggered_shutdown h) id
  · exact hx.of_same (destroy_hook h) (destroy_same h).1 (destroy_shutdown h) id

theorem Listens.sync {a : BaseAction (GrpcCaller C)} (hx : Listens s o) (hown : Owned o)
    (hat : HookAt s.current o.hook) (hs : s.step a = some t) (hm : BaseWorker.Moves s a t)
    (hy : sync s a o = some o') : Listens t o' := by
  obtain ⟨hsame, hmoves⟩ := sync_same hat hm hy
  obtain ⟨hops, hcall, hallocated, hqueues⟩ := hsame.ops
  have hserver : ∀ i, (o.server i).shutdown = true → (o'.server i).shutdown = true :=
    fun i hi => by rw [hsame.server]; exact hi
  by_cases hrest : o.hook.serving = false ∧ o'.hook.serving = false
  · exact .rest (hops.trans (hown.resting hrest.1)) hrest.2
  have hflag : t.stopRequested = false → s.stopRequested = false := by
    -- a launch clears the flag, but finds the hooks at rest
    refine BaseWorker.flag_of_step hs fun c created ha => ?_
    subst ha
    cases hm with
    | rest _ hstart _ => exact hstart c created rfl
    | launch _ _ _ hfrom _ _ =>
      obtain rfl := Option.some.inj hy
      have hresting := hat.resting (RunnerPc.hookHome_of_not_live hfrom)
      exact absurd ⟨hresting, hresting⟩ hrest
  rcases hmoves with hhook | hold | ⟨tag, hold, hnew⟩
  · exact hx.of_same hhook hsame.ops hserver hflag
  · exact absurd hold hrest
  · have hcount := hx.count (by rw [hold]; rfl)
    simp only [listening, hold] at hcount
    have hmoved : Listens s (o.setHook (.requestStop tag)) := hx.moveHook hcount (by simp)
    exact hmoved.of_same hnew hsame.ops hserver hflag

theorem listens_of_reachable {ok : Object (GrpcCaller C) (GrpcWorker C) →
      ObjectAction (GrpcCaller C) (GrpcAction C) → Prop}
    {s : Object (GrpcCaller C) (GrpcWorker C)}
    (hr : (cGenericGrpcWorker C).system.ReachableBy ok s) : Listens s.base s.ext := by
  refine ReachableBy.invariant (P := fun s => Listens s.base s.ext) (.rest rfl rfl)
    (fun s a t hr hx _ hs => ?_) hr
  have hown := owned_of_reachable hr
  cases a with
  | base a =>
    obtain ⟨hb, hy⟩ := Derived.step_base.mp hs
    obtain ⟨hi, hu⟩ := Derived.inherits hr
    exact hx.sync hown (hookAt_of_reachable hr) hb (BaseWorker.moves_of_step hi hu hb) hy
  | own a =>
    obtain ⟨hb, hy⟩ := Derived.step_own.mp hs
    rw [hb]
    exact hx.own hown hy

/-- Number of operations of an object whose events were not handed out yet. -/
def outstanding (o : GrpcWorker C) (tag : Nat) : Nat := (o.ops.map GrpcOp.tag).count tag

theorem Owned.outstanding_eq_one (hx : Owned o) (hhook : o.hook = .next) (hlive : o.live tag) :
    o.outstanding tag = 1 := by
  refine List.nodup_iff_count_eq_one.mp hx.nodup tag ?_
  rcases hx.owed tag hlive with hmem | hheld
  · exact hmem
  · rw [hhook] at hheld
    cases hheld

theorem Owned.none_live (hx : Owned o) (h : GrpcWorker.run s o .shutdown = some o') :
    ¬ o.live tag := by
  intro hlive
  cases runStep_of_run h with
  | shutdown hhook hq _ hnone =>
    have hone := hx.outstanding_eq_one hhook hlive
    rw [outstanding, hx.ops_nil hq hnone] at hone
    cases hone

/-- Between events every live object has one outstanding operation; events go to live objects
only, and none is deleted twice. While nobody has requested a stop one object is armed, and when
`AsyncNext` reports SHUTDOWN none is live. That the server is not shut down only excludes a stop
hook that is left over from an earlier run; within one run it follows from the clear flag. -/
theorem every_call_is_reclaimed (C : Type) [DecidableEq C]
    (s : Object (GrpcCaller C) (GrpcWorker C))
    (hr : (cGenericGrpcWorker C).system.Reachable s) :
    (s.ext.hook = .next → ∀ tag, s.ext.live tag → s.ext.outstanding tag = 1) ∧
    (∀ tag ok, s.ext.hook = .event tag ok → s.ext.live tag) ∧
    (∀ tag, (s.ext.call tag).deleted ≤ 1) ∧
    (s.ext.hook = .next → s.base.stopRequested = false →
      (s.ext.server s.ext.latest).shutdown = false → s.ext.listeners = 1) ∧
    (∀ t, (cGenericGrpcWorker C).system.step s (.own .shutdown) = some t →
      ∀ tag, ¬ s.ext.live tag) := by
  have hown := owned_of_reachable hr
  refine ⟨fun hhook tag => hown.outstanding_eq_one hhook, fun tag ok hhook => ?_,
    fun tag => (hown.deleted tag).1, fun hhook hclear hup => ?_, fun t hs tag => ?_⟩
  · exact (hown.busy tag (by rw [hhook]; rfl)).1
  · have hcount := (listens_of_reachable hr).count (by rw [hhook]; rfl) hclear hup
    rw [hcount, listening, hhook]
  · rcases own_cases (Derived.step_own.mp hs).2 with h | h | h | h | h
    · cases h
    · exact hown.none_live h
    · cases h
    · cases h
    · cases h

def builtSchedule : List (ObjectAction (GrpcCaller Bool) (GrpcAction Bool)) :=
  [.base (.call (.user false) (.startThread true)), .base (.joinFinished (.user false)),
    .base (.startSection (.user false) true), .base (.waitForStart (.user false)),
    .base (.preRunBegin 0), .own (.builder none), .own (.addCompletionQueue none),
    .own (.buildAndStart (.started 50051)), .own .storePort,
    .base (.preRunEnd 0 (.value true))]

def receivedSchedule : List (ObjectAction (GrpcCaller Bool) (GrpcAction Bool)) :=
  [.base (.checkStop 0), .base (.setRunning 0), .own .arm, .own .timeout,
    .own (.receive { tag := 0, queue := 0, kind := .request })]

def processedSchedule : List (ObjectAction (GrpcCaller Bool) (GrpcAction Bool)) :=
  [.own (.event { tag := 0, queue := 0, kind := .request, ready := some true }),
    .own .dispatch, .own .continueRunning, .own .rearm,
    .own (.executed (.threw (.exception "no such metric"))), .own .finish]

def stoppedSchedule : List (ObjectAction (GrpcCaller Bool) (GrpcAction Bool)) :=
  [.base (.call (.user true) .requestStop), .base (.stopSection (.user true)),
    .own (.stopServer (.user true)),
    .own (.finished { tag := 0, queue := 0, kind := .finish } false),
    .own (.stopWait (.user true)), .own (.stopQueue (.user true)),
    .own (.event { tag := 0, queue := 0, kind := .finish, ready := some false }),
    .own .dispatch, .own (.failRequest { tag := 1, queue := 0, kind := .request }),
    .own (.event { tag := 1, queue := 0, kind := .request, ready := some false }),
    .own .dispatch]

theorem every_call_is_reclaimed_served :
    let S := (cGenericGrpcWorker Bool).system
    let s := S.after Free S.init (builtSchedule ++ receivedSchedule ++ processedSchedule)
    let t := S.after Free s stoppedSchedule
    s.ext.listeners = 1 ∧ s.ext.outstanding 0 = 1 ∧ ¬ t.ext.live 1 := by
  intro S s t
  have hs : S.Reachable s := reaches_after (by decide)
  have ht : S.Reachable t := Reaches.trans hs (reaches_after (by decide))
  have hserved := every_call_is_reclaimed Bool s hs
  have hstopped := every_call_is_reclaimed Bool t ht
  refine ⟨hserved.2.2.2.1 (by decide) (by decide) (by decide),
    hserved.1 (by decide) 0 ⟨by decide, by decide⟩, ?_⟩
  obtain ⟨u, hu⟩ : ∃ u, S.step t (.own .shutdown) = some u :=
    Option.isSome_iff_exists.mp (by decide)
  exact hstopped.2.2.2.2 u hu 1

end GrpcWorker

end ThreadComponent
