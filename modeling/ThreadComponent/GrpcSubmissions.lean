import ThreadComponent.GrpcListener

/-!
# The submissions of cGenericGrpcWorker

An RPC that was received keeps the server from returning from `Shutdown` until its `Finish`
has completed, so behind it nothing is submitted any more. The first listener is armed with
no regard to a stop, and a stop hook may have waited for another server than the one of the
queue that it shuts down.
-/

set_option autoImplicit false
set_option linter.unusedSectionVars false

namespace ThreadComponent

open Transitions System

namespace GrpcWorker
variable {C : Type} [DecidableEq C] {s t : BaseWorker (GrpcCaller C)} {o o' : GrpcWorker C}
  {tag : Nat} {op : GrpcOp}

/-- `Finish` was submitted for every RPC of the latest server, and it receives no other. -/
def Quiet (o : GrpcWorker C) : Prop :=
  (∀ tag ∈ (o.server o.latest).received, (o.call tag).mStatus = .finish) ∧
    ((o.server o.latest).shutdown = true ∨
      ∀ op ∈ o.ops, op.kind = .request → op.ready ≠ none)

instance (o : GrpcWorker C) : Decidable o.Quiet := inferInstanceAs (Decidable (_ ∧ _))

/-- The RPCs that `run` has not submitted a `Finish` for are known to the server. -/
structure Submits (o : GrpcWorker C) : Prop where
  requested : ∀ op ∈ o.ops, op.kind = .request → op.ready = some true →
    op.tag ∈ (o.server op.queue).received
  event : ∀ tag, o.hook = .event tag true → (o.call tag).mStatus = .process →
    tag ∈ (o.server o.latest).received
  processing : ∀ tag, o.hook.processing = some tag → tag ∈ (o.server o.latest).received
  received : ∀ i, ∀ tag ∈ (o.server i).received, tag < o.allocated
  quiet : o.hook.serving = true → (o.queue o.latest).shutdown = true → o.Quiet
  late : ∀ q, (o.queue q).late = false

/-- The worker arms its first listener on a queue that is up, and while it serves, a stop hook
shuts the queue down only where nothing remains to be submitted. -/
def ShutsDownInOrder (s : Object (GrpcCaller C) (GrpcWorker C)) :
    ObjectAction (GrpcCaller C) (GrpcAction C) → Prop
  | .own .arm => ∀ q ∈ s.ext.mCq, (s.ext.queue q).shutdown = false
  | .own (.stopQueue _) => s.ext.hook.serving = true → s.ext.mCq = none ∨ s.ext.Quiet
  | _ => True

instance (s : Object (GrpcCaller C) (GrpcWorker C))
    (a : ObjectAction (GrpcCaller C) (GrpcAction C)) : Decidable (ShutsDownInOrder s a) := by
  induction a using ObjectAction.casesOn with
  | base a => induction a using BaseAction.casesOn <;> (unfold ShutsDownInOrder; infer_instance)
  | own a => induction a using GrpcAction.casesOn <;> (unfold ShutsDownInOrder; infer_instance)

theorem latest_of_succ {q : Nat} (h : q + 1 = o.queues) : o.latest = q := by
  rw [latest, ← h, Nat.add_sub_cancel]

/-- While `run` has an RPC in hand that it has not finished, the queue is up. -/
theorem Submits.up (hx : Submits o) (hown : Owned o) (hhook : o.hook.processing = some tag) :
    (o.queue o.latest).shutdown = false := by
  by_contra hne
  have hserving := GrpcHook.serving_of_processing hhook
  have hfinish := (hx.quiet hserving (by simpa using hne)).1 tag (hx.processing tag hhook)
  rw [hown.processing tag hhook] at hfinish
  cases hfinish

/-- A step that leaves the objects, their operations and the RPCs alone. -/
theorem Submits.of_same (hx : Submits o) (hhook : o'.hook = o.hook)
    (hsame : o'.ops = o.ops ∧ o'.call = o.call ∧ o'.allocated = o.allocated ∧
      o'.queues = o.queues)
    (hreceived : ∀ i, (o'.server i).received = (o.server i).received)
    (hlate : ∀ q, (o'.queue q).late = (o.queue q).late)
    (hquiet : o.hook.serving = true → (o'.queue o.latest).shutdown = true → o'.Quiet) :
    Submits o' := by
  obtain ⟨hops, hcall, hallocated, hqueues⟩ := hsame
  have hlatest : o'.latest = o.latest := by rw [latest, latest, hqueues]
  refine ⟨fun op hop => ?_, fun tag => ?_, fun tag => ?_, fun i tag => ?_, ?_, fun q => ?_⟩
  · rw [hops] at hop
    rw [hreceived]
    exact hx.requested op hop
  · rw [hhook, hcall, hlatest, hreceived]
    exact hx.event tag
  · rw [hhook, hlatest, hreceived]
    exact hx.processing tag
  · rw [hreceived, hallocated]
    exact hx.received i tag
  · rw [hhook, hlatest]
    exact hquiet
  · rw [hlate]
    exact hx.late q

/-- A step of another thread that shuts down no queue; no server comes up again. -/
theorem Quiet.of_same (hx : Quiet o)
    (hsame : o'.ops = o.ops ∧ o'.call = o.call ∧ o'.allocated = o.allocated ∧
      o'.queues = o.queues)
    (hserver : ∀ i, (o'.server i).received = (o.server i).received ∧
      ((o.server i).shutdown = true → (o'.server i).shutdown = true)) : Quiet o' := by
  obtain ⟨hops, hcall, -, hqueues⟩ := hsame
  have hlatest : o'.latest = o.latest := by rw [latest, latest, hqueues]
  constructor
  · rw [hlatest, (hserver _).1, hcall]
    exact hx.1
  · rw [hlatest, hops]
    exact hx.2.imp_left (hserver _).2

theorem Submits.rest (hx : Submits o) (hops : o'.ops = []) (hnew : o'.hook.serving = false)
    (hreceived : ∀ i, (o'.server i).received = (o.server i).received)
    (hallocated : o'.allocated = o.allocated)
    (hlate : ∀ q, (o'.queue q).late = (o.queue q).late) : Submits o' where
  requested op hop := by
    rw [hops] at hop
    cases hop
  event tag htag := by
    rw [htag] at hnew
    cases hnew
  processing tag htag := by
    have hbusy := GrpcHook.busy_of_resting hnew
    rw [GrpcHook.busy_of_processing htag] at hbusy
    cases hbusy
  received i := by
    rw [hreceived, hallocated]
    exact hx.received i
  quiet hserving := by
    rw [hnew] at hserving
    cases hserving
  late q := (hlate q).trans (hx.late q)

theorem Submits.moveHook {hook : GrpcHook} (hx : Submits o) (hserving : o.hook.serving = true)
    (hevent : ∀ tag, hook ≠ .event tag true)
    (hprocessing : ∀ tag, hook.processing = some tag →
      tag ∈ (o.server o.latest).received) : Submits (o.setHook hook) :=
  { hx with
    event := fun tag htag => absurd htag (hevent tag)
    processing := hprocessing
    quiet := fun _ => hx.quiet hserving }

theorem newCall_queue (q : Nat) :
    (o.newCall q).queue = Function.update o.queue q
      { o.queue q with late := (o.queue q).late || (o.queue q).shutdown } := by
  simp [newCall, armCall, submit, setCall, setQueue]

theorem newCall_late {q : Nat} (hlate : ∀ q, (o.queue q).late = false)
    (hup : (o.queue q).shutdown = false) (d : Nat) : ((o.newCall q).queue d).late = false := by
  rw [newCall_queue]
  by_cases hd : d = q
  · rw [hd, Function.update_self]
    simp [hlate q, hup]
  · rw [Function.update_of_ne hd]
    exact hlate d

theorem newCall_shutdown (q d : Nat) :
    ((o.newCall q).queue d).shutdown = (o.queue d).shutdown := by
  rw [newCall_queue]
  exact field_update CompletionQueue.shutdown (by rfl) d

/-- A new object submits its request on a queue that is up. -/
theorem Submits.newCall {q : Nat} {hook : GrpcHook} (hx : Submits o) (hq : q + 1 = o.queues)
    (hup : (o.queue q).shutdown = false)
    (hevent : ∀ tag, hook ≠ .event tag true)
    (hprocessing : ∀ tag, hook.processing = some tag →
      tag ∈ (o.server o.latest).received) : Submits ((o.newCall q).setHook hook) where
  requested op hop hkind hready := by
    change op ∈ (o.newCall q).ops at hop
    rw [newCall_ops, List.mem_append, List.mem_singleton] at hop
    rcases hop with hop | rfl
    · exact hx.requested op hop hkind hready
    · cases hready
  event tag htag := absurd htag (hevent tag)
  processing := hprocessing
  received i tag htag := Nat.lt_succ_of_lt (hx.received i tag htag)
  quiet _ hdown := by
    change ((o.newCall q).queue o.latest).shutdown = true at hdown
    rw [latest_of_succ hq, newCall_shutdown, hup] at hdown
    cases hdown
  late := newCall_late hx.late hup

theorem Submits.event_step (hx : Submits o) (hown : Owned o) (hhook : o.hook = .next)
    (hop : op ∈ o.ops) {ok : Bool} (hready : op.ready = some ok) :
    Submits ({ o with ops := o.ops.erase op }.setHook (.event op.tag ok)) where
  requested d hd := hx.requested d (List.mem_of_mem_erase hd)
  event tag htag hstatus := by
    obtain ⟨rfl, rfl⟩ : op.tag = tag ∧ ok = true := by
      cases htag
      exact ⟨rfl, rfl⟩
    have hkind : op.kind = .request := by
      change (o.call op.tag).mStatus = .process at hstatus
      rw [(hown.op op hop).2] at hstatus
      revert hstatus
      cases op.kind <;> simp [OpKind.status]
    have hmem := hx.requested op hop hkind hready
    rwa [← latest_of_succ (hown.queue op hop).1] at hmem
  processing tag htag := by cases htag
  received := hx.received
  quiet _ hdown := by
    have hquiet := hx.quiet (by rw [hhook]; rfl) hdown
    exact ⟨hquiet.1, hquiet.2.imp_right fun hnone d hd => hnone d (List.mem_of_mem_erase hd)⟩
  late := hx.late

theorem Submits.deleteCall (hx : Submits o) (hserving : o.hook.serving = true) :
    Submits ((o.deleteCall tag).setHook .next) where
  requested := hx.requested
  event _ htag := by cases htag
  processing _ htag := by cases htag
  received := hx.received
  quiet _ hdown := by
    obtain ⟨hfinish, hnone⟩ := hx.quiet hserving hdown
    refine ⟨fun d hd => ?_, hnone⟩
    change (Function.update o.call tag _ d).mStatus = .finish
    by_cases hdt : d = tag
    · rw [hdt, Function.update_self]
      exact hfinish tag (hdt ▸ hd)
    · rw [Function.update_of_ne hdt]
      exact hfinish d hd
  late := hx.late

/-- The object in hand submits its `Finish`, on a queue that is up. -/
theorem Submits.finishCall {status : GrpcStatus} (hx : Submits o) (hown : Owned o)
    (hhook : o.hook = .finish tag status) :
    Submits ((o.finishCall tag status).setHook .next) := by
  have hprocessing : o.hook.processing = some tag := by rw [hhook]; rfl
  have hup := hx.up hown hprocessing
  have hlatest := latest_of_succ (hown.busy tag (GrpcHook.busy_of_processing hprocessing)).2.2.1
  have hops : (o.finishCall tag status).ops =
      o.ops ++ [{ tag := tag, queue := (o.call tag).queue, kind := .finish }] := rfl
  have hqueue : (o.finishCall tag status).queue =
      Function.update o.queue o.latest { o.queue o.latest with
        late := (o.queue o.latest).late || (o.queue o.latest).shutdown } := by
    rw [hlatest]
    rfl
  refine ⟨fun op hop hkind hready => ?_, fun d hd => (by cases hd),
    fun d hd => (by cases hd),
    hx.received, fun _ hdown => ?_, fun q => ?_⟩
  · change op ∈ (o.finishCall tag status).ops at hop
    rw [hops, List.mem_append, List.mem_singleton] at hop
    rcases hop with hop | rfl
    · exact hx.requested op hop hkind hready
    · cases hkind
  · change ((o.finishCall tag status).queue o.latest).shutdown = true at hdown
    rw [hqueue, Function.update_self, hup] at hdown
    cases hdown
  · change ((o.finishCall tag status).queue q).late = false
    rw [hqueue]
    by_cases hq : q = o.latest
    · rw [hq, Function.update_self]
      simp [hx.late, hup]
    · rw [Function.update_of_ne hq]
      exact hx.late q

theorem Submits.dispatch {ok : Bool} (hx : Submits o) (hown : Owned o)
    (hhook : o.hook = .event tag ok) :
    Submits (if ok then o.proceed tag else (o.deleteCall tag).setHook .next) := by
  have hserving : o.hook.serving = true := by rw [hhook]; rfl
  cases ok with
  | false => exact hx.deleteCall hserving
  | true =>
    change Submits (o.proceed tag)
    unfold GrpcWorker.proceed
    split
    · rename_i hcreate
      exact absurd hcreate (hown.busy tag (by rw [hhook]; rfl)).2.2.2
    · rename_i hprocess
      refine hx.moveHook hserving (by simp) fun d hd => ?_
      rw [← Option.some.inj hd]
      exact hx.event tag hhook hprocess
    · exact hx.deleteCall hserving

theorem Submits.process {hook : GrpcHook} (hx : Submits o)
    (hold : o.hook.processing = some tag) (hnew : hook.processing = some tag) :
    Submits (o.setHook hook) := by
  refine hx.moveHook (GrpcHook.serving_of_processing hold) (fun d hd => ?_) fun d hd => ?_
  · rw [hd] at hnew
    cases hnew
  · rw [hnew] at hd
    rw [← Option.some.inj hd]
    exact hx.processing tag hold

theorem Submits.run {a : GrpcAction C} (hx : Submits o) (hown : Owned o)
    (harm : a = .arm → ∀ q ∈ o.mCq, (o.queue q).shutdown = false)
    (h : run s o a = some o') : Submits o' := by
  cases runStep_of_run h with
  | @arm q _ hq =>
    exact hx.newCall (hown.cq q hq) (harm rfl q hq) (by simp) (fun d hd => by cases hd)
  | timeout => exact hx
  | shutdown _ hq _ hnone =>
    exact hx.rest (hown.ops_nil hq hnone) rfl (fun _ => rfl) rfl
      (field_update CompletionQueue.late (by rfl))
  | event hhook hready hop => exact hx.event_step hown hhook hop hready
  | dispatch hhook => exact hx.dispatch hown hhook
  | continueRunning hhook => exact hx.process (by rw [hhook]; rfl) (by split <;> rfl)
  | @rearm tag hhook =>
    have hprocessing : o.hook.processing = some tag := by rw [hhook]; rfl
    have hq := (hown.busy tag (GrpcHook.busy_of_processing hprocessing)).2.2.1
    have hup := hx.up hown hprocessing
    rw [latest_of_succ hq] at hup
    refine hx.newCall hq hup (by simp) fun d hd => ?_
    rw [← Option.some.inj hd]
    exact hx.processing tag hprocessing
  | executed hhook | executeStopped hhook => exact hx.process (by rw [hhook]; rfl) rfl
  | finish hhook => exact hx.finishCall hown hhook

/-! ## gRPC, the stop hook and the destructor -/

/-- No RPC comes in on a queue that was shut down in order. -/
theorem Submits.receive (hx : Submits o) (hown : Owned o) (hop : op ∈ o.ops)
    (hkind : op.kind = .request) (hready : op.ready = none)
    (hup : (o.server op.queue).shutdown = false) :
    Submits ((o.complete op true).setServer op.queue
      { o.server op.queue with received := op.tag :: (o.server op.queue).received }) := by
  have hlatest := latest_of_succ (hown.queue op hop).1
  have hreceived : ∀ i, (o.server i).received ⊆
      (Function.update o.server op.queue { o.server op.queue with
        received := op.tag :: (o.server op.queue).received } i).received := fun i => by
    by_cases hi : i = op.queue
    · rw [hi, Function.update_self]
      exact List.subset_cons_self _ _
    · rw [Function.update_of_ne hi]
      exact List.Subset.refl _
  refine ⟨fun d hd hdkind hdready => ?_, fun tag htag hstatus => hreceived _ (hx.event tag htag hstatus),
    fun tag htag => hreceived _ (hx.processing tag htag), fun i tag htag => ?_,
    fun hserving hdown => ?_, hx.late⟩
  · rcases mem_complete hd with rfl | hd
    · change op.tag ∈ (Function.update o.server op.queue _ op.queue).received
      rw [Function.update_self]
      exact List.mem_cons_self
    · exact hreceived _ (hx.requested d hd hdkind hdready)
  · change tag ∈ (Function.update o.server op.queue _ i).received at htag
    by_cases hi : i = op.queue
    · rw [hi, Function.update_self] at htag
      rcases List.mem_cons.mp htag with rfl | htag
      · exact hown.tag_lt hop
      · exact hx.received _ tag htag
    · rw [Function.update_of_ne hi] at htag
      exact hx.received i tag htag
  · rcases (hx.quiet hserving hdown).2 with hserver | hnone
    · rw [hlatest, hup] at hserver
      cases hserver
    · exact absurd hready (hnone op hop hkind)

theorem Submits.failRequest (hx : Submits o) :
    Submits (o.complete op false) where
  requested d hd hkind hready := by
    rcases mem_complete hd with rfl | hd
    · cases hready
    · exact hx.requested d hd hkind hready
  event := hx.event
  processing := hx.processing
  received := hx.received
  quiet hserving hdown := by
    obtain ⟨hfinish, hnone⟩ := hx.quiet hserving hdown
    refine ⟨hfinish, hnone.imp_right fun hnone d hd hkind => ?_⟩
    rcases mem_complete hd with rfl | hd
    · simp
    · exact hnone d hd hkind
  late := hx.late

/-- An RPC has finished: the server forgets it, and no other. -/
theorem Submits.finished {ok : Bool} (hx : Submits o) (hown : Owned o) (hop : op ∈ o.ops)
    (hkind : op.kind = .finish) :
    Submits ((o.complete op ok).setServer op.queue
      { o.server op.queue with received := (o.server op.queue).received.erase op.tag }) := by
  have hstatus : (o.call op.tag).mStatus = .finish := by
    rw [(hown.op op hop).2, hkind]
    rfl
  have hkept : ∀ i tag, (o.call tag).mStatus = .process → tag ∈ (o.server i).received →
      tag ∈ (Function.update o.server op.queue { o.server op.queue with
        received := (o.server op.queue).received.erase op.tag } i).received :=
    fun i tag hprocess htag => by
      by_cases hi : i = op.queue
      · rw [hi, Function.update_self]
        refine (List.mem_erase_of_ne fun heq => ?_).mpr (hi ▸ htag)
        rw [heq, hstatus] at hprocess
        cases hprocess
      · rwa [Function.update_of_ne hi]
  have hold : ∀ i tag, tag ∈ (Function.update o.server op.queue { o.server op.queue with
      received := (o.server op.queue).received.erase op.tag } i).received →
      tag ∈ (o.server i).received := fun i tag htag => by
    by_cases hi : i = op.queue
    · rw [hi, Function.update_self] at htag
      exact hi ▸ List.mem_of_mem_erase htag
    · rwa [Function.update_of_ne hi] at htag
  refine ⟨fun d hd hdkind hdready => ?_, fun tag htag hprocess => ?_, fun tag htag => ?_,
    fun i tag htag => hx.received i tag (hold i tag htag), fun hserving hdown => ?_, hx.late⟩
  · rcases mem_complete hd with rfl | hd
    · rw [hkind] at hdkind
      cases hdkind
    · refine hkept _ _ ?_ (hx.requested d hd hdkind hdready)
      rw [(hown.op d hd).2, hdkind]
      rfl
  · exact hkept _ _ hprocess (hx.event tag htag hprocess)
  · exact hkept _ _ (hown.processing tag htag) (hx.processing tag htag)
  · obtain ⟨hfinish, hnone⟩ := hx.quiet hserving hdown
    refine ⟨fun tag htag => hfinish tag (hold _ tag htag), ?_⟩
    change (Function.update o.server op.queue _ o.latest).shutdown = true ∨ _
    rw [received_shutdown]
    refine hnone.imp_right fun hnone d hd hdkind => ?_
    rcases mem_complete hd with rfl | hd
    · simp
    · exact hnone d hd hdkind

theorem Submits.grpc {a : GrpcAction C} (hx : Submits o) (hown : Owned o)
    (h : o.grpc a = some o') : Submits o' := by
  cases a with
  | receive op =>
    simp only [GrpcWorker.grpc, Option.ite_none_right_eq_some, Option.some.injEq] at h
    obtain ⟨⟨hop, hkind, hready, hup⟩, rfl⟩ := h
    exact hx.receive hown hop hkind hready hup
  | finished op ok =>
    simp only [GrpcWorker.grpc, Option.ite_none_right_eq_some, Option.some.injEq] at h
    obtain ⟨⟨hop, hkind, -⟩, rfl⟩ := h
    exact hx.finished hown hop hkind
  | failRequest op =>
    simp only [GrpcWorker.grpc, Option.ite_none_right_eq_some, Option.some.injEq] at h
    obtain ⟨-, rfl⟩ := h
    exact hx.failRequest
  | _ => cases h

theorem destroyServer_received (i : Nat) :
    (o.destroyServer.server i).received = (o.server i).received := by
  unfold GrpcWorker.destroyServer
  split
  · exact field_update GrpcServer.received (by rfl) i
  · rfl

theorem destroyQueue_queue (q : Nat) :
    (o.destroyQueue.queue q).shutdown = (o.queue q).shutdown ∧
      (o.destroyQueue.queue q).drained = (o.queue q).drained ∧
      (o.destroyQueue.queue q).late = (o.queue q).late := by
  unfold GrpcWorker.destroyQueue
  split
  · exact ⟨field_update CompletionQueue.shutdown (by rfl) q,
      field_update CompletionQueue.drained (by rfl) q, field_update CompletionQueue.late (by rfl) q⟩
  · exact ⟨rfl, rfl, rfl⟩

theorem destroyServer_queue : o.destroyServer.queue = o.queue := by
  unfold GrpcWorker.destroyServer
  split <;> rfl

theorem destroyServer_mCq : o.destroyServer.mCq = o.mCq := by
  unfold GrpcWorker.destroyServer
  split <;> rfl

theorem destroyQueue_server : o.destroyQueue.server = o.server := by
  unfold GrpcWorker.destroyQueue
  split <;> rfl

theorem preRun_received {a : GrpcAction C} (h : o.preRun a = some o') :
    (∀ i, (o'.server i).received = (o.server i).received) ∧ o'.allocated = o.allocated ∧
      ∀ q, (o'.queue q).late = (o.queue q).late := by
  have hserver := destroyServer_received (o := o)
  have hqueue := fun q => (destroyQueue_queue (o := o) q).2.2
  have hserver' := destroyQueue_server (o := o)
  have hqueue' := destroyServer_queue (o := o)
  have hallocated : o.destroyServer.allocated = o.allocated ∧
      o.destroyQueue.allocated = o.allocated := by
    constructor
    · unfold GrpcWorker.destroyServer
      split <;> rfl
    · unfold GrpcWorker.destroyQueue
      split <;> rfl
  cases a <;> simp only [GrpcWorker.preRun] at h <;>
    grind -linarith [setHook, startupFailed, GrpcWorker.addCompletionQueue]

theorem Submits.preRun {a : GrpcAction C} (hx : Submits o) (hown : Owned o)
    (h : o.preRun a = some o') : Submits o' := by
  obtain ⟨hreceived, hallocated, hlate⟩ := preRun_received h
  have hnew := GrpcHook.resting_of_preRun (preRun_home h).2
  exact hx.rest ((hown.preRun h).resting hnew) hnew hreceived hallocated hlate

theorem Submits.stopTriggered {a : GrpcAction C} (hx : Submits o)
    (hstop : ∀ c, a = .stopQueue c → o.hook.serving = true → o.mCq = none ∨ o.Quiet)
    (h : o.stopTriggered a = some o') : Submits o' := by
  have hhook := stopTriggered_hook h
  have hsame := (stopTriggered_same h).1
  have hshutdown := stopTriggered_shutdown h
  cases a with
  | stopServer c =>
    have hreceived : (∀ i, (o'.server i).received = (o.server i).received) ∧
        o'.queue = o.queue := by
      simp only [GrpcWorker.stopTriggered, Option.ite_none_right_eq_some,
        Option.some.injEq] at h
      obtain ⟨-, rfl⟩ := h
      split
      · exact ⟨field_update GrpcServer.received (by rfl), rfl⟩
      · exact ⟨fun _ => rfl, rfl⟩
    refine hx.of_same hhook hsame hreceived.1 (fun q => by rw [hreceived.2])
      fun hserving hdown => ?_
    rw [hreceived.2] at hdown
    exact (hx.quiet hserving hdown).of_same hsame fun i => ⟨hreceived.1 i, hshutdown i⟩
  | stopWait c =>
    have hframe : o'.server = o.server ∧ o'.queue = o.queue := by
      simp only [GrpcWorker.stopTriggered] at h
      grind -linarith [setStop]
    refine hx.of_same hhook hsame (fun i => by rw [hframe.1]) (fun q => by rw [hframe.2])
      fun hserving hdown => ?_
    rw [hframe.2] at hdown
    exact (hx.quiet hserving hdown).of_same hsame fun i => ⟨by rw [hframe.1], hshutdown i⟩
  | stopQueue c =>
    simp only [GrpcWorker.stopTriggered, Option.ite_none_right_eq_some, Option.some.injEq] at h
    obtain ⟨-, rfl⟩ := h
    split
    · rename_i q hq
      exact hx.of_same rfl ⟨rfl, rfl, rfl, rfl⟩ (fun _ => rfl)
        (field_update CompletionQueue.late (by rfl))
        fun hserving _ => (hstop c rfl hserving).resolve_left (by simp [hq])
    · exact hx.of_same rfl ⟨rfl, rfl, rfl, rfl⟩ (fun _ => rfl) (fun _ => rfl) hx.quiet
  | _ => cases h

theorem destroy_received {a : GrpcAction C} (h : destroy s o a = some o') :
    (∀ i, (o'.server i).received = (o.server i).received) ∧
      ∀ q, (o'.queue q).late = (o.queue q).late ∧
        (o'.queue q).shutdown = (o.queue q).shutdown := by
  have hserver := destroyServer_received (o := o)
  have hqueue := destroyQueue_queue (o := o)
  have hserver' := destroyQueue_server (o := o)
  have hqueue' := destroyServer_queue (o := o)
  cases a <;> simp only [destroy] at h <;> grind -linarith

theorem Submits.destroy {a : GrpcAction C} (hx : Submits o) (h : destroy s o a = some o') :
    Submits o' := by
  obtain ⟨hreceived, hqueue⟩ := destroy_received h
  have hsame := (destroy_same h).1
  refine hx.of_same (destroy_hook h) hsame hreceived (fun q => (hqueue q).1)
    fun hserving hdown => ?_
  rw [(hqueue _).2] at hdown
  exact (hx.quiet hserving hdown).of_same hsame fun i => ⟨hreceived i, destroy_shutdown h i⟩

theorem Submits.own {a : GrpcAction C} (hx : Submits o) (hown : Owned o)
    (harm : a = .arm → ∀ q ∈ o.mCq, (o.queue q).shutdown = false)
    (hstop : ∀ c, a = .stopQueue c → o.hook.serving = true → o.mCq = none ∨ o.Quiet)
    (h : own s o a = some o') : Submits o' := by
  rcases own_cases h with h | h | h | h | h
  · exact hx.preRun hown h
  · exact hx.run hown harm h
  · exact hx.grpc hown h
  · exact hx.stopTriggered hstop h
  · exact hx.destroy h

theorem Submits.sync {a : BaseAction (GrpcCaller C)} (hx : Submits o) (hown : Owned o)
    (hat : HookAt s.current o.hook) (hm : BaseWorker.Moves s a t) (hy : sync s a o = some o') :
    Submits o' := by
  obtain ⟨hsame, hmoves⟩ := sync_same hat hm hy
  have hreceived : ∀ i, (o'.server i).received = (o.server i).received := fun i => by
    rw [hsame.server]
  have hlate : ∀ q, (o'.queue q).late = (o.queue q).late := fun q => by rw [hsame.queue]
  have hquiet : ∀ x : GrpcWorker C, Submits x → x.hook = o'.hook → SameMembers x o' →
      Submits o' := fun x hx hhook hsame => by
    refine hx.of_same hhook.symm hsame.ops (fun i => by rw [hsame.server])
      (fun q => by rw [hsame.queue]) fun hserving hdown => ?_
    rw [hsame.queue] at hdown
    refine (hx.quiet hserving hdown).of_same hsame.ops fun i => ⟨by rw [hsame.server], ?_⟩
    rw [hsame.server]
    exact id
  rcases hmoves with hhook | ⟨hold, hnew⟩ | ⟨tag, hold, hnew⟩
  · exact hquiet o hx hhook.symm hsame
  · exact hx.rest (hsame.ops.1.trans (hown.resting hold)) hnew hreceived hsame.ops.2.2.1 hlate
  · have hmoved : Submits (o.setHook (.requestStop tag)) :=
      hx.process (by rw [hold]; rfl) rfl
    exact hquiet _ hmoved hnew.symm ⟨hsame.ops, hsame.mCq, hsame.server, hsame.queue⟩

theorem submits_init : Submits ({} : GrpcWorker C) where
  requested _ h := by cases h
  event _ h := by cases h
  processing _ h := by cases h
  received _ _ h := by cases h
  quiet h := by cases h
  late _ := rfl

theorem submits_of_reachable {s : Object (GrpcCaller C) (GrpcWorker C)}
    (hr : (cGenericGrpcWorker C).system.ReachableBy ShutsDownInOrder s) : Submits s.ext := by
  refine ReachableBy.invariant (P := fun s => Submits s.ext) submits_init
    (fun s a t hr hx hok hs => ?_) hr
  have hown := owned_of_reachable hr
  cases a with
  | base a =>
    obtain ⟨hb, hy⟩ := Derived.step_base.mp hs
    obtain ⟨hi, hu⟩ := Derived.inherits hr
    exact hx.sync hown (hookAt_of_reachable hr) (BaseWorker.moves_of_step hi hu hb) hy
  | own a =>
    refine hx.own hown ?_ ?_ (Derived.step_own.mp hs).2
    · rintro rfl
      exact hok
    · rintro c rfl
      exact hok

/-- In a run that arms its first listener on a queue that is up, and whose queue is not shut
down while it has anything left to submit, no operation is submitted behind the shutdown of
its queue. -/
theorem nothing_is_submitted_late (C : Type) [DecidableEq C]
    (s : Object (GrpcCaller C) (GrpcWorker C))
    (hr : (cGenericGrpcWorker C).system.ReachableBy ShutsDownInOrder s) :
    ∀ q, (s.ext.queue q).late = false :=
  (submits_of_reachable hr).late

theorem nothing_is_submitted_late_served :
    let S := (cGenericGrpcWorker Bool).system
    let s := S.after ShutsDownInOrder S.init
      (builtSchedule ++ receivedSchedule ++ processedSchedule ++ stoppedSchedule)
    (s.ext.queue 0).shutdown = true ∧ (s.ext.queue 0).late = false := by
  intro S s
  have hs : S.ReachableBy ShutsDownInOrder s := reaches_after (by decide)
  exact ⟨by decide, nothing_is_submitted_late Bool s hs 0⟩

/-- The stop check of `threadRunner` is passed when `true` calls `requestStop`. -/
def stoppedBeforeArmSchedule : List (ObjectAction (GrpcCaller Bool) (GrpcAction Bool)) :=
  [.base (.checkStop 0), .base (.call (.user true) .requestStop),
    .base (.stopSection (.user true)), .own (.stopServer (.user true)),
    .own (.stopWait (.user true)), .own (.stopQueue (.user true)),
    .base (.setRunning 0), .own .arm]

/-- `run` arms its first listener on a queue that a stop has shut down. -/
theorem first_listener_is_late :
    ¬ ∀ s, (cGenericGrpcWorker Bool).system.Reachable s → ∀ q, (s.ext.queue q).late = false := by
  intro h
  let S := (cGenericGrpcWorker Bool).system
  have hs : S.Reachable (S.after Free S.init (builtSchedule ++ stoppedBeforeArmSchedule)) :=
    reaches_after (by decide)
  have hlate : ((S.after Free S.init (builtSchedule ++ stoppedBeforeArmSchedule)).ext.queue
      0).late = true := by decide
  rw [h _ hs 0] at hlate
  cases hlate

end GrpcWorker

end ThreadComponent
