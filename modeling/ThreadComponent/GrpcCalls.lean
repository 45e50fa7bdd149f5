import ThreadComponent.GrpcHooks

/-!
# The CallData objects of cGenericGrpcWorker

Every live object has one outstanding operation, or `run` has it in hand. The one in hand is
deleted, or submits its next operation, before `run` asks for the next event.
-/

set_option autoImplicit false
set_option linter.unusedSectionVars false

namespace ThreadComponent

open Transitions System

def OpKind.status : OpKind → RpcStatus
  | .request => .process
  | .finish => .finish

/-- The object that `run` has in hand, its event not dispatched yet or in `Proceed`. -/
def GrpcHook.busy : GrpcHook → Option Nat
  | .event tag _ | .continueRunning tag | .rearm tag | .execute tag | .requestStop tag
  | .finish tag _ => some tag
  | _ => none

def GrpcHook.processing : GrpcHook → Option Nat
  | .continueRunning tag | .rearm tag | .execute tag | .requestStop tag | .finish tag _ =>
    some tag
  | _ => none

def GrpcHook.serving : GrpcHook → Bool
  | .next | .event _ _ | .continueRunning _ | .rearm _ | .execute _ | .requestStop _
  | .finish _ _ => true
  | _ => false

theorem GrpcHook.busy_of_processing {hook : GrpcHook} {tag : Nat}
    (h : hook.processing = some tag) : hook.busy = some tag := by
  cases hook <;> first | exact h | cases h

theorem GrpcHook.serving_of_processing {hook : GrpcHook} {tag : Nat}
    (h : hook.processing = some tag) : hook.serving = true := by
  cases hook <;> first | rfl | cases h

theorem GrpcHook.busy_of_resting {hook : GrpcHook} (h : hook.serving = false) :
    hook.busy = none := by
  cases hook <;> first | rfl | cases h

theorem GrpcHook.resting_of_preRun {hook : GrpcHook} (h : hook.home = some .preRun) :
    hook.serving = false := by
  cases hook <;> first | rfl | cases h

namespace GrpcWorker
variable {C : Type} [DecidableEq C] {s t : BaseWorker (GrpcCaller C)} {o o' : GrpcWorker C}
  {tag : Nat} {op : GrpcOp}

def live (o : GrpcWorker C) (tag : Nat) : Prop := tag < o.allocated ∧ (o.call tag).deleted = 0

structure Owned (o : GrpcWorker C) : Prop where
  nodup : (o.ops.map GrpcOp.tag).Nodup
  op : ∀ op ∈ o.ops, o.live op.tag ∧ (o.call op.tag).mStatus = op.kind.status
  queue : ∀ op ∈ o.ops, op.queue + 1 = o.queues ∧ (o.call op.tag).queue = op.queue
  busy : ∀ tag, o.hook.busy = some tag → o.live tag ∧ tag ∉ o.ops.map GrpcOp.tag ∧
    (o.call tag).queue + 1 = o.queues ∧ (o.call tag).mStatus ≠ .create
  processing : ∀ tag, o.hook.processing = some tag → (o.call tag).mStatus = .process
  owed : ∀ tag, o.live tag → tag ∈ o.ops.map GrpcOp.tag ∨ o.hook.busy = some tag
  deleted : ∀ tag, (o.call tag).deleted ≤ 1 ∧ (o.allocated ≤ tag → (o.call tag).deleted = 0)
  resting : o.hook.serving = false → o.ops = []
  cq : ∀ q, o.mCq = some q → q + 1 = o.queues

@[simp] theorem newCall_ops (q : Nat) :
    (o.newCall q).ops = o.ops ++ [{ tag := o.allocated, queue := q, kind := .request }] := by
  simp [newCall, armCall, submit, setCall, setQueue]

@[simp] theorem newCall_call (q : Nat) :
    (o.newCall q).call =
      Function.update o.call o.allocated { queue := q, mStatus := .process } := by
  simp [newCall, armCall, submit, setCall, setQueue]

/-- Only the place of `run` changes, with the same object in hand. -/
theorem Owned.moveHook {hook : GrpcHook} (hx : Owned o) (hbusy : hook.busy = o.hook.busy)
    (hprocessing : ∀ tag, hook.processing = some tag → (o.call tag).mStatus = .process)
    (hrest : hook.serving = false → o.ops = []) : Owned (o.setHook hook) :=
  { hx with
    busy := fun tag htag => hx.busy tag (hbusy ▸ htag)
    processing := hprocessing
    owed := fun tag htag => by
      change _ ∨ hook.busy = some tag
      rw [hbusy]
      exact hx.owed tag htag
    resting := hrest }

theorem Owned.tag_lt (hx : Owned o) (hop : op ∈ o.ops) : op.tag < o.allocated :=
  (hx.op op hop).1.1

theorem Owned.newCall {q : Nat} {hook : GrpcHook} (hx : Owned o) (hq : q + 1 = o.queues)
    (hserving : hook.serving = true) (hbusy : hook.busy = o.hook.busy)
    (hprocessing : ∀ tag, hook.processing = some tag → (o.call tag).mStatus = .process) :
    Owned ((o.newCall q).setHook hook) := by
  have hlive : ∀ tag, ((o.newCall q).setHook hook).live tag ↔
      o.live tag ∨ tag = o.allocated := fun tag => by
    change tag < o.allocated + 1 ∧ ((o.newCall q).call tag).deleted = 0 ↔ _
    rw [newCall_call, live]
    by_cases htag : tag = o.allocated
    · simp [htag]
    · rw [Function.update_of_ne htag]
      exact ⟨fun h => .inl ⟨by omega, h.2⟩, fun h => h.elim (fun h => ⟨by omega, h.2⟩)
        fun h => absurd h htag⟩
  have hold : ∀ tag, tag < o.allocated → (o.newCall q).call tag = o.call tag :=
    fun tag htag => by
      rw [newCall_call, Function.update_of_ne (Nat.ne_of_lt htag)]
  have hnew : (o.newCall q).call o.allocated = { queue := q, mStatus := .process } := by
    rw [newCall_call, Function.update_self]
  have htags : ((o.newCall q).setHook hook).ops.map GrpcOp.tag =
      o.ops.map GrpcOp.tag ++ [o.allocated] := by
    change (o.newCall q).ops.map GrpcOp.tag = _
    rw [newCall_ops, List.map_append]
    rfl
  refine ⟨?_, fun op hop => ?_, fun op hop => ?_, fun tag htag => ?_, fun tag htag => ?_,
    fun tag htag => ?_, fun tag => ?_, fun hrest => ?_, hx.cq⟩
  · rw [htags, List.nodup_append]
    refine ⟨hx.nodup, by simp, fun a ha b hb heq => ?_⟩
    obtain ⟨op, hop, rfl⟩ := List.mem_map.mp ha
    rw [List.mem_singleton] at hb
    have hlt := hx.tag_lt hop
    omega
  · change op ∈ (o.newCall q).ops at hop
    rw [newCall_ops, List.mem_append, List.mem_singleton] at hop
    rcases hop with hop | rfl
    · refine ⟨(hlive _).mpr (.inl (hx.op op hop).1), ?_⟩
      change ((o.newCall q).call op.tag).mStatus = _
      rw [hold _ (hx.tag_lt hop)]
      exact (hx.op op hop).2
    · refine ⟨(hlive _).mpr (.inr rfl), ?_⟩
      change ((o.newCall q).call o.allocated).mStatus = _
      rw [hnew]
      rfl
  · change op ∈ (o.newCall q).ops at hop
    rw [newCall_ops, List.mem_append, List.mem_singleton] at hop
    rcases hop with hop | rfl
    · refine ⟨(hx.queue op hop).1, ?_⟩
      change ((o.newCall q).call op.tag).queue = _
      rw [hold _ (hx.tag_lt hop)]
      exact (hx.queue op hop).2
    · refine ⟨hq, ?_⟩
      change ((o.newCall q).call o.allocated).queue = _
      rw [hnew]
  · obtain ⟨hlive', hnot, hqueue, hstatus⟩ := hx.busy tag (hbusy ▸ htag)
    refine ⟨(hlive tag).mpr (.inl hlive'), ?_, ?_, ?_⟩
    · rw [htags, List.mem_append, List.mem_singleton]
      exact not_or.mpr ⟨hnot, Nat.ne_of_lt hlive'.1⟩
    · change ((o.newCall q).call tag).queue + 1 = _
      rw [hold _ hlive'.1]
      exact hqueue
    · change ((o.newCall q).call tag).mStatus ≠ _
      rw [hold _ hlive'.1]
      exact hstatus
  · have hlt := (hx.busy tag (hbusy ▸ GrpcHook.busy_of_processing htag)).1.1
    change ((o.newCall q).call tag).mStatus = _
    rw [hold _ hlt]
    exact hprocessing tag htag
  · rw [htags, List.mem_append, List.mem_singleton]
    rcases (hlive tag).mp htag with h | h
    · rcases hx.owed tag h with hmem | hheld
      · exact .inl (.inl hmem)
      · exact .inr (hbusy.trans hheld)
    · exact .inl (.inr h)
  · change ((o.newCall q).call tag).deleted ≤ 1 ∧
      (o.allocated + 1 ≤ tag → ((o.newCall q).call tag).deleted = 0)
    by_cases htag : tag = o.allocated
    · rw [htag, hnew]
      exact ⟨Nat.zero_le _, fun _ => rfl⟩
    · rw [newCall_call, Function.update_of_ne htag]
      exact ⟨(hx.deleted tag).1, fun h => (hx.deleted tag).2 (by omega)⟩
  · rw [setHook_hook, hserving] at hrest
    cases hrest

theorem Owned.event (hx : Owned o) (hhook : o.hook = .next) (hop : op ∈ o.ops) (ok : Bool) :
    Owned ({ o with ops := o.ops.erase op }.setHook (.event op.tag ok)) := by
  have hperm : (o.ops.map GrpcOp.tag).Perm (op.tag :: (o.ops.erase op).map GrpcOp.tag) :=
    (List.perm_cons_erase hop).map GrpcOp.tag
  have hnodup := hperm.nodup_iff.mp hx.nodup
  rw [List.nodup_cons] at hnodup
  exact
    { hx with
      nodup := hnodup.2
      op := fun d hd => hx.op d (List.mem_of_mem_erase hd)
      queue := fun d hd => hx.queue d (List.mem_of_mem_erase hd)
      busy := fun tag htag => by
        obtain rfl : op.tag = tag := Option.some.inj htag
        obtain ⟨hlive, hstatus⟩ := hx.op op hop
        obtain ⟨hqueue, hcall⟩ := hx.queue op hop
        refine ⟨hlive, hnodup.1, ?_, ?_⟩
        · exact hcall ▸ hqueue
        · change (o.call op.tag).mStatus ≠ .create
          rw [hstatus]
          cases op.kind <;> decide
      processing := fun tag htag => by cases htag
      owed := fun tag htag => by
        rcases hx.owed tag htag with hmem | hheld
        · rcases List.mem_cons.mp (hperm.mem_iff.mp hmem) with rfl | hmem
          · exact .inr rfl
          · exact .inl hmem
        · rw [hhook] at hheld
          cases hheld
      resting := fun hrest => by cases hrest }

theorem Owned.deleteCall (hx : Owned o) (hbusy : o.hook.busy = some tag) :
    Owned ((o.deleteCall tag).setHook .next) := by
  obtain ⟨hlive, hnot, -, -⟩ := hx.busy tag hbusy
  have hsame : ∀ d, d ≠ tag → (o.deleteCall tag).call d = o.call d := fun d hd =>
    Function.update_of_ne hd _ _
  have hself : ((o.deleteCall tag).call tag).deleted = 1 := by
    change (Function.update o.call tag _ tag).deleted = 1
    rw [Function.update_self, hlive.2]
  have hne : ∀ op ∈ o.ops, op.tag ≠ tag := fun op hop heq =>
    hnot (heq ▸ List.mem_map_of_mem hop)
  refine ⟨hx.nodup, fun op hop => ?_, fun op hop => ?_, fun d hd => (by cases hd),
    fun d hd => (by cases hd), fun d hd => ?_, fun d => ?_, fun hrest => (by cases hrest), hx.cq⟩
  · obtain ⟨hop', hstatus⟩ := hx.op op hop
    change (op.tag < o.allocated ∧ ((o.deleteCall tag).call op.tag).deleted = 0) ∧
      ((o.deleteCall tag).call op.tag).mStatus = _
    rw [hsame _ (hne op hop)]
    exact ⟨hop', hstatus⟩
  · change op.queue + 1 = o.queues ∧ ((o.deleteCall tag).call op.tag).queue = _
    rw [hsame _ (hne op hop)]
    exact hx.queue op hop
  · have hdt : d ≠ tag := by
      rintro rfl
      have hzero := hd.2
      change ((o.deleteCall d).call d).deleted = 0 at hzero
      rw [hself] at hzero
      cases hzero
    have hold : o.live d := ⟨hd.1, by rw [← hsame d hdt]; exact hd.2⟩
    rcases hx.owed d hold with hmem | hheld
    · exact .inl hmem
    · rw [hbusy] at hheld
      exact absurd (Option.some.inj hheld).symm hdt
  · change ((o.deleteCall tag).call d).deleted ≤ 1 ∧
      (o.allocated ≤ d → ((o.deleteCall tag).call d).deleted = 0)
    by_cases hdt : d = tag
    · rw [hdt, hself]
      exact ⟨Nat.le_refl _, fun hle => absurd hlive.1 (Nat.not_lt_of_le hle)⟩
    · rw [hsame d hdt]
      exact hx.deleted d

theorem Owned.finishCall {status : GrpcStatus} (hx : Owned o)
    (hhook : o.hook = .finish tag status) : Owned ((o.finishCall tag status).setHook .next) := by
  obtain ⟨hlive, hnot, hqueue, -⟩ := hx.busy tag (by rw [hhook]; rfl)
  have hsame : ∀ d, d ≠ tag → (o.finishCall tag status).call d = o.call d := fun d hd =>
    Function.update_of_ne hd _ _
  have hself : (o.finishCall tag status).call tag =
      { o.call tag with mStatus := .finish, reply := some status } := Function.update_self ..
  have hne : ∀ op ∈ o.ops, op.tag ≠ tag := fun op hop heq =>
    hnot (heq ▸ List.mem_map_of_mem hop)
  have hdeleted : ∀ d, ((o.finishCall tag status).call d).deleted = (o.call d).deleted :=
    fun d => by
      by_cases hdt : d = tag
      · rw [hdt, hself]
      · rw [hsame d hdt]
  have hops : (o.finishCall tag status).ops =
      o.ops ++ [{ tag := tag, queue := (o.call tag).queue, kind := .finish }] := rfl
  have htags : (o.finishCall tag status).ops.map GrpcOp.tag = o.ops.map GrpcOp.tag ++ [tag] := by
    rw [hops, List.map_append]
    rfl
  refine ⟨?_, fun op hop => ?_, fun op hop => ?_, fun d hd => (by cases hd),
    fun d hd => (by cases hd), fun d hd => ?_, fun d => ?_, fun hrest => (by cases hrest), hx.cq⟩
  · change ((o.finishCall tag status).ops.map GrpcOp.tag).Nodup
    rw [htags, List.nodup_append]
    refine ⟨hx.nodup, by simp, fun a ha b hb heq => ?_⟩
    rw [List.mem_singleton] at hb
    exact hnot (hb ▸ heq ▸ ha)
  · change op ∈ (o.finishCall tag status).ops at hop
    change (op.tag < o.allocated ∧ ((o.finishCall tag status).call op.tag).deleted = 0) ∧
      ((o.finishCall tag status).call op.tag).mStatus = _
    rw [hops, List.mem_append, List.mem_singleton] at hop
    rcases hop with hop | rfl
    · rw [hsame _ (hne op hop)]
      exact hx.op op hop
    · rw [hself]
      exact ⟨hlive, rfl⟩
  · change op ∈ (o.finishCall tag status).ops at hop
    change op.queue + 1 = o.queues ∧ ((o.finishCall tag status).call op.tag).queue = _
    rw [hops, List.mem_append, List.mem_singleton] at hop
    rcases hop with hop | rfl
    · rw [hsame _ (hne op hop)]
      exact hx.queue op hop
    · rw [hself]
      exact ⟨hqueue, rfl⟩
  · change d ∈ (o.finishCall tag status).ops.map GrpcOp.tag ∨ _
    rw [htags, List.mem_append, List.mem_singleton]
    have hold : o.live d := ⟨hd.1, by rw [← hdeleted d]; exact hd.2⟩
    rcases hx.owed d hold with hmem | hheld
    · exact .inl (.inl hmem)
    · rw [hhook] at hheld
      exact .inl (.inr (Option.some.inj hheld).symm)
  · change ((o.finishCall tag status).call d).deleted ≤ 1 ∧
      (o.allocated ≤ d → ((o.finishCall tag status).call d).deleted = 0)
    rw [hdeleted d]
    exact hx.deleted d

theorem mem_complete {ok : Bool} {d : GrpcOp} (hd : d ∈ (o.complete op ok).ops) :
    d = { op with ready := some ok } ∨ d ∈ o.ops :=
  (List.mem_cons.mp hd).imp_right List.mem_of_mem_erase

/-- gRPC completes an operation; what a server knows of its RPCs may change with it. -/
theorem Owned.complete {server : Nat → GrpcServer} (hx : Owned o) (hop : op ∈ o.ops)
    (ok : Bool) : Owned { o.complete op ok with server := server } := by
  have hperm : (o.ops.map GrpcOp.tag).Perm ((o.complete op ok).ops.map GrpcOp.tag) :=
    (List.perm_cons_erase hop).map GrpcOp.tag
  exact
    { hx with
      nodup := hperm.nodup_iff.mp hx.nodup
      op := fun d hd => by
        rcases mem_complete hd with rfl | hd
        · exact hx.op op hop
        · exact hx.op d hd
      queue := fun d hd => by
        rcases mem_complete hd with rfl | hd
        · exact hx.queue op hop
        · exact hx.queue d hd
      busy := fun tag htag => by
        obtain ⟨hlive, hnot, hrest⟩ := hx.busy tag htag
        exact ⟨hlive, fun hmem => hnot (hperm.mem_iff.mpr hmem), hrest⟩
      owed := fun tag htag => (hx.owed tag htag).imp_left hperm.mem_iff.mp
      resting := fun hrest => by
        rw [hx.resting hrest] at hop
        cases hop }

/-! ## Every step -/

/-- `run` goes on where it rests; the queue may be replaced. -/
theorem Owned.rest (hx : Owned o) (hold : o.hook.serving = false)
    (hnew : o'.hook.serving = false)
    (hsame : o'.ops = o.ops ∧ o'.call = o.call ∧ o'.allocated = o.allocated)
    (hcq : ∀ q, o'.mCq = some q → q + 1 = o'.queues) : Owned o' := by
  obtain ⟨hops, hcall, hallocated⟩ := hsame
  have hnil : o'.ops = [] := hops.trans (hx.resting hold)
  have hbusy := GrpcHook.busy_of_resting hnew
  have hlive : ∀ tag, ¬ o'.live tag := fun tag htag => by
    have hlive : o.live tag := by
      rw [live, hcall, hallocated] at htag
      exact htag
    rcases hx.owed tag hlive with hmem | hheld
    · rw [hx.resting hold] at hmem
      cases hmem
    · rw [GrpcHook.busy_of_resting hold] at hheld
      cases hheld
  refine ⟨by simp [hnil], by simp [hnil], by simp [hnil], by simp [hbusy], fun tag htag => ?_,
    fun tag htag => absurd htag (hlive tag), fun tag => ?_, fun _ => hnil, hcq⟩
  · rw [GrpcHook.busy_of_processing htag] at hbusy
    cases hbusy
  · rw [hcall, hallocated]
    exact hx.deleted tag

theorem Owned.of_same (hx : Owned o) (hhook : o'.hook = o.hook)
    (hsame : o'.ops = o.ops ∧ o'.call = o.call ∧ o'.allocated = o.allocated ∧
      o'.queues = o.queues)
    (hcq : ∀ q, o'.mCq = some q → o.mCq = some q) : Owned o' := by
  obtain ⟨hops, hcall, hallocated, hqueues⟩ := hsame
  have hlive : ∀ tag, o'.live tag ↔ o.live tag := fun tag => by
    rw [live, live, hcall, hallocated]
  constructor
  · rw [hops]
    exact hx.nodup
  · intro op hop
    rw [hops] at hop
    rw [hlive, hcall]
    exact hx.op op hop
  · intro op hop
    rw [hops] at hop
    rw [hcall, hqueues]
    exact hx.queue op hop
  · intro tag htag
    rw [hhook] at htag
    rw [hlive, hops, hcall, hqueues]
    exact hx.busy tag htag
  · intro tag htag
    rw [hhook] at htag
    rw [hcall]
    exact hx.processing tag htag
  · intro tag htag
    rw [hops, hhook]
    exact hx.owed tag ((hlive tag).mp htag)
  · intro tag
    rw [hcall, hallocated]
    exact hx.deleted tag
  · rw [hhook, hops]
    exact hx.resting
  · intro q hq
    rw [hqueues]
    exact hx.cq q (hcq q hq)

theorem Owned.preRun {a : GrpcAction C} (hx : Owned o) (h : o.preRun a = some o') :
    Owned o' := by
  have hcq := hx.cq
  have hframe : o.hook.serving = false ∧ o'.hook.serving = false ∧
      (o'.ops = o.ops ∧ o'.call = o.call ∧ o'.allocated = o.allocated) ∧
      ∀ q, o'.mCq = some q → q + 1 = o'.queues := by
    cases a <;> simp only [GrpcWorker.preRun] at h <;>
      grind -linarith [GrpcHook.serving, setHook, startupFailed, GrpcWorker.addCompletionQueue,
        destroyQueue, destroyServer, setQueue, setServer]
  obtain ⟨hold, hnew, hsame, hcq'⟩ := hframe
  exact hx.rest hold hnew hsame hcq'

theorem Owned.ops_nil {q : Nat} (hx : Owned o) (hq : o.mCq = some q)
    (hnone : ∀ op ∈ o.ops, op.queue ≠ q) : o.ops = [] := by
  refine List.eq_nil_iff_forall_not_mem.mpr fun op hop => hnone op hop ?_
  have hqueue := (hx.queue op hop).1
  have hlatest := hx.cq q hq
  omega

theorem Owned.proceed (hx : Owned o) (hhook : o.hook = .event tag true) :
    Owned (o.proceed tag) := by
  have hbusy : o.hook.busy = some tag := by rw [hhook]; rfl
  unfold GrpcWorker.proceed
  split
  · rename_i hcreate
    exact absurd hcreate (hx.busy tag hbusy).2.2.2
  · rename_i hprocess
    refine hx.moveHook hbusy.symm (fun d hd => ?_) (fun hrest => by cases hrest)
    rw [← Option.some.inj hd]
    exact hprocess
  · exact hx.deleteCall hbusy

theorem Owned.run {a : GrpcAction C} (hx : Owned o) (h : run s o a = some o') : Owned o' := by
  cases runStep_of_run h with
  | @arm q hhook hq =>
    exact hx.newCall (hx.cq q hq) rfl (by rw [hhook]; rfl) (fun d hd => by cases hd)
  | timeout => exact hx
  | @shutdown q hhook hq _ hnone =>
    have hsame : Owned (o.setQueue q { o.queue q with drained := true }) :=
      hx.of_same rfl ⟨rfl, rfl, rfl, rfl⟩ fun _ hq' => hq'
    refine hsame.moveHook ?_ (fun d hd => by cases hd) fun _ => hx.ops_nil hq hnone
    change none = o.hook.busy
    rw [hhook]
    rfl
  | @event op ok hhook _ hop => exact hx.event hhook hop ok
  | @dispatch tag ok hhook =>
    cases ok
    · exact hx.deleteCall (by rw [hhook]; rfl)
    · exact hx.proceed hhook
  | @continueRunning tag hhook =>
    have hprocess := hx.processing tag (by rw [hhook]; rfl)
    refine hx.moveHook ?_ (fun d hd => ?_) (fun hrest => ?_)
    · rw [hhook]
      split <;> rfl
    · obtain rfl : tag = d := by split at hd <;> exact Option.some.inj hd
      exact hprocess
    · split at hrest <;> cases hrest
  | @rearm tag hhook =>
    refine hx.newCall (hx.busy tag (by rw [hhook]; rfl)).2.2.1 rfl (by rw [hhook]; rfl)
      fun d hd => ?_
    rw [← Option.some.inj hd]
    exact hx.processing tag (by rw [hhook]; rfl)
  | @executed _ tag hhook | @executeStopped tag hhook =>
    refine hx.moveHook (by rw [hhook]; rfl) (fun d hd => ?_) (fun hrest => by cases hrest)
    rw [← Option.some.inj hd]
    exact hx.processing tag (by rw [hhook]; rfl)
  | finish hhook => exact hx.finishCall hhook

theorem Owned.grpc {a : GrpcAction C} (hx : Owned o) (h : o.grpc a = some o') : Owned o' := by
  cases a with
  | receive op | finished op ok =>
    simp only [GrpcWorker.grpc, Option.ite_none_right_eq_some, Option.some.injEq] at h
    obtain ⟨⟨hop, -⟩, rfl⟩ := h
    exact hx.complete hop _
  | failRequest op =>
    simp only [GrpcWorker.grpc, Option.ite_none_right_eq_some, Option.some.injEq] at h
    obtain ⟨⟨hop, -⟩, rfl⟩ := h
    have hnext : Owned { o.complete op false with server := o.server } := hx.complete hop false
    exact hnext
  | _ => cases h

/-- The stop hook and the destructor leave the objects and their operations alone. -/
theorem stopTriggered_same {a : GrpcAction C} (h : o.stopTriggered a = some o') :
    (o'.ops = o.ops ∧ o'.call = o.call ∧ o'.allocated = o.allocated ∧ o'.queues = o.queues) ∧
      o'.mCq = o.mCq := by
  cases a <;> simp only [stopTriggered] at h <;> grind -linarith [setServer, setQueue, setStop]

theorem destroy_same {a : GrpcAction C} (h : destroy s o a = some o') :
    (o'.ops = o.ops ∧ o'.call = o.call ∧ o'.allocated = o.allocated ∧ o'.queues = o.queues) ∧
      ∀ q, o'.mCq = some q → o.mCq = some q := by
  cases a <;> simp only [destroy] at h <;>
    grind -linarith [destroyServer, destroyQueue, setServer, setQueue]

theorem Owned.own {a : GrpcAction C} (hx : Owned o) (h : own s o a = some o') : Owned o' := by
  rcases own_cases h with h | h | h | h | h
  · exact hx.preRun h
  · exact hx.run h
  · exact hx.grpc h
  · obtain ⟨hsame, hcq⟩ := stopTriggered_same h
    exact hx.of_same (stopTriggered_hook h) hsame fun q hq => hcq ▸ hq
  · obtain ⟨hsame, hcq⟩ := destroy_same h
    exact hx.of_same (destroy_hook h) hsame hcq

structure SameMembers (o o' : GrpcWorker C) : Prop where
  ops : o'.ops = o.ops ∧ o'.call = o.call ∧ o'.allocated = o.allocated ∧ o'.queues = o.queues
  mCq : o'.mCq = o.mCq
  server : o'.server = o.server
  queue : o'.queue = o.queue

/-- How the place of the hooks changes with a step of the worker. -/
def HookMoves (o o' : GrpcWorker C) : Prop :=
  o'.hook = o.hook ∨ (o.hook.serving = false ∧ o'.hook.serving = false) ∨
    ∃ tag, o.hook = .execute tag ∧ o'.hook = .requestStop tag

theorem calls_same {c : GrpcCaller C} {k : Call} (h : o.calls c k = some o') :
    SameMembers o o' ∧ HookMoves o o' := by
  cases c with
  | user c =>
    simp only [calls, Option.ite_none_right_eq_some, Option.some.injEq] at h
    obtain ⟨-, rfl⟩ := h
    exact ⟨⟨⟨rfl, rfl, rfl, rfl⟩, rfl, rfl, rfl⟩, .inl rfl⟩
  | run =>
    simp only [calls] at h
    split at h
    · rename_i tag hhook
      simp only [Option.ite_none_right_eq_some, Option.some.injEq] at h
      obtain ⟨-, rfl⟩ := h
      exact ⟨⟨⟨rfl, rfl, rfl, rfl⟩, rfl, rfl, rfl⟩, .inr (.inr ⟨tag, hhook, rfl⟩)⟩
    · cases h
  | destructor =>
    simp only [calls] at h
    split at h
    · simp only [Option.ite_none_right_eq_some, Option.some.injEq] at h
      obtain ⟨-, rfl⟩ := h
      exact ⟨⟨⟨rfl, rfl, rfl, rfl⟩, rfl, rfl, rfl⟩, .inl rfl⟩
    · simp only [Option.ite_none_right_eq_some, Option.some.injEq] at h
      obtain ⟨-, rfl⟩ := h
      exact ⟨⟨⟨rfl, rfl, rfl, rfl⟩, rfl, rfl, rfl⟩, .inl rfl⟩
    · cases h

theorem HookAt.resting {p : RunnerPc} (h : HookAt p o.hook) (hp : p.hookHome = none) :
    o.hook.serving = false := by
  rw [h.idle hp]
  rfl

theorem sync_same {a : BaseAction (GrpcCaller C)} (hat : HookAt s.current o.hook)
    (hm : BaseWorker.Moves s a t) (hy : sync s a o = some o') :
    SameMembers o o' ∧ HookMoves o o' := by
  cases a with
  | call c k => exact calls_same hy
  | preRunBegin r =>
    obtain rfl := Option.some.inj hy
    cases hm with
    | rest hact => cases hact
    | preRunBegin _ hfrom _ =>
      have hold := hat.resting (by rw [hfrom]; rfl)
      exact ⟨⟨⟨rfl, rfl, rfl, rfl⟩, rfl, rfl, rfl⟩, .inr (.inl ⟨hold, rfl⟩)⟩
  | setRunning r =>
    obtain rfl := Option.some.inj hy
    cases hm with
    | rest hact => cases hact
    | setRunning _ hfrom _ =>
      have hold := hat.resting (by rw [hfrom]; rfl)
      exact ⟨⟨⟨rfl, rfl, rfl, rfl⟩, rfl, rfl, rfl⟩, .inr (.inl ⟨hold, rfl⟩)⟩
  | preRunEnd r e | runEnd r e =>
    simp only [GrpcWorker.sync, Option.ite_none_right_eq_some, Option.some.injEq] at hy
    obtain ⟨hdone, rfl⟩ := hy
    have hold : o.hook.serving = false := by rw [hdone]; rfl
    exact ⟨⟨⟨rfl, rfl, rfl, rfl⟩, rfl, rfl, rfl⟩, .inr (.inl ⟨hold, rfl⟩)⟩
  | stopSection c =>
    obtain rfl := Option.some.inj hy
    split <;> exact ⟨⟨⟨rfl, rfl, rfl, rfl⟩, rfl, rfl, rfl⟩, .inl rfl⟩
  | stopTriggeredEnd c =>
    simp only [GrpcWorker.sync, Option.ite_none_right_eq_some, Option.some.injEq] at hy
    obtain ⟨-, rfl⟩ := hy
    exact ⟨⟨⟨rfl, rfl, rfl, rfl⟩, rfl, rfl, rfl⟩, .inl rfl⟩
  | _ =>
    obtain rfl := Option.some.inj hy
    exact ⟨⟨⟨rfl, rfl, rfl, rfl⟩, rfl, rfl, rfl⟩, .inl rfl⟩

theorem Owned.sync {a : BaseAction (GrpcCaller C)} (hx : Owned o)
    (hat : HookAt s.current o.hook) (hm : BaseWorker.Moves s a t) (hy : sync s a o = some o') :
    Owned o' := by
  obtain ⟨hsame, hmoves⟩ := sync_same hat hm hy
  have hcq : ∀ q, o'.mCq = some q → o.mCq = some q := fun q hq => hsame.mCq ▸ hq
  rcases hmoves with hhook | ⟨hold, hnew⟩ | ⟨tag, hold, hnew⟩
  · exact hx.of_same hhook hsame.ops hcq
  · obtain ⟨hops, hcall, hallocated, hqueues⟩ := hsame.ops
    refine hx.rest hold hnew ⟨hops, hcall, hallocated⟩ fun q hq => ?_
    rw [hqueues]
    exact hx.cq q (hcq q hq)
  · have hmoved : Owned (o.setHook (.requestStop tag)) := by
      refine hx.moveHook (by rw [hold]; rfl) (fun d hd => ?_) (fun hrest => by cases hrest)
      rw [← Option.some.inj hd]
      exact hx.processing tag (by rw [hold]; rfl)
    exact hmoved.of_same hnew hsame.ops hcq

theorem owned_init : Owned ({} : GrpcWorker C) where
  nodup := List.nodup_nil
  op _ h := by cases h
  queue _ h := by cases h
  busy _ h := by cases h
  processing _ h := by cases h
  owed _ h := absurd h.1 (Nat.not_lt_zero _)
  deleted _ := ⟨Nat.zero_le _, fun _ => rfl⟩
  resting _ := rfl
  cq _ h := by cases h

theorem owned_of_reachable {ok : Object (GrpcCaller C) (GrpcWorker C) →
      ObjectAction (GrpcCaller C) (GrpcAction C) → Prop}
    {s : Object (GrpcCaller C) (GrpcWorker C)}
    (hr : (cGenericGrpcWorker C).system.ReachableBy ok s) : Owned s.ext := by
  refine ReachableBy.invariant (P := fun s => Owned s.ext) owned_init
    (fun s a t hr hx _ hs => ?_) hr
  cases a with
  | base a =>
    obtain ⟨hb, hy⟩ := Derived.step_base.mp hs
    obtain ⟨hi, hu⟩ := Derived.inherits hr
    exact hx.sync (hookAt_of_reachable hr) (BaseWorker.moves_of_step hi hu hb) hy
  | own a => exact hx.own (Derived.step_own.mp hs).2

end GrpcWorker

end ThreadComponent
