import ThreadComponent.GrpcSelfStop
import ThreadComponent.History

/-!
# The replies of cGenericGrpcWorker

What gRPC has received, what `OnExecuteRpc` has made of it and what was handed to `Finish` are
kept beside the state. An RPC has the number of the CallData object that it was received on.
-/

set_option autoImplicit false
set_option linter.unusedSectionVars false

namespace ThreadComponent

open Transitions System

structure RpcHistory where
  received : List Nat := []
  executed : List (Nat × ExecuteEnd) := []
  finished : List (Nat × GrpcStatus) := []
  deriving DecidableEq, Repr

def GrpcHook.reply : GrpcHook → List (Nat × GrpcStatus)
  | .finish tag status => [(tag, status)]
  | _ => []

def GrpcHook.executing : GrpcHook → List Nat
  | .execute tag => [tag]
  | _ => []

namespace GrpcWorker
variable {C : Type} [DecidableEq C] {s t : BaseWorker (GrpcCaller C)} {o o' : GrpcWorker C}
  {tag : Nat} {op : GrpcOp} {h : RpcHistory}

def noteAnswer (o : GrpcWorker C) (h : RpcHistory) : GrpcAction C → RpcHistory
  | .receive op => { h with received := h.received ++ [op.tag] }
  | .executed r => { h with executed := h.executed ++ o.hook.executing.map fun tag => (tag, r) }
  | .finish => { h with finished := h.finished ++ o.hook.reply }
  | _ => h

def noteRpc (s : Object (GrpcCaller C) (GrpcWorker C)) :
    ObjectAction (GrpcCaller C) (GrpcAction C) → RpcHistory → RpcHistory
  | .own a, h => noteAnswer s.ext h a
  | .base _, h => h

variable (C) in
def rpcHistory :
    System (Object (GrpcCaller C) (GrpcWorker C) × RpcHistory)
      (ObjectAction (GrpcCaller C) (GrpcAction C)) :=
  (cGenericGrpcWorker C).system.withHistory {} noteRpc

/-! ## Which RPCs wait for their reply -/

/-- A completed request that gRPC has not handed out yet stays. -/
theorem Awaits.of_ops (hops : ∀ d ∈ o.ops, d.ready = some true → d ∈ o'.ops)
    (hother : ¬ (∃ d ∈ o.ops, d.tag = tag ∧ d.kind = .request ∧ d.ready = some true) →
      Awaits o' tag) : Awaits o' tag := by
  by_cases hop : ∃ d ∈ o.ops, d.tag = tag ∧ d.kind = .request ∧ d.ready = some true
  · obtain ⟨d, hd, htag, hkind, hready⟩ := hop
    exact .inl ⟨d, hops d hd hready, htag, hkind, hready⟩
  · exact hother hop

/-- The RPC that `run` has in hand is the only one that its steps are about. -/
theorem Awaits.of_hook (h : Awaits o tag)
    (hnot : ¬ ∃ d ∈ o.ops, d.tag = tag ∧ d.kind = .request ∧ d.ready = some true) :
    o.hook.busy = some tag ∧ (o.hook = .event tag true ∨ o.hook.processing = some tag) := by
  rcases h with hop | ⟨hhook, -⟩ | hhook
  · exact absurd hop hnot
  · exact ⟨by rw [hhook]; rfl, .inl hhook⟩
  · exact ⟨GrpcHook.busy_of_processing hhook, .inr hhook⟩

theorem mem_newCall {q : Nat} {d : GrpcOp} (hd : d ∈ o.ops) : d ∈ (o.newCall q).ops := by
  rw [newCall_ops]
  exact List.mem_append_left _ hd

/-- In front of `Finish` a step of `run` loses no RPC. -/
theorem Awaits.run {a : GrpcAction C} (hown : Owned o) (h : run s o a = some o')
    (ha : a ≠ .finish) (hx : Awaits o tag) : Awaits o' tag := by
  cases runStep_of_run h with
  | arm hhook =>
    refine Awaits.of_ops (fun d hd _ => mem_newCall hd) fun hnot => ?_
    have hbusy := (hx.of_hook hnot).1
    rw [hhook] at hbusy
    cases hbusy
  | rearm hhook =>
    refine Awaits.of_ops (fun d hd _ => mem_newCall hd) fun hnot => .inr (.inr ?_)
    have hbusy := (hx.of_hook hnot).1
    rw [hhook] at hbusy
    exact hbusy
  | timeout => exact hx
  | shutdown hhook =>
    refine Awaits.of_ops (fun d hd _ => hd) fun hnot => ?_
    have hbusy := (hx.of_hook hnot).1
    rw [hhook] at hbusy
    cases hbusy
  | @event op ok hhook hready hop =>
    rcases hx with ⟨d, hd, htag, hkind, hdready⟩ | ⟨hevent, -⟩ | hprocessing
    · by_cases hdop : d = op
      · subst hdop
        obtain rfl : true = ok := Option.some.inj (hdready.symm.trans hready)
        refine .inr (.inl ⟨?_, ?_⟩)
        · rw [← htag]
          rfl
        · change (o.call tag).mStatus = .process
          rw [← htag, (hown.op d hop).2, hkind]
          rfl
      · exact .inl ⟨d, (List.mem_erase_of_ne hdop).mpr hd, htag, hkind, hdready⟩
    · rw [hhook] at hevent
      cases hevent
    · rw [hhook] at hprocessing
      cases hprocessing
  | @dispatch d ok hhook =>
    cases ok with
    | false =>
      refine Awaits.of_ops (fun d hd _ => hd) fun hnot => ?_
      obtain ⟨-, hevent | hprocessing⟩ := hx.of_hook hnot
      · rw [hhook] at hevent
        cases hevent
      · rw [hhook] at hprocessing
        cases hprocessing
    | true =>
      change Awaits (o.proceed d) tag
      unfold GrpcWorker.proceed
      split
      · rename_i hcreate
        exact absurd hcreate (hown.busy d (by rw [hhook]; rfl)).2.2.2
      · refine Awaits.of_ops (fun d hd _ => hd) fun hnot => .inr (.inr ?_)
        have hbusy := (hx.of_hook hnot).1
        rw [hhook] at hbusy
        exact hbusy
      · rename_i hfinish
        refine Awaits.of_ops (fun d hd _ => hd) fun hnot => ?_
        have hbusy := (hx.of_hook hnot).1
        rw [hhook] at hbusy
        obtain rfl : d = tag := Option.some.inj hbusy
        rw [hx.unfinished hown] at hfinish
        cases hfinish
  | continueRunning hhook =>
    refine Awaits.of_ops (fun d hd _ => hd) fun hnot => .inr (.inr ?_)
    have hbusy := (hx.of_hook hnot).1
    rw [hhook] at hbusy
    rw [setHook_hook]
    split <;> exact hbusy
  | executed hhook | executeStopped hhook =>
    refine Awaits.of_ops (fun d hd _ => hd) fun hnot => .inr (.inr ?_)
    have hbusy := (hx.of_hook hnot).1
    rw [hhook] at hbusy
    exact hbusy
  | finish => exact absurd rfl ha

/-- gRPC hands out what it has received, and what it has not received it does not complete. -/
theorem awaits_complete {ok : Bool} {server : Nat → GrpcServer} (hop : op ∈ o.ops)
    (hready : op.ready = none) :
    Awaits { o.complete op ok with server := server } tag ↔
      Awaits o tag ∨ (op.tag = tag ∧ op.kind = .request ∧ ok = true) := by
  have hops : ∀ d, d ∈ (o.complete op ok).ops ↔
      d = { op with ready := some ok } ∨ d ∈ o.ops.erase op := fun d => List.mem_cons
  constructor
  · rintro (⟨d, hd, htag, hkind, hdready⟩ | hother)
    · rcases (hops d).mp hd with rfl | hd
      · exact .inr ⟨htag, hkind, Option.some.inj hdready⟩
      · exact .inl (.inl ⟨d, List.mem_of_mem_erase hd, htag, hkind, hdready⟩)
    · exact .inl (.inr hother)
  · rintro ((⟨d, hd, htag, hkind, hdready⟩ | hother) | ⟨htag, hkind, rfl⟩)
    · refine .inl ⟨d, (hops d).mpr (.inr ?_), htag, hkind, hdready⟩
      refine (List.mem_erase_of_ne ?_).mpr hd
      rintro rfl
      rw [hready] at hdready
      cases hdready
    · exact .inr hother
    · exact .inl ⟨{ op with ready := some true }, (hops _).mpr (.inl rfl), htag, hkind, rfl⟩

/-! ## The invariant -/

/-- Every RPC that was received waits for its reply or has got it; the replies are the outcomes
of the executions, but for the one in hand. -/
structure Answered (o : GrpcWorker C) (h : RpcHistory) : Prop where
  received : ∀ tag, tag ∈ h.received ↔ Awaits o tag ∨ tag ∈ h.finished.map Prod.fst
  once : h.received.Nodup
  executed : h.executed.map (fun e => (e.1, e.2.toStatus)) = h.finished ++ o.hook.reply
  finished : ∀ f ∈ h.finished, f.1 < o.allocated ∧ (o.call f.1).mStatus = .finish ∧
    (o.call f.1).reply = some f.2
  finishedOnce : (h.finished.map Prod.fst).Nodup

theorem Answered.of_same (hx : Answered o h) (hawaits : ∀ tag, Awaits o' tag ↔ Awaits o tag)
    (hreply : o'.hook.reply = o.hook.reply) (hallocated : o.allocated ≤ o'.allocated)
    (hcall : ∀ tag, tag < o.allocated → (o.call tag).mStatus = .finish →
      (o'.call tag).mStatus = .finish ∧ (o'.call tag).reply = (o.call tag).reply) :
    Answered o' h where
  received tag := by rw [hawaits, hx.received]
  once := hx.once
  executed := by rw [hreply, hx.executed]
  finished f hf := by
    obtain ⟨hlt, hstatus, hstored⟩ := hx.finished f hf
    obtain ⟨hstatus', hreply'⟩ := hcall f.1 hlt hstatus
    exact ⟨Nat.lt_of_lt_of_le hlt hallocated, hstatus', hreply'.trans hstored⟩
  finishedOnce := hx.finishedOnce

/-- Nobody waits where nothing is outstanding and `run` has nothing in hand. -/
theorem not_awaits_of_nothing (hops : o.ops = []) (hbusy : o.hook.busy = none) :
    ¬ Awaits o tag := by
  rintro (⟨op, hop, -⟩ | ⟨hhook, -⟩ | hprocessing)
  · rw [hops] at hop
    cases hop
  · rw [hhook] at hbusy
    cases hbusy
  · rw [GrpcHook.busy_of_processing hprocessing] at hbusy
    cases hbusy

theorem not_awaits_of_rest (hops : o.ops = []) (hrest : o.hook.serving = false) :
    ¬ Awaits o tag := not_awaits_of_nothing hops (GrpcHook.busy_of_resting hrest)

theorem GrpcHook.reply_of_rest {hook : GrpcHook} (h : hook.serving = false) : hook.reply = [] := by
  cases hook <;> first | rfl | cases h

theorem Answered.rest (hx : Answered o h) (hown : Owned o) (hold : o.hook.serving = false)
    (hnew : o'.hook.serving = false) (hops : o'.ops = o.ops) (hcall : o'.call = o.call)
    (hallocated : o'.allocated = o.allocated) : Answered o' h := by
  have hnil := hown.resting hold
  refine hx.of_same (fun tag => ?_) ?_ (Nat.le_of_eq hallocated.symm) fun tag _ hstatus => ?_
  · exact iff_of_false (not_awaits_of_rest (hops.trans hnil) hnew) (not_awaits_of_rest hnil hold)
  · rw [GrpcHook.reply_of_rest hold, GrpcHook.reply_of_rest hnew]
  · rw [hcall]
    exact ⟨hstatus, rfl⟩

theorem Answered.of_eq (hx : Answered o h) (hops : o'.ops = o.ops) (hcall : o'.call = o.call)
    (hallocated : o'.allocated = o.allocated) (hhook : o'.hook = o.hook) : Answered o' h := by
  refine hx.of_same (fun tag => ?_) (by rw [hhook]) (Nat.le_of_eq hallocated.symm)
    fun tag _ hstatus => ?_
  · rw [Awaits, Awaits, hops, hcall, hhook]
  · rw [hcall]
    exact ⟨hstatus, rfl⟩

/-- Deleting an object does not touch its status and its reply. -/
theorem run_finished {a : GrpcAction C} (hown : Owned o) (h : run s o a = some o')
    (ha : a ≠ .finish) (htag : tag < o.allocated) (hstatus : (o.call tag).mStatus = .finish) :
    (o'.call tag).mStatus = .finish ∧ (o'.call tag).reply = (o.call tag).reply := by
  have hdelete : ∀ d, ((o.deleteCall d).call tag).mStatus = .finish ∧
      ((o.deleteCall d).call tag).reply = (o.call tag).reply := by
    intro d
    refine ⟨Eq.trans ?_ hstatus, ?_⟩
    · exact field_update CallData.mStatus (by rfl) tag
    · exact field_update CallData.reply (by rfl) tag
  have hnew : ∀ q, (o.newCall q).call tag = o.call tag := by
    intro q
    rw [newCall_call, Function.update_of_ne (Nat.ne_of_lt htag)]
  cases runStep_of_run h with
  | arm hhook | rearm hhook =>
    change ((o.newCall _).call tag).mStatus = _ ∧ ((o.newCall _).call tag).reply = _
    rw [hnew]
    exact ⟨hstatus, rfl⟩
  | @dispatch d ok hhook =>
    cases ok with
    | false => exact hdelete d
    | true =>
      change ((o.proceed d).call tag).mStatus = _ ∧ ((o.proceed d).call tag).reply = _
      unfold GrpcWorker.proceed
      split
      · rename_i hcreate
        exact absurd hcreate (hown.busy d (by rw [hhook]; rfl)).2.2.2
      · exact ⟨hstatus, rfl⟩
      · exact hdelete d
  | finish => exact absurd rfl ha
  | timeout | shutdown | event | continueRunning | executed | executeStopped =>
    exact ⟨hstatus, rfl⟩

theorem run_allocated {a : GrpcAction C} (h : run s o a = some o') :
    o.allocated ≤ o'.allocated := by
  cases a <;> simp only [GrpcWorker.run] at h <;>
    grind -linarith [setHook, newCall, armCall, submit, setCall, setQueue, GrpcWorker.proceed,
      GrpcWorker.deleteCall, GrpcWorker.finishCall]

/-- Only the end of an execution puts a status in hand, and only `Finish` takes it. -/
theorem run_reply {a : GrpcAction C} (h : run s o a = some o') (hfinish : a ≠ .finish)
    (hexecuted : ∀ r, a ≠ .executed r) : o'.hook.reply = o.hook.reply := by
  cases runStep_of_run h with
  | arm hhook | shutdown hhook | event hhook | rearm hhook | executeStopped hhook =>
    rw [hhook]
    rfl
  | timeout => rfl
  | @dispatch d ok hhook =>
    rw [hhook]
    cases ok with
    | false => rfl
    | true =>
      change (o.proceed d).hook.reply = _
      unfold GrpcWorker.proceed
      split <;> rfl
  | continueRunning hhook =>
    rw [hhook, setHook_hook]
    split <;> rfl
  | @executed r => exact absurd rfl (hexecuted r)
  | finish => exact absurd rfl hfinish

theorem noteAnswer_of_run {a : GrpcAction C} (hrun : run s o a = some o') (hfinish : a ≠ .finish)
    (hexecuted : ∀ r, a ≠ .executed r) : noteAnswer o h a = h := by
  cases a with
  | receive op => cases hrun
  | executed r => exact absurd rfl (hexecuted r)
  | finish => exact absurd rfl hfinish
  | _ => rfl

theorem Answered.finishCall {status : GrpcStatus} (hx : Answered o h) (hown : Owned o)
    (hhook : o.hook = .finish tag status) :
    Answered ((o.finishCall tag status).setHook .next)
      { h with finished := h.finished ++ [(tag, status)] } := by
  have hprocess : (o.call tag).mStatus = .process := hown.processing tag (by rw [hhook]; rfl)
  have hlive : tag < o.allocated := (hown.busy tag (by rw [hhook]; rfl)).1.1
  have hnot : ∀ f ∈ h.finished, f.1 ≠ tag := by
    rintro f hf rfl
    have hstatus := (hx.finished f hf).2.1
    rw [hprocess] at hstatus
    cases hstatus
  have hwaits : Awaits o tag := .inr (.inr (by rw [hhook]; rfl))
  have hops : ((o.finishCall tag status).setHook .next).ops =
      o.ops ++ [{ tag := tag, queue := (o.call tag).queue, kind := .finish }] := rfl
  constructor
  · intro d
    rw [hx.received, List.map_append, List.mem_append]
    constructor
    · rintro (hd | hd)
      · by_cases hdt : d = tag
        · exact .inr (.inr (by simp [hdt]))
        · refine .inl (Awaits.of_ops (o := o) (fun x hmem _ => ?_) fun hnone => ?_)
          · rw [hops]
            exact List.mem_append_left _ hmem
          · have hbusy := (hd.of_hook hnone).1
            rw [hhook] at hbusy
            exact absurd (Option.some.inj hbusy).symm hdt
      · exact .inr (.inl hd)
    · rintro (hd | hd | hd)
      · exact .inl (hd.of_submit rfl hops rfl (by simp) (fun hh => by cases hh))
      · exact .inr hd
      · obtain rfl : d = tag := by simpa using hd
        exact .inl hwaits
  · exact hx.once
  · have hexecuted := hx.executed
    rw [hhook] at hexecuted
    rw [setHook_hook, hexecuted]
    exact (List.append_nil _).symm
  · intro f hf
    change f.1 < o.allocated ∧ (Function.update o.call tag _ f.1).mStatus = .finish ∧
      (Function.update o.call tag _ f.1).reply = some f.2
    rcases List.mem_append.mp hf with hf | hf
    · rw [Function.update_of_ne (hnot f hf)]
      exact hx.finished f hf
    · obtain rfl := List.mem_singleton.mp hf
      rw [Function.update_self]
      exact ⟨hlive, rfl, rfl⟩
  · rw [List.map_append, List.nodup_append]
    refine ⟨hx.finishedOnce, List.nodup_singleton _, ?_⟩
    rintro d hd e he rfl
    obtain ⟨f, hf, rfl⟩ := List.mem_map.mp hd
    obtain rfl : f.1 = tag := by simpa using he
    exact hnot f hf rfl

theorem Answered.run {a : GrpcAction C} (hx : Answered o h) (hown : Owned o)
    (hrun : run s o a = some o') : Answered o' (noteAnswer o h a) := by
  by_cases hfinish : a = .finish
  · subst hfinish
    cases runStep_of_run hrun with
    | finish hhook =>
      rw [noteAnswer, hhook]
      exact hx.finishCall hown hhook
  have hawaits : ∀ tag, Awaits o' tag ↔ Awaits o tag := fun tag =>
    ⟨fun hd => hd.of_run hown hrun, fun hd => hd.run hown hrun hfinish⟩
  by_cases hexecuted : ∃ r, a = .executed r
  · obtain ⟨r, rfl⟩ := hexecuted
    cases runStep_of_run hrun with
    | @executed _ tag hhook =>
      rw [noteAnswer, hhook]
      have hmap := hx.executed
      rw [hhook] at hmap
      refine ⟨fun d => by rw [hawaits, hx.received], hx.once, ?_, hx.finished, hx.finishedOnce⟩
      change (h.executed ++ [(tag, r)]).map _ = h.finished ++ [(tag, r.toStatus)]
      rw [List.map_append, hmap]
      simp [GrpcHook.reply]
  · have hnot : ∀ r, a ≠ .executed r := fun r hr => hexecuted ⟨r, hr⟩
    rw [noteAnswer_of_run hrun hfinish hnot]
    exact hx.of_same hawaits (run_reply hrun hfinish hnot) (run_allocated hrun)
      fun tag htag hstatus => run_finished hown hrun hfinish htag hstatus

/-- A request that has not completed belongs to no RPC yet. -/
theorem not_awaits_of_request (hown : Owned o) (hop : op ∈ o.ops) (hready : op.ready = none) :
    ¬ Awaits o op.tag := by
  rintro (⟨d, hd, htag, -, hdready⟩ | hhook)
  · obtain rfl := List.inj_on_of_nodup_map hown.nodup hd hop htag
    rw [hready] at hdready
    cases hdready
  · have hbusy : o.hook.busy = some op.tag := by
      rcases hhook with ⟨hevent, -⟩ | hprocessing
      · rw [hevent]
        rfl
      · exact GrpcHook.busy_of_processing hprocessing
    exact (hown.busy op.tag hbusy).2.1 (List.mem_map_of_mem hop)

/-- An RPC that is received now has not been received before. -/
theorem Answered.not_received (hx : Answered o h) (hown : Owned o) (hop : op ∈ o.ops)
    (hkind : op.kind = .request) (hready : op.ready = none) : op.tag ∉ h.received := by
  rw [hx.received, not_or]
  refine ⟨not_awaits_of_request hown hop hready, fun hmem => ?_⟩
  obtain ⟨f, hf, htag⟩ := List.mem_map.mp hmem
  have hstatus := (hx.finished f hf).2.1
  rw [htag, (hown.op op hop).2, hkind] at hstatus
  cases hstatus

theorem Answered.grpc {a : GrpcAction C} (hx : Answered o h) (hown : Owned o)
    (hgrpc : o.grpc a = some o') : Answered o' (noteAnswer o h a) := by
  have hcall : ∀ tag, tag < o.allocated → (o.call tag).mStatus = .finish →
      (o'.call tag).mStatus = .finish ∧ (o'.call tag).reply = (o.call tag).reply := by
    intro tag _ hstatus
    rw [grpc_call hgrpc]
    exact ⟨hstatus, rfl⟩
  have hreply : o'.hook.reply = o.hook.reply := by rw [grpc_hook hgrpc]
  cases a with
  | receive op =>
    simp only [GrpcWorker.grpc, Option.ite_none_right_eq_some, Option.some.injEq] at hgrpc
    obtain ⟨⟨hop, hkind, hready, -⟩, rfl⟩ := hgrpc
    refine ⟨fun d => ?_, ?_, ?_, hx.finished, hx.finishedOnce⟩
    · change d ∈ h.received ++ [op.tag] ↔ Awaits { o.complete op true with server := _ } d ∨ _
      rw [awaits_complete hop hready, List.mem_append, hx.received, List.mem_singleton]
      simp only [hkind, and_true, eq_comm (a := d)]
      exact or_right_comm
    · change (h.received ++ [op.tag]).Nodup
      rw [List.nodup_append]
      refine ⟨hx.once, List.nodup_singleton _, ?_⟩
      rintro d hd e he rfl
      obtain rfl := List.mem_singleton.mp he
      exact hx.not_received hown hop hkind hready hd
    · exact hx.executed
  | failRequest op =>
    simp only [GrpcWorker.grpc, Option.ite_none_right_eq_some, Option.some.injEq] at hgrpc
    obtain ⟨⟨hop, -, hready, -⟩, rfl⟩ := hgrpc
    refine hx.of_same (fun d => ?_) hreply (Nat.le_refl _) hcall
    change Awaits { o.complete op false with server := o.server } d ↔ _
    rw [awaits_complete hop hready]
    simp
  | finished op ok =>
    simp only [GrpcWorker.grpc, Option.ite_none_right_eq_some, Option.some.injEq] at hgrpc
    obtain ⟨⟨hop, hkind, hready⟩, rfl⟩ := hgrpc
    refine hx.of_same (fun d => ?_) hreply (Nat.le_refl _) hcall
    change Awaits { o.complete op ok with server := _ } d ↔ _
    rw [awaits_complete hop hready]
    simp [hkind]
  | _ => cases hgrpc

theorem noteAnswer_of_preRun {a : GrpcAction C} (hstep : o.preRun a = some o') :
    noteAnswer o h a = h := by
  cases a <;> first | rfl | cases hstep

theorem noteAnswer_of_stopTriggered {a : GrpcAction C} (hstep : o.stopTriggered a = some o') :
    noteAnswer o h a = h := by
  cases a <;> first | rfl | cases hstep

theorem noteAnswer_of_destroy {a : GrpcAction C} (hstep : destroy s o a = some o') :
    noteAnswer o h a = h := by
  cases a <;> first | rfl | cases hstep

theorem preRun_members {a : GrpcAction C} (h : o.preRun a = some o') :
    o'.ops = o.ops ∧ o'.call = o.call ∧ o'.allocated = o.allocated := by
  cases a <;> simp only [GrpcWorker.preRun] at h <;>
    grind -linarith [setHook, startupFailed, GrpcWorker.addCompletionQueue, destroyQueue,
      destroyServer, setQueue, setServer]

theorem Answered.own {a : GrpcAction C} (hx : Answered o h) (hown : Owned o)
    (hstep : own s o a = some o') : Answered o' (noteAnswer o h a) := by
  rcases own_cases hstep with hstep | hstep | hstep | hstep | hstep
  · obtain ⟨hold, hnew⟩ := preRun_home hstep
    obtain ⟨hops, hcall, hallocated⟩ := preRun_members hstep
    rw [noteAnswer_of_preRun hstep]
    exact hx.rest hown (GrpcHook.resting_of_preRun hold) (GrpcHook.resting_of_preRun hnew) hops
      hcall hallocated
  · exact hx.run hown hstep
  · exact hx.grpc hown hstep
  · obtain ⟨⟨hops, hcall, hallocated, -⟩, -⟩ := stopTriggered_same hstep
    rw [noteAnswer_of_stopTriggered hstep]
    exact hx.of_eq hops hcall hallocated (stopTriggered_hook hstep)
  · obtain ⟨⟨hops, hcall, hallocated, -⟩, -⟩ := destroy_same hstep
    rw [noteAnswer_of_destroy hstep]
    exact hx.of_eq hops hcall hallocated (destroy_hook hstep)

theorem Answered.sync {a : BaseAction (GrpcCaller C)} (hx : Answered o h) (hown : Owned o)
    (hat : HookAt s.current o.hook) (hm : BaseWorker.Moves s a t)
    (hy : sync s a o = some o') : Answered o' h := by
  obtain ⟨⟨⟨hops, hcall, hallocated, -⟩, -, -, -⟩, hmoves⟩ := sync_same hat hm hy
  rcases hmoves with hhook | ⟨hold, hnew⟩ | ⟨tag, hold, hnew⟩
  · exact hx.of_eq hops hcall hallocated hhook
  · exact hx.rest hown hold hnew hops hcall hallocated
  · refine hx.of_same (fun d => ?_) (by rw [hold, hnew]; rfl) (Nat.le_of_eq hallocated.symm)
      fun d _ hstatus => ?_
    · simp [Awaits, hops, hold, hnew, GrpcHook.processing]
    · rw [hcall]
      exact ⟨hstatus, rfl⟩

theorem answered_init : Answered ({} : GrpcWorker C) {} where
  received tag := by
    refine iff_of_false List.not_mem_nil ?_
    rintro (hawaits | hmem)
    · exact not_awaits_of_rest rfl rfl hawaits
    · cases hmem
  once := List.nodup_nil
  executed := rfl
  finished f hf := by cases hf
  finishedOnce := List.nodup_nil

theorem answered_of_reachable {x : Object (GrpcCaller C) (GrpcWorker C) × RpcHistory}
    (hr : (rpcHistory C).Reachable x) : Answered x.1.ext x.2 := by
  refine Reachable.related (R := fun s h => Answered s.ext h) answered_init
    (fun s a t h hr hx hs => ?_) hr
  cases a with
  | base a =>
    obtain ⟨hb, hy⟩ := Derived.step_base.mp hs
    obtain ⟨hi, hu⟩ := Derived.inherits hr
    exact hx.sync (owned_of_reachable hr) (hookAt_of_reachable hr)
      (BaseWorker.moves_of_step hi hu hb) hy
  | own a => exact hx.own (owned_of_reachable hr) (Derived.step_own.mp hs).2

/-- The execution whose status is in hand has not been answered yet. -/
theorem Answered.executed_nodup (hx : Answered o h) (hown : Owned o) :
    (h.executed.map Prod.fst).Nodup := by
  have htags : h.executed.map Prod.fst = (h.finished ++ o.hook.reply).map Prod.fst := by
    rw [← hx.executed, List.map_map]
    rfl
  rw [htags, List.map_append, List.nodup_append]
  cases hhook : o.hook with
  | finish tag status =>
    refine ⟨hx.finishedOnce, List.nodup_singleton _, ?_⟩
    rintro d hd e he rfl
    obtain ⟨f, hf, rfl⟩ := List.mem_map.mp hd
    obtain rfl : f.1 = tag := by simpa [GrpcHook.reply] using he
    have hprocess := hown.processing f.1 (by rw [hhook]; rfl)
    rw [(hx.finished f hf).2.1] at hprocess
    cases hprocess
  | _ => exact ⟨hx.finishedOnce, List.nodup_nil, fun _ _ _ he => by cases he⟩

theorem Answered.received_of_executed (hx : Answered o h)
    (htag : tag ∈ h.executed.map Prod.fst) : tag ∈ h.received := by
  have htags : h.executed.map Prod.fst = (h.finished ++ o.hook.reply).map Prod.fst := by
    rw [← hx.executed, List.map_map]
    rfl
  rw [htags, List.map_append, List.mem_append] at htag
  rw [hx.received]
  rcases htag with htag | htag
  · exact .inr htag
  · refine .inl (.inr (.inr ?_))
    cases hhook : o.hook with
    | finish d status =>
      rw [hhook] at htag
      obtain rfl : tag = d := by simpa [GrpcHook.reply] using htag
      rfl
    | _ =>
      rw [hhook] at htag
      cases htag

/-- Over all interleavings of starts, stops and events: an RPC is received once on its object,
no RPC is executed twice or without having been received, the statuses handed to `Finish` are the
outcomes of the executions in their order, and when `run` has ended every RPC that was received
is answered, once. -/
theorem every_rpc_is_answered_once (C : Type) [DecidableEq C]
    (x : Object (GrpcCaller C) (GrpcWorker C) × RpcHistory) (hr : (rpcHistory C).Reachable x) :
    x.2.received.Nodup ∧ (x.2.executed.map Prod.fst).Nodup ∧
      (∀ tag ∈ x.2.executed.map Prod.fst, tag ∈ x.2.received) ∧
      x.2.executed.map (fun e => (e.1, e.2.toStatus)) = x.2.finished ++ x.1.ext.hook.reply ∧
      (x.1.ext.hook.serving = false → x.2.received.Perm (x.2.finished.map Prod.fst)) := by
  have hx := answered_of_reachable hr
  have hown : Owned x.1.ext := owned_of_reachable hr.reachable_present
  refine ⟨hx.once, hx.executed_nodup hown, fun tag htag => hx.received_of_executed htag,
    hx.executed, fun hrest => ?_⟩
  refine (List.perm_ext_iff_of_nodup hx.once hx.finishedOnce).mpr fun tag => ?_
  rw [hx.received]
  exact or_iff_right (not_awaits_of_rest (hown.resting hrest) hrest)

theorem every_rpc_is_answered_once_served :
    let x := (rpcHistory Bool).after Free (rpcHistory Bool).init (builtSchedule ++
      receivedSchedule ++ processedSchedule ++ stoppedSchedule ++ [.own .shutdown])
    x.2.received.Perm (x.2.finished.map Prod.fst) ∧
      x.2.finished = [(0, ⟨13, "Unhandled exception in OnExecuteRpc: no such metric"⟩)] := by
  intro x
  have hr : (rpcHistory Bool).Reachable x := reaches_after (by decide)
  exact ⟨(every_rpc_is_answered_once Bool x hr).2.2.2.2 (by decide), by decide⟩

end GrpcWorker

end ThreadComponent
