import ThreadComponent.GrpcRestarts

/-!
# Stopping a cGenericGrpcWorker from its own business logic

`OnExecuteRpc` runs on the thread of the worker, with an RPC in hand. The stop hook waits for
that RPC, whose `Finish` the same thread submits when `OnExecuteRpc` has returned.
-/

set_option autoImplicit false
set_option linter.unusedSectionVars false

namespace ThreadComponent

open Transitions System

namespace GrpcWorker
variable {C : Type} [DecidableEq C] {s t : BaseWorker (GrpcCaller C)} {o o' : GrpcWorker C}
  {tag : Nat} {op : GrpcOp}

/-- The worker's thread is inside `Server::Shutdown`, which waits for an RPC that nobody else
submits the `Finish` of. -/
def SelfBlocked (o : GrpcWorker C) : Prop :=
  ∃ i, o.stop .run = .wait i ∧ ∃ tag ∈ (o.server i).received, (o.call tag).mStatus ≠ .finish

def StopsNoServer (s : Object (GrpcCaller C) (GrpcWorker C)) :
    ObjectAction (GrpcCaller C) (GrpcAction C) → Prop
  | .own (.stopServer .run) => s.ext.mServer = none
  | _ => True

instance (s : Object (GrpcCaller C) (GrpcWorker C))
    (a : ObjectAction (GrpcCaller C) (GrpcAction C)) : Decidable (StopsNoServer s a) := by
  induction a using ObjectAction.casesOn with
  | base a => unfold StopsNoServer; infer_instance
  | own a =>
    induction a using GrpcAction.casesOn with
    | stopServer c => induction c using GrpcCaller.casesOn <;> (unfold StopsNoServer; infer_instance)
    | _ => unfold StopsNoServer; infer_instance

/-! ## The RPC in hand -/

/-- An RPC that was received and that `run` has not submitted the `Finish` of. -/
def Awaits (o : GrpcWorker C) (tag : Nat) : Prop :=
  (∃ op ∈ o.ops, op.tag = tag ∧ op.kind = .request ∧ op.ready = some true) ∨
    (o.hook = .event tag true ∧ (o.call tag).mStatus = .process) ∨
    o.hook.processing = some tag

theorem Awaits.unfinished (h : Awaits o tag) (hown : Owned o) :
    (o.call tag).mStatus = .process := by
  rcases h with ⟨op, hop, rfl, hkind, -⟩ | ⟨-, hstatus⟩ | hprocessing
  · rw [(hown.op op hop).2, hkind]
    rfl
  · exact hstatus
  · exact hown.processing tag hprocessing

def Knows (o : GrpcWorker C) : Prop := ∀ tag, Awaits o tag → tag ∈ (o.server o.latest).received

theorem Knows.of_step (hx : Knows o) (hawaits : ∀ tag, Awaits o' tag → Awaits o tag)
    (hqueues : o'.queues = o.queues)
    (hreceived : ∀ i, (o'.server i).received = (o.server i).received) : Knows o' := by
  intro tag h
  rw [latest, hqueues, hreceived]
  exact hx tag (hawaits tag h)

theorem Knows.rest (hops : o'.ops = []) (hnew : o'.hook.serving = false) : Knows o' := by
  intro tag h
  have hbusy := GrpcHook.busy_of_resting hnew
  rcases h with ⟨op, hop, -⟩ | ⟨hhook, -⟩ | hprocessing
  · rw [hops] at hop
    cases hop
  · rw [hhook] at hbusy
    cases hbusy
  · rw [GrpcHook.busy_of_processing hprocessing] at hbusy
    cases hbusy

theorem Awaits.of_submit {hook : GrpcHook} {new : GrpcOp} (h : Awaits o' tag)
    (hready : new.ready = none) (hops : o'.ops = o.ops ++ [new]) (hhook : o'.hook = hook)
    (hevent : hook ≠ .event tag true)
    (hprocessing : hook.processing = some tag → o.hook.processing = some tag) :
    Awaits o tag := by
  rcases h with ⟨op, hop, htag, hkind, hop'⟩ | ⟨hh, -⟩ | hh
  · rw [hops, List.mem_append, List.mem_singleton] at hop
    rcases hop with hop | rfl
    · exact .inl ⟨op, hop, htag, hkind, hop'⟩
    · rw [hready] at hop'
      cases hop'
  · exact absurd (hhook.symm.trans hh) hevent
  · exact .inr (.inr (hprocessing (hhook ▸ hh)))

theorem Awaits.of_moveHook {hook : GrpcHook} (h : Awaits o' tag) (hhook : o'.hook = hook)
    (hops : o'.ops = o.ops) (hevent : hook ≠ .event tag true)
    (hprocessing : hook.processing = some tag → Awaits o tag) : Awaits o tag := by
  rcases h with hop | ⟨hh, -⟩ | hh
  · exact .inl (hops ▸ hop)
  · exact absurd (hhook.symm.trans hh) hevent
  · exact hprocessing (hhook ▸ hh)

theorem Awaits.of_run {a : GrpcAction C} (hown : Owned o) (h : run s o a = some o')
    (hx : Awaits o' tag) : Awaits o tag := by
  cases runStep_of_run h with
  | arm => exact hx.of_submit rfl (newCall_ops _) rfl (by simp) (fun hh => by cases hh)
  | timeout => exact hx
  | shutdown => exact hx.of_moveHook rfl rfl (by simp) (fun hh => by cases hh)
  | @event op ok _ hready hop =>
    rcases hx with ⟨d, hd, htag, hkind, hdready⟩ | ⟨hh, hstatus⟩ | hh
    · exact .inl ⟨d, List.mem_of_mem_erase hd, htag, hkind, hdready⟩
    · obtain ⟨rfl, rfl⟩ : op.tag = tag ∧ ok = true := by
        cases hh
        exact ⟨rfl, rfl⟩
      refine .inl ⟨op, hop, rfl, ?_, hready⟩
      change (o.call op.tag).mStatus = .process at hstatus
      rw [(hown.op op hop).2] at hstatus
      cases hkind : op.kind
      · rfl
      · rw [hkind] at hstatus
        cases hstatus
    · cases hh
  | @dispatch d ok hhook =>
    cases ok with
    | false => exact hx.of_moveHook rfl rfl (by simp) (fun hh => by cases hh)
    | true =>
      change Awaits (o.proceed d) tag at hx
      unfold GrpcWorker.proceed at hx
      split at hx
      · exact hx.of_submit rfl rfl rfl (by simp) (fun hh => by cases hh)
      · rename_i hprocess
        refine hx.of_moveHook rfl rfl (by simp) fun hh => .inr (.inl ?_)
        obtain rfl := Option.some.inj hh
        exact ⟨hhook, hprocess⟩
      · exact hx.of_moveHook rfl rfl (by simp) (fun hh => by cases hh)
  | continueRunning hhook =>
    refine hx.of_moveHook rfl rfl (by split <;> simp) fun hh => .inr (.inr ?_)
    rw [hhook]
    split at hh <;> exact hh
  | rearm hhook =>
    refine hx.of_submit rfl (newCall_ops _) rfl (by simp) fun hh => ?_
    rw [hhook]
    exact hh
  | executed hhook | executeStopped hhook =>
    refine hx.of_moveHook rfl rfl (by simp) fun hh => .inr (.inr ?_)
    rw [hhook]
    exact hh
  | finish => exact hx.of_submit rfl rfl rfl (by simp) (fun hh => by cases hh)

theorem run_server {a : GrpcAction C} (h : run s o a = some o') : o'.server = o.server := by
  cases a <;> simp only [GrpcWorker.run] at h <;>
    grind -linarith [setHook, newCall, armCall, submit, setCall, setQueue, GrpcWorker.proceed,
      GrpcWorker.deleteCall, GrpcWorker.finishCall]

/-- What the server knows it forgets only with the end of the RPC. -/
theorem grpc_received {a : GrpcAction C} {i : Nat} (hown : Owned o) (h : o.grpc a = some o')
    (htag : tag ∈ (o.server i).received) (hstatus : (o.call tag).mStatus ≠ .finish) :
    tag ∈ (o'.server i).received := by
  cases a with
  | receive op =>
    simp only [GrpcWorker.grpc, Option.ite_none_right_eq_some, Option.some.injEq] at h
    obtain ⟨-, rfl⟩ := h
    change tag ∈ (Function.update o.server op.queue _ i).received
    by_cases hi : i = op.queue
    · subst hi
      rw [Function.update_self]
      exact List.mem_cons_of_mem _ htag
    · rwa [Function.update_of_ne hi]
  | failRequest op =>
    simp only [GrpcWorker.grpc, Option.ite_none_right_eq_some, Option.some.injEq] at h
    obtain ⟨-, rfl⟩ := h
    exact htag
  | finished op ok =>
    simp only [GrpcWorker.grpc, Option.ite_none_right_eq_some, Option.some.injEq] at h
    obtain ⟨⟨hop, hkind, -⟩, rfl⟩ := h
    change tag ∈ (Function.update o.server op.queue _ i).received
    by_cases hi : i = op.queue
    · subst hi
      rw [Function.update_self]
      refine (List.mem_erase_of_ne fun heq => hstatus ?_).mpr htag
      rw [heq, (hown.op op hop).2, hkind]
      rfl
    · rwa [Function.update_of_ne hi]
  | _ => cases h

theorem grpc_call {a : GrpcAction C} (h : o.grpc a = some o') : o'.call = o.call := by
  cases a with
  | receive op | failRequest op | finished op ok =>
    simp only [GrpcWorker.grpc, Option.ite_none_right_eq_some, Option.some.injEq] at h
    obtain ⟨-, rfl⟩ := h
    rfl
  | _ => cases h

theorem Knows.grpc {a : GrpcAction C} (hx : Knows o) (hown : Owned o)
    (h : o.grpc a = some o') : Knows o' := by
  have hhook := grpc_hook h
  have hcall := grpc_call h
  have hqueues := (grpc_sameOutside h).queues
  intro tag htag
  have hlatest : o'.latest = o.latest := by rw [latest, latest, hqueues]
  by_cases hold : Awaits o tag
  · rw [hlatest]
    refine grpc_received hown h (hx tag hold) ?_
    rw [hold.unfinished hown]
    simp
  · -- nobody else comes to wait but the RPC that is received
    rcases htag with ⟨d, hd, rfl, hkind, hready⟩ | ⟨hh, hstatus⟩ | hh
    · cases a with
      | receive op =>
        simp only [GrpcWorker.grpc, Option.ite_none_right_eq_some, Option.some.injEq] at h
        obtain ⟨⟨hop, -⟩, rfl⟩ := h
        rcases mem_complete hd with rfl | hd
        · change op.tag ∈ (Function.update o.server op.queue _ o.latest).received
          rw [latest_of_succ (hown.queue op hop).1, Function.update_self]
          exact List.mem_cons_self
        · exact absurd (.inl ⟨d, hd, rfl, hkind, hready⟩) hold
      | failRequest op =>
        simp only [GrpcWorker.grpc, Option.ite_none_right_eq_some, Option.some.injEq] at h
        obtain ⟨-, rfl⟩ := h
        rcases mem_complete hd with rfl | hd
        · cases hready
        · exact absurd (.inl ⟨d, hd, rfl, hkind, hready⟩) hold
      | finished op ok =>
        simp only [GrpcWorker.grpc, Option.ite_none_right_eq_some, Option.some.injEq] at h
        obtain ⟨⟨-, hfinish, -⟩, rfl⟩ := h
        rcases mem_complete hd with rfl | hd
        · rw [hfinish] at hkind
          cases hkind
        · exact absurd (.inl ⟨d, hd, rfl, hkind, hready⟩) hold
      | _ => cases h
    · exact absurd (.inr (.inl ⟨hhook ▸ hh, hcall ▸ hstatus⟩)) hold
    · exact absurd (.inr (.inr (hhook ▸ hh))) hold

theorem stopTriggered_received {a : GrpcAction C} (h : o.stopTriggered a = some o') (i : Nat) :
    (o'.server i).received = (o.server i).received := by
  cases a with
  | stopServer c =>
    simp only [GrpcWorker.stopTriggered, Option.ite_none_right_eq_some, Option.some.injEq] at h
    obtain ⟨-, rfl⟩ := h
    split
    · exact field_update GrpcServer.received (by rfl) i
    · rfl
  | _ =>
    simp only [GrpcWorker.stopTriggered] at h
    grind -linarith [setStop, setQueue]

theorem Knows.own {a : GrpcAction C} (hx : Knows o) (hown : Owned o)
    (h : own s o a = some o') : Knows o' := by
  have hown' := hown.own h
  rcases own_cases h with h | h | h | h | h
  · have hnew := GrpcHook.resting_of_preRun (preRun_home h).2
    exact Knows.rest (hown'.resting hnew) hnew
  · exact hx.of_step (fun tag htag => htag.of_run hown h) (run_sameOutside h).queues
      (fun i => by rw [run_server h])
  · exact hx.grpc hown h
  · obtain ⟨⟨hops, hcall, -, hqueues⟩, -⟩ := stopTriggered_same h
    refine hx.of_step (fun tag htag => ?_) hqueues (stopTriggered_received h)
    rwa [Awaits, hops, hcall, stopTriggered_hook h] at htag
  · obtain ⟨⟨hops, hcall, -, hqueues⟩, -⟩ := destroy_same h
    refine hx.of_step (fun tag htag => ?_) hqueues (destroy_received h).1
    rwa [Awaits, hops, hcall, destroy_hook h] at htag

theorem Knows.sync {a : BaseAction (GrpcCaller C)} (hx : Knows o) (hown : Owned o)
    (hat : HookAt s.current o.hook) (hm : BaseWorker.Moves s a t)
    (hy : sync s a o = some o') : Knows o' := by
  obtain ⟨⟨⟨hops, hcall, -, hqueues⟩, -, hserver, -⟩, hmoves⟩ := sync_same hat hm hy
  rcases hmoves with hhook | ⟨hold, hnew⟩ | ⟨tag, hold, hnew⟩
  · refine hx.of_step (fun tag htag => ?_) hqueues fun i => by rw [hserver]
    rwa [Awaits, hops, hcall, hhook] at htag
  · exact Knows.rest (hops.trans (hown.resting hold)) hnew
  · refine hx.of_step (fun d hd => ?_) hqueues fun i => by rw [hserver]
    refine hd.of_moveHook hnew hops (by simp) fun hh => .inr (.inr ?_)
    rw [hold]
    exact hh

theorem knows_of_reachable {ok : Object (GrpcCaller C) (GrpcWorker C) →
      ObjectAction (GrpcCaller C) (GrpcAction C) → Prop}
    {s : Object (GrpcCaller C) (GrpcWorker C)}
    (hr : (cGenericGrpcWorker C).system.ReachableBy ok s) : Knows s.ext := by
  refine ReachableBy.invariant (P := fun s => Knows s.ext) (Knows.rest rfl rfl)
    (fun s a t hr hx _ hs => ?_) hr
  cases a with
  | base a =>
    obtain ⟨hb, hy⟩ := Derived.step_base.mp hs
    obtain ⟨hi, hu⟩ := Derived.inherits hr
    exact hx.sync (owned_of_reachable hr) (hookAt_of_reachable hr)
      (BaseWorker.moves_of_step hi hu hb) hy
  | own a => exact hx.own (owned_of_reachable hr) (Derived.step_own.mp hs).2

/-! ## The worker's thread in the stop hook -/

theorem setStop_stop_ne {c d : GrpcCaller C} {p : GrpcStop} (hd : c ≠ d) :
    (o.setStop d p).stop c = o.stop c := Function.update_of_ne hd _ _

/-- The locked section of `requestStop` leads a thread to the stop hook, and it leaves the
hook with the hook of the worker. -/
theorem sync_stop_same {a : BaseAction (GrpcCaller C)} {c : GrpcCaller C}
    (h : sync s a o = some o') (hsection : a ≠ .stopSection c) (hend : a ≠ .stopTriggeredEnd c) :
    o'.stop c = o.stop c := by
  cases a with
  | stopSection d =>
    have hd : c ≠ d := fun he => hsection (he ▸ rfl)
    obtain rfl := Option.some.inj h
    split
    · exact setStop_stop_ne hd
    · rfl
  | stopTriggeredEnd d =>
    have hd : c ≠ d := fun he => hend (he ▸ rfl)
    simp only [GrpcWorker.sync, Option.ite_none_right_eq_some, Option.some.injEq] at h
    obtain ⟨-, rfl⟩ := h
    exact setStop_stop_ne hd
  | call d k =>
    simp only [GrpcWorker.sync] at h
    cases d <;> simp only [calls] at h <;> grind -linarith [setHook]
  | _ =>
    simp only [GrpcWorker.sync] at h
    grind -linarith [setHook]

theorem sync_stop {a : BaseAction (GrpcCaller C)} {c : GrpcCaller C} (h : sync s a o = some o')
    (hc : o'.stop c ≠ .idle) : (a ≠ .stopTriggeredEnd c ∧ o.stop c ≠ .idle) ∨
      (a = .stopSection c ∧ s.mState.shouldTriggerStop = true) := by
  by_cases hend : a = .stopTriggeredEnd c
  · subst hend
    simp only [GrpcWorker.sync, Option.ite_none_right_eq_some, Option.some.injEq] at h
    obtain ⟨-, rfl⟩ := h
    exact absurd (Function.update_self _ _ _) hc
  · by_cases hsection : a = .stopSection c
    · subst hsection
      obtain rfl := Option.some.inj h
      split at hc
      · exact .inr ⟨rfl, ‹_›⟩
      · exact .inl ⟨hend, hc⟩
    · rw [sync_stop_same h hsection hend] at hc
      exact .inl ⟨hend, hc⟩

theorem destroy_stop {a : GrpcAction C} (h : destroy s o a = some o') : o'.stop = o.stop := by
  cases a <;> simp only [GrpcWorker.destroy] at h <;>
    grind -linarith [destroyQueue, destroyServer, setQueue, setServer]

/-- A thread goes through the stop hook by steps of its own. -/
theorem stopTriggered_stop {a : GrpcAction C} {c : GrpcCaller C}
    (h : o.stopTriggered a = some o') : o'.stop c = o.stop c ∨
      (o.stop c ≠ .idle ∧ (a = .stopServer c ∨ a = .stopWait c ∨ a = .stopQueue c)) := by
  cases a with
  | stopServer d | stopQueue d =>
    simp only [GrpcWorker.stopTriggered, Option.ite_none_right_eq_some, Option.some.injEq] at h
    obtain ⟨hat, rfl⟩ := h
    by_cases hd : c = d
    · subst hd
      exact .inr ⟨by simp [hat], by simp⟩
    · left
      split <;> exact setStop_stop_ne hd
  | stopWait d =>
    simp only [GrpcWorker.stopTriggered] at h
    split at h
    · rename_i i hat
      simp only [Option.ite_none_right_eq_some, Option.some.injEq] at h
      obtain ⟨-, rfl⟩ := h
      by_cases hd : c = d
      · subst hd
        exact .inr ⟨by simp [hat], by simp⟩
      · exact .inl (setStop_stop_ne hd)
    · cases h
  | _ => cases h

theorem own_stop {a : GrpcAction C} {c : GrpcCaller C} (h : own s o a = some o')
    (hc : o'.stop c ≠ .idle) : o.stop c ≠ .idle := by
  rcases own_cases h with h | h | h | h | h
  · rwa [(preRun_same h).1] at hc
  · rwa [(run_sameOutside h).stop] at hc
  · rwa [(grpc_sameOutside h).stop] at hc
  · rcases stopTriggered_stop (c := c) h with hsame | ⟨hne, -⟩
    · rwa [hsame] at hc
    · exact hne
  · rwa [destroy_stop h] at hc

theorem stopTriggered_of_stop {ok : Object (GrpcCaller C) (GrpcWorker C) →
      ObjectAction (GrpcCaller C) (GrpcAction C) → Prop}
    {s : Object (GrpcCaller C) (GrpcWorker C)} {c : GrpcCaller C}
    (hr : (cGenericGrpcWorker C).system.ReachableBy ok s) (hc : s.ext.stop c ≠ .idle) :
    ∃ k, s.base.caller c = .stopTriggered k :=
  Derived.stopTriggered_of_reachable (fun o : GrpcWorker C => fun c => o.stop c ≠ .idle)
    (fun _ h => h rfl) (fun h hc => sync_stop h hc) (fun h hc => own_stop h hc) hr hc

/-- While the worker's thread is in a member function of its own worker, it is in
`OnExecuteRpc`. -/
theorem executing_of_reachable {ok : Object (GrpcCaller C) (GrpcWorker C) →
      ObjectAction (GrpcCaller C) (GrpcAction C) → Prop}
    {s : Object (GrpcCaller C) (GrpcWorker C)}
    (hr : (cGenericGrpcWorker C).system.ReachableBy ok s)
    (hbusy : (s.base.caller .run).free = false) : ∃ tag, s.ext.hook = .requestStop tag := by
  refine ReachableBy.invariant (P := fun s : Object (GrpcCaller C) (GrpcWorker C) =>
    (s.base.caller .run).free = false → ∃ tag, s.ext.hook = .requestStop tag)
    (fun h => by cases h) (fun s a t hr hx _ hs hbusy => ?_) hr hbusy
  cases a with
  | base a =>
    obtain ⟨hb, hy⟩ := Derived.step_base.mp hs
    obtain ⟨hi, hu⟩ := Derived.inherits hr
    rcases BaseWorker.busy_of_step hb hbusy with ⟨k, rfl⟩ | hold
    · simp only [cGenericGrpcWorker, GrpcWorker.sync, calls] at hy
      split at hy
      · rename_i tag hhook
        simp only [Option.ite_none_right_eq_some, Option.some.injEq] at hy
        exact ⟨tag, by rw [← hy.2]; rfl⟩
      · cases hy
    · obtain ⟨tag, hhook⟩ := hx hold
      have hcur := (hookAt_of_reachable hr).of_home (q := .run) (by rw [hhook]; rfl)
      cases BaseWorker.moves_of_step hi hu hb with
      | rest hact =>
        rcases sync_hook hy hact with hsame | ⟨d, -, hnew⟩
        · exact ⟨tag, hsame.trans hhook⟩
        · exact ⟨d, hnew⟩
      | launch _ _ _ hfrom => exact absurd (by rw [hcur]; decide) hfrom
      | runEnd r e =>
        simp only [cGenericGrpcWorker, GrpcWorker.sync, Option.ite_none_right_eq_some] at hy
        rw [hhook] at hy
        cases hy.1
      | preRunBegin _ hfrom | preRunEnd _ _ hfrom | checkStop _ hfrom | setRunning _ hfrom
      | catchException _ _ hfrom | setStopped _ hfrom =>
        rw [hcur] at hfrom
        cases hfrom
  | own a =>
    obtain ⟨hb, hy⟩ := Derived.step_own.mp hs
    rw [hb] at hbusy
    obtain ⟨tag, hhook⟩ := hx hbusy
    refine ⟨tag, ?_⟩
    rcases own_cases hy with h | h | h | h | h
    · have hhome := (preRun_home h).1
      rw [hhook] at hhome
      cases hhome
    · cases a <;> simp only [GrpcWorker.run, hhook] at h <;> grind -linarith [CallerPc.free]
    · rw [grpc_hook h, hhook]
    · rw [stopTriggered_hook h, hhook]
    · rw [destroy_hook h, hhook]

theorem executing_of_stop {ok : Object (GrpcCaller C) (GrpcWorker C) →
      ObjectAction (GrpcCaller C) (GrpcAction C) → Prop}
    {s : Object (GrpcCaller C) (GrpcWorker C)}
    (hr : (cGenericGrpcWorker C).system.ReachableBy ok s) (hstop : s.ext.stop .run ≠ .idle) :
    ∃ tag, s.ext.hook = .requestStop tag := by
  obtain ⟨k, hk⟩ := stopTriggered_of_stop hr hstop
  exact executing_of_reachable hr (by rw [hk]; rfl)

/-- The server of a run that is served is the one that its `preRun` has built. -/
def ServesLatest (p : RunnerPc) (o : GrpcWorker C) : Prop :=
  (Serving p o.hook ∨ ∃ port, o.hook = .storePort port) → ∀ i, o.mServer = some i → i = o.latest

theorem ServesLatest.own {p : RunnerPc} {a : GrpcAction C} (hx : ServesLatest p o)
    (hat : HookAt p o.hook) (ha : Attempts o a o') : ServesLatest p o' := by
  intro hs i hi
  cases ha with
  | queue hfrom hto =>
    obtain rfl := hat.of_home (q := .preRun) (by rw [hfrom]; rfl)
    rw [hto] at hs
    rcases hs with hs | ⟨port, hport⟩
    · exact absurd hs (not_serving_of_preRun (by simp))
    · cases hport
  | build r hfrom hto hqueues _ hserver =>
    obtain rfl := hat.of_home (q := .preRun) (by rw [hfrom]; rfl)
    rw [hto] at hs
    cases r with
    | started port =>
      rw [hserver port rfl] at hi
      rw [latest, hqueues]
      exact (Option.some.inj hi).symm
    | null | threw e =>
      rcases hs with hs | ⟨port, hport⟩
      · exact absurd hs (not_serving_of_preRun (by simp [BuildResult.next]))
      · cases hport
  | store port hfrom hto hqueues _ hserver =>
    rw [latest, hqueues]
    exact hx (.inr ⟨port, hfrom⟩) i (hserver ▸ hi)
  | rest hact hhook hqueues _ hserver =>
    have hsame : ∀ hook : GrpcHook, hook.building = true → o'.hook = hook → o.hook = hook :=
      fun hook hb hh =>
        (GrpcHook.same_of_building (hhook.imp_right And.right) (by rw [hh]; exact hb)).trans hh
    rw [latest, hqueues]
    refine hx ?_ i (hserver i hi)
    rcases hs with (hs | hs | hs | hs) | ⟨port, hport⟩
    · exact .inl (.inl hs)
    · exact .inl (.inr (.inl hs))
    · exact .inl (.inr (.inr (.inl hs)))
    · exact .inl (.inr (.inr (.inr (hsame _ rfl hs))))
    · exact .inr ⟨port, hsame _ rfl hport⟩

theorem servesLatest_of_reachable {ok : Object (GrpcCaller C) (GrpcWorker C) →
      ObjectAction (GrpcCaller C) (GrpcAction C) → Prop}
    {s : Object (GrpcCaller C) (GrpcWorker C)}
    (hr : (cGenericGrpcWorker C).system.ReachableBy ok s) :
    ServesLatest s.base.current s.ext := by
  refine ReachableBy.invariant (P := fun s => ServesLatest s.base.current s.ext)
    (fun _ _ h => by cases h) (fun s a t hr hx _ hs => ?_) hr
  have hat := hookAt_of_reachable hr
  cases a with
  | base a =>
    obtain ⟨hb, hy⟩ := Derived.step_base.mp hs
    obtain ⟨hi, hu⟩ := Derived.inherits hr
    obtain ⟨hqueues, -, hserver, hhook⟩ := sync_attempt hy
    intro hserving i hmember
    rw [latest, hqueues]
    refine hx (hserving.imp ?_ ?_) i (hserver ▸ hmember)
    · exact serving_of_sync hat (BaseWorker.moves_of_step hi hu hb) hy
    · rintro ⟨port, hport⟩
      exact ⟨port, (GrpcHook.same_of_building hhook (by rw [hport]; rfl)).trans hport⟩
  | own a =>
    obtain ⟨hb, hy⟩ := Derived.step_own.mp hs
    rw [hb]
    exact hx.own hat (attempts_of_own hy)

/-! ## The wait -/

/-- Without a server there is nothing to wait for. -/
theorem not_waiting_of_reachable {s : Object (GrpcCaller C) (GrpcWorker C)}
    (hr : (cGenericGrpcWorker C).system.ReachableBy StopsNoServer s) (i : Nat) :
    s.ext.stop .run ≠ .wait i := by
  refine ReachableBy.invariant (P := fun s : Object (GrpcCaller C) (GrpcWorker C) =>
    ∀ i, s.ext.stop .run ≠ .wait i) (fun _ h => by cases h) (fun s a t _ hx hok hs i => ?_) hr i
  cases a with
  | base a =>
    have hy := (Derived.step_base.mp hs).2
    by_cases hsection : a = .stopSection .run
    · subst hsection
      obtain hy := (Option.some.inj hy).symm
      rw [hy]
      split
      · simp [setStop]
      · exact hx i
    · by_cases hend : a = .stopTriggeredEnd .run
      · subst hend
        simp only [cGenericGrpcWorker, GrpcWorker.sync, Option.ite_none_right_eq_some,
          Option.some.injEq] at hy
        rw [← hy.2]
        simp [setStop]
      · rw [sync_stop_same hy hsection hend]
        exact hx i
  | own a =>
    rcases own_cases (Derived.step_own.mp hs).2 with h | h | h | h | h
    · rw [(preRun_same h).1]
      exact hx i
    · rw [(run_sameOutside h).stop]
      exact hx i
    · rw [(grpc_sameOutside h).stop]
      exact hx i
    · rcases stopTriggered_stop (c := .run) h with hsame | ⟨-, rfl | rfl | rfl⟩
      · rw [hsame]
        exact hx i
      · have hnone : s.ext.mServer = none := hok
        simp only [GrpcWorker.stopTriggered, hnone, Option.ite_none_right_eq_some,
          Option.some.injEq] at h
        rw [← h.2]
        simp [setStop]
      · -- no wait to return from
        simp only [GrpcWorker.stopTriggered] at h
        cases h
      · simp only [GrpcWorker.stopTriggered, Option.ite_none_right_eq_some,
          Option.some.injEq] at h
        rw [← h.2]
        split <;> simp [setStop]
    · rw [destroy_stop h]
      exact hx i

/-- With a server, the RPC in hand is the one that is waited for. -/
theorem selfBlocked_of_stopServer {s t : Object (GrpcCaller C) (GrpcWorker C)}
    (hr : (cGenericGrpcWorker C).system.Reachable s) (hserver : s.ext.mServer ≠ none)
    (hs : (cGenericGrpcWorker C).step s (.own (.stopServer .run)) = some t) :
    SelfBlocked t.ext := by
  rcases own_cases (Derived.step_own.mp hs).2 with h | h | h | h | h
  · cases h
  · cases h
  · cases h
  · obtain ⟨i, hi⟩ := Option.ne_none_iff_exists'.mp hserver
    have hreceived := stopTriggered_received h i
    obtain ⟨⟨-, hcall, -⟩, -⟩ := stopTriggered_same h
    simp only [GrpcWorker.stopTriggered, hi, Option.ite_none_right_eq_some,
      Option.some.injEq] at h
    obtain ⟨hat, ht⟩ := h
    obtain ⟨tag, hhook⟩ := executing_of_stop hr (by simp [hat])
    have hcur := (hookAt_of_reachable hr).of_home (q := .run) (by rw [hhook]; rfl)
    obtain rfl := servesLatest_of_reachable hr (.inl (.inr (.inr (.inl hcur)))) i hi
    have hawaits : Awaits s.ext tag := .inr (.inr (by rw [hhook]; rfl))
    refine ⟨s.ext.latest, by rw [← ht]; simp [setStop], tag, ?_, ?_⟩
    · rw [hreceived]
      exact knows_of_reachable hr tag hawaits
    · rw [hcall, hawaits.unfinished (owned_of_reachable hr)]
      simp
  · cases h

/-- The wait never ends. -/
theorem selfBlocked_step {s t : Object (GrpcCaller C) (GrpcWorker C)}
    {a : ObjectAction (GrpcCaller C) (GrpcAction C)}
    (hr : (cGenericGrpcWorker C).system.Reachable s) (hx : SelfBlocked s.ext)
    (hs : (cGenericGrpcWorker C).step s a = some t) : SelfBlocked t.ext := by
  obtain ⟨i, hwait, tag, htag, hstatus⟩ := hx
  have hne : s.ext.stop .run ≠ .idle := by simp [hwait]
  obtain ⟨d, hhook⟩ := executing_of_stop hr hne
  obtain ⟨k, hcaller⟩ := stopTriggered_of_stop hr hne
  cases a with
  | base a =>
    obtain ⟨hb, hy⟩ := Derived.step_base.mp hs
    obtain ⟨hi, hu⟩ := Derived.inherits hr
    obtain ⟨hsame, -⟩ :=
      sync_same (hookAt_of_reachable hr) (BaseWorker.moves_of_step hi hu hb) hy
    refine ⟨i, ?_, tag, by rw [hsame.server]; exact htag, by rw [hsame.ops.2.1]; exact hstatus⟩
    rw [← hwait]
    refine sync_stop_same hy ?_ ?_
    · rintro rfl
      obtain ⟨k', hk', -⟩ := BaseWorker.step_stopSection.mp hb
      rw [hcaller] at hk'
      cases hk'
    · rintro rfl
      simp only [cGenericGrpcWorker, GrpcWorker.sync, Option.ite_none_right_eq_some] at hy
      rw [hwait] at hy
      cases hy.1
  | own a =>
    rcases own_cases (Derived.step_own.mp hs).2 with h | h | h | h | h
    · have hhome := (preRun_home h).1
      rw [hhook] at hhome
      cases hhome
    · cases a <;> simp only [GrpcWorker.run, hhook, hcaller] at h <;> cases h
    · have hcall := grpc_call h
      have hstop := (grpc_sameOutside h).stop
      refine ⟨i, by rw [hstop, hwait], tag, ?_, by rw [hcall]; exact hstatus⟩
      exact grpc_received (owned_of_reachable hr) h htag hstatus
    · obtain ⟨⟨-, hcall, -⟩, -⟩ := stopTriggered_same h
      refine ⟨i, ?_, tag, by rw [stopTriggered_received h]; exact htag,
        by rw [hcall]; exact hstatus⟩
      rcases stopTriggered_stop (c := .run) h with hsame | ⟨-, rfl | rfl | rfl⟩
      · exact hsame.trans hwait
      · simp [GrpcWorker.stopTriggered, hwait] at h
      · simp only [GrpcWorker.stopTriggered, hwait, Option.ite_none_right_eq_some] at h
        rw [h.1] at htag
        cases htag
      · simp [GrpcWorker.stopTriggered, hwait] at h
    · obtain ⟨⟨-, hcall, -⟩, -⟩ := destroy_same h
      exact ⟨i, by rw [destroy_stop h, hwait], tag, by rw [(destroy_received h).1]; exact htag,
        by rw [hcall]; exact hstatus⟩

/-- If the stop hook never finds a server on the worker's own thread, that thread never waits
in `Shutdown` for an RPC whose `Finish` it would have to submit. Where the hook does find one
there, the thread waits so, and then for good. -/
theorem self_stop_blocks (C : Type) [DecidableEq C] :
    (∀ s, (cGenericGrpcWorker C).system.ReachableBy StopsNoServer s → ¬ SelfBlocked s.ext) ∧
    (∀ s t, (cGenericGrpcWorker C).system.Reachable s → s.ext.mServer ≠ none →
      (cGenericGrpcWorker C).step s (.own (.stopServer .run)) = some t → SelfBlocked t.ext) ∧
    ∀ s a t, (cGenericGrpcWorker C).system.Reachable s → SelfBlocked s.ext →
      (cGenericGrpcWorker C).step s a = some t → SelfBlocked t.ext :=
  ⟨fun _ hr ⟨i, hwait, _⟩ => not_waiting_of_reachable hr i hwait,
    fun _ _ hr hserver hs => selfBlocked_of_stopServer hr hserver hs,
    fun _ _ _ hr hx hs => selfBlocked_step hr hx hs⟩

def selfStopSchedule : List (ObjectAction (GrpcCaller Bool) (GrpcAction Bool)) :=
  [.own (.event { tag := 0, queue := 0, kind := .request, ready := some true }),
    .own .dispatch, .own .continueRunning, .own .rearm, .base (.call .run .requestStop),
    .base (.stopSection .run)]

theorem self_stop_blocks_executing :
    let D := cGenericGrpcWorker Bool
    let s := D.system.after StopsNoServer D.system.init
      (builtSchedule ++ receivedSchedule ++ selfStopSchedule)
    let t := D.system.after Free s [.own (.stopServer .run)]
    let u := D.system.after Free t [.base (.call (.user true) .requestStop)]
    ¬ SelfBlocked s.ext ∧ SelfBlocked u.ext := by
  intro D s t u
  obtain ⟨hfree, hblocks, hstays⟩ := self_stop_blocks Bool
  have hr : D.system.ReachableBy StopsNoServer s := reaches_after (by decide)
  have ht : D.system.Reachable t := Reaches.trans hr.free (reaches_after (by decide))
  have hblocked : SelfBlocked t.ext := hblocks s t hr.free (by decide) rfl
  exact ⟨hfree s hr, hstays t (.base (.call (.user true) .requestStop)) u ht hblocked rfl⟩

/-- A worker whose business logic stops it waits for its own RPC. -/
theorem self_stop_waits_for_itself :
    ¬ ∀ s, (cGenericGrpcWorker Bool).system.Reachable s → ¬ SelfBlocked s.ext := by
  intro hclaim
  let S := (cGenericGrpcWorker Bool).system
  refine hclaim (S.after Free S.init (builtSchedule ++ receivedSchedule ++ selfStopSchedule ++
    [.own (.stopServer .run)])) (reaches_after (by decide)) ⟨0, by decide, 0, by decide, by decide⟩

end GrpcWorker

end ThreadComponent
