import ThreadComponent.DerivedShutdown
import ThreadComponent.GrpcReplies

/-!
# What the threads of cGenericGrpcWorker wait for

`Server::Shutdown` waits for RPCs of the run that `run` or gRPC has yet to finish. Where a stop is
requested while the queue is served, the queue is shut down, or a stop hook is on its way to it.
-/

set_option autoImplicit false
set_option linter.unusedSectionVars false

namespace ThreadComponent

open Transitions System

/-- Has the stop hook yet to shut down the queue there? -/
def GrpcStop.closing : GrpcStop → Bool
  | .server | .wait _ | .queue => true
  | _ => false

/-- Between the check of the stop flag and the end of `run`. -/
def RunnerPc.inRun : RunnerPc → Bool
  | .setRunning | .run => true
  | _ => false

namespace GrpcWorker
variable {C : Type} [DecidableEq C] {s t : BaseWorker (GrpcCaller C)} {o o' : GrpcWorker C}
  {x y : Object (GrpcCaller C) (GrpcWorker C)}
  {ok : Object (GrpcCaller C) (GrpcWorker C) →
    ObjectAction (GrpcCaller C) (GrpcAction C) → Prop}
  {tag : Nat} {op : GrpcOp}

/-! ## The stop hook -/

/-- A step of a stop hook, with the places that it leads from and to. -/
inductive StopMove (o : GrpcWorker C) : GrpcAction C → GrpcCaller C → GrpcStop → GrpcStop → Prop
    where
  | server {c : GrpcCaller C} {i : Nat} (hi : o.mServer = some i) :
    StopMove o (.stopServer c) c .server (.wait i)
  | noServer {c : GrpcCaller C} (hnone : o.mServer = none) :
    StopMove o (.stopServer c) c .server .queue
  | wait {c : GrpcCaller C} {i : Nat} (hnone : (o.server i).received = []) :
    StopMove o (.stopWait c) c (.wait i) .queue
  | queue {c : GrpcCaller C} : StopMove o (.stopQueue c) c .queue .done

theorem stopMove_of_stopTriggered {a : GrpcAction C} (h : o.stopTriggered a = some o') :
    ∃ c p, StopMove o a c (o.stop c) p ∧ o'.stop = Function.update o.stop c p := by
  cases a with
  | stopServer c =>
    simp only [GrpcWorker.stopTriggered, Option.ite_none_right_eq_some, Option.some.injEq] at h
    obtain ⟨hat, rfl⟩ := h
    cases hserver : o.mServer with
    | some i => exact ⟨c, _, by rw [hat]; exact .server hserver, rfl⟩
    | none => exact ⟨c, _, by rw [hat]; exact .noServer hserver, rfl⟩
  | stopWait c =>
    simp only [GrpcWorker.stopTriggered] at h
    split at h
    · rename_i i hat
      simp only [Option.ite_none_right_eq_some, Option.some.injEq] at h
      obtain ⟨hnone, rfl⟩ := h
      exact ⟨c, _, by rw [hat]; exact .wait hnone, rfl⟩
    · cases h
  | stopQueue c =>
    simp only [GrpcWorker.stopTriggered, Option.ite_none_right_eq_some, Option.some.injEq] at h
    obtain ⟨hat, rfl⟩ := h
    refine ⟨c, .done, by rw [hat]; exact .queue, ?_⟩
    split <;> rfl
  | _ => cases h

theorem own_stop_iff {a : GrpcAction C} {c : GrpcCaller C} (h : own s o a = some o') :
    o'.stop c ≠ .idle ↔ o.stop c ≠ .idle := by
  refine ⟨own_stop h, fun hc => ?_⟩
  rcases own_cases h with h | h | h | h | h
  · rwa [(preRun_same h).1]
  · rwa [(run_sameOutside h).stop]
  · rwa [(grpc_sameOutside h).stop]
  · obtain ⟨d, p, hmove, hstop⟩ := stopMove_of_stopTriggered h
    rw [hstop]
    by_cases hcd : c = d
    · subst hcd
      rw [Function.update_self]
      generalize o.stop c = q at hmove
      cases hmove <;> simp
    · rwa [Function.update_of_ne hcd]
  · rwa [destroy_stop h]

theorem stop_iff_of_reachable (hr : (cGenericGrpcWorker C).system.ReachableBy ok x)
    (c : GrpcCaller C) : x.ext.stop c ≠ .idle ↔ ∃ k, x.base.caller c = .stopTriggered k := by
  refine Derived.inStop_iff_of_reachable (fun o : GrpcWorker C => fun c => o.stop c ≠ .idle)
    (fun _ h => h rfl) (fun {s c o o'} h => ?_) (fun {s c o o'} h => ?_)
    (fun h hsection hend => ?_) (fun h => own_stop_iff h) hr c
  · obtain rfl := Option.some.inj h
    cases htrigger : s.mState.shouldTriggerStop with
    | true =>
      rw [if_pos rfl]
      simp only [setStop, Function.update_self]
      split <;> simp
    | false =>
      rw [if_neg Bool.false_ne_true]
      simp
  · simp only [cGenericGrpcWorker, GrpcWorker.sync, Option.ite_none_right_eq_some,
      Option.some.injEq] at h
    obtain ⟨-, rfl⟩ := h
    simp [setStop]
  · rw [sync_stop_same h hsection hend]

/-- Where the worker's thread waits in `Shutdown`, it waits for an RPC of its own. -/
theorem selfBlocked_of_wait (hr : (cGenericGrpcWorker C).system.Reachable x) {i : Nat}
    (hwait : x.ext.stop .run = .wait i) : SelfBlocked x.ext := by
  refine ReachableBy.invariant (P := fun x : Object (GrpcCaller C) (GrpcWorker C) =>
    (∃ i, x.ext.stop .run = .wait i) → SelfBlocked x.ext) (fun ⟨i, h⟩ => by cases h)
    (fun x a y hr hx _ hs ⟨i, hi⟩ => ?_) hr ⟨i, hwait⟩
  by_cases hold : ∃ i, x.ext.stop .run = .wait i
  · exact selfBlocked_step hr (hx hold) hs
  · -- the thread has come to wait with this step
    cases a with
    | base a =>
      exfalso
      have hy := (Derived.step_base.mp hs).2
      by_cases hsection : a = .stopSection .run
      · subst hsection
        obtain hy := (Option.some.inj hy).symm
        rw [hy] at hi
        split at hi
        · simp [setStop] at hi
        · exact hold ⟨i, hi⟩
      · by_cases hend : a = .stopTriggeredEnd .run
        · subst hend
          simp only [cGenericGrpcWorker, GrpcWorker.sync, Option.ite_none_right_eq_some,
            Option.some.injEq] at hy
          rw [← hy.2] at hi
          simp [setStop] at hi
        · rw [sync_stop_same hy hsection hend] at hi
          exact hold ⟨i, hi⟩
    | own a =>
      have hown := (Derived.step_own.mp hs).2
      have hsame : y.ext.stop .run ≠ x.ext.stop .run := fun he => hold ⟨i, he ▸ hi⟩
      rcases own_cases hown with h | h | h | h | h
      · exact absurd (by rw [(preRun_same h).1]) hsame
      · exact absurd (by rw [(run_sameOutside h).stop]) hsame
      · exact absurd (by rw [(grpc_sameOutside h).stop]) hsame
      · obtain ⟨c, p, hmove, hstop⟩ := stopMove_of_stopTriggered h
        obtain rfl : .run = c := by
          by_contra hne
          exact hsame (by rw [hstop, Function.update_of_ne hne])
        rw [hstop, Function.update_self] at hi
        generalize hat : x.ext.stop .run = q at hmove
        cases hmove with
        | server hserver => exact selfBlocked_of_stopServer hr (by simp [hserver]) hs
        | noServer | wait | queue => cases hi
      · exact absurd (by rw [destroy_stop h]) hsame

/-! ## Calls of the worker's own threads -/

def Waiting (o : GrpcWorker C) : GrpcCaller C → Prop
  | .run => ∃ tag, o.hook = .requestStop tag
  | .destructor => o.destructor = .stopThread
  | .user _ => False

theorem sync_waiting {a : BaseAction (GrpcCaller C)} {c : GrpcCaller C}
    (h : sync s a o = some o') (hw : o'.Waiting c) : o.Waiting c ∨ ∃ k, a = .call c k := by
  cases a with
  | call d k =>
    simp only [GrpcWorker.sync] at h
    cases d <;> cases c <;> simp only [calls, Waiting] at h hw ⊢ <;> grind -linarith [setHook]
  | _ =>
    simp only [GrpcWorker.sync] at h
    cases c <;> simp only [Waiting] at hw ⊢ <;> grind -linarith [setHook, setStop]

theorem own_destructor {a : GrpcAction C} (h : own s o a = some o') :
    o'.destructor = o.destructor ∨ destroy s o a = some o' := by
  rcases own_cases h with h | h | h | h | h
  · exact .inl (preRun_same h).2
  · exact .inl (run_sameOutside h).destructor
  · exact .inl (grpc_sameOutside h).destructor
  · exact .inl (stopTriggered_destructor h)
  · exact .inr h

theorem own_waiting {a : GrpcAction C} {c : GrpcCaller C} (h : own s o a = some o')
    (hw : o'.Waiting c) : o.Waiting c := by
  cases c with
  | user c => exact hw
  | run =>
    obtain ⟨tag, hhook⟩ := hw
    refine ⟨tag, ?_⟩
    rcases own_cases h with h | h | h | h | h
    · have hhome := (preRun_home h).2
      rw [hhook] at hhome
      cases hhome
    · cases runStep_of_run h with
      | timeout => exact hhook
      | @dispatch d ok =>
        exfalso
        cases ok with
        | false => cases hhook
        | true =>
          change (o.proceed d).hook = _ at hhook
          unfold GrpcWorker.proceed at hhook
          split at hhook <;> cases hhook
      | continueRunning =>
        exfalso
        rw [setHook_hook] at hhook
        split at hhook <;> cases hhook
      | arm | shutdown | event | rearm | executed | executeStopped | finish => cases hhook
    · rwa [grpc_hook h] at hhook
    · rwa [stopTriggered_hook h] at hhook
    · rwa [destroy_hook h] at hhook
  | destructor =>
    rcases own_destructor h with hsame | h
    · rwa [Waiting, hsame] at hw
    · cases a <;> simp only [GrpcWorker.destroy, Waiting] at h hw <;> grind -linarith

theorem called_of_reachable {c : GrpcCaller C}
    (hr : (cGenericGrpcWorker C).system.ReachableBy ok x) (hw : x.ext.Waiting c) :
    x.base.caller c ≠ .idle := by
  refine Derived.called_of_reachable (fun o : GrpcWorker C => o.Waiting c) ?_
    (fun hy hw => sync_waiting hy hw) (fun hy hw => own_waiting hy hw) hr hw
  intro hinit
  cases c with
  | user => exact hinit
  | run =>
    obtain ⟨tag, hhook⟩ := hinit
    cases hhook
  | destructor => cases hinit

/-- `OnExecuteRpc` makes one call, `requestStop`. -/
theorem stopsItself_of_reachable (hr : (cGenericGrpcWorker C).system.ReachableBy ok x) :
    StopsItself (x.base.caller .run) := by
  refine Derived.stopsItself_of_reachable (fun {s k o o'} hy => ?_) hr
  have hcalls : o.calls .run k = some o' := hy
  simp only [calls] at hcalls
  split at hcalls
  · simp only [Option.ite_none_right_eq_some] at hcalls
    exact hcalls.1
  · cases hcalls

/-! ## What `Shutdown` waits for -/

/-- What the servers know are RPCs of the latest run, each of which waits for its reply, or for
the end of its `Finish`. -/
structure Served (o : GrpcWorker C) : Prop where
  latest : ∀ i tag, tag ∈ (o.server i).received → i + 1 = o.queues
  unfinished : ∀ i tag, tag ∈ (o.server i).received → Awaits o tag ∨
    ∃ op ∈ o.ops, op.tag = tag ∧ op.kind = .finish ∧ op.ready = none
  nodup : ∀ i, (o.server i).received.Nodup

theorem Served.of_same (hx : Served o) (hqueues : o'.queues = o.queues)
    (hreceived : ∀ i, (o'.server i).received = (o.server i).received)
    (hawaits : ∀ tag, Awaits o tag → Awaits o' tag ∨
      ∃ op ∈ o'.ops, op.tag = tag ∧ op.kind = .finish ∧ op.ready = none)
    (hops : ∀ op ∈ o.ops, op.kind = .finish → op.ready = none → op ∈ o'.ops) : Served o' where
  latest i tag h := by
    rw [hreceived] at h
    exact hqueues ▸ hx.latest i tag h
  unfinished i tag h := by
    rw [hreceived] at h
    rcases hx.unfinished i tag h with hold | ⟨op, hop, htag, hkind, hready⟩
    · exact hawaits tag hold
    · exact .inr ⟨op, hops op hop hkind hready, htag, hkind, hready⟩
  nodup i := by
    rw [hreceived]
    exact hx.nodup i

theorem Served.received_nil (hx : Served o) (hops : o.ops = [])
    (hnot : ∀ tag, ¬ Awaits o tag) (i : Nat) : (o.server i).received = [] := by
  refine List.eq_nil_iff_forall_not_mem.mpr fun tag htag => ?_
  rcases hx.unfinished i tag htag with hawaits | ⟨op, hop, -⟩
  · exact hnot tag hawaits
  · rw [hops] at hop
    cases hop

theorem served_of_nil (h : ∀ i, (o.server i).received = []) : Served o where
  latest i tag htag := by
    rw [h] at htag
    cases htag
  unfinished i tag htag := by
    rw [h] at htag
    cases htag
  nodup i := by
    rw [h]
    exact List.nodup_nil

theorem Served.rest (hx : Served o) (hown : Owned o) (hold : o.hook.serving = false)
    (hreceived : ∀ i, (o'.server i).received = (o.server i).received) : Served o' := by
  have hnil := hx.received_nil (hown.resting hold)
    fun tag => not_awaits_of_rest (hown.resting hold) hold
  exact served_of_nil fun i => by rw [hreceived, hnil]

theorem run_ops {a : GrpcAction C} (h : run s o a = some o') {d : GrpcOp} (hd : d ∈ o.ops)
    (hready : d.ready = none) : d ∈ o'.ops := by
  cases runStep_of_run h with
  | arm | rearm => exact mem_newCall hd
  | timeout | shutdown | continueRunning | executed | executeStopped => exact hd
  | @event op ok _ hop' =>
    refine (List.mem_erase_of_ne ?_).mpr hd
    rintro rfl
    rw [hready] at hop'
    cases hop'
  | @dispatch tag ok =>
    cases ok with
    | false => exact hd
    | true =>
      change d ∈ (o.proceed tag).ops
      unfold GrpcWorker.proceed
      split
      · exact List.mem_append_left _ hd
      · exact hd
      · exact hd
  | finish => exact List.mem_append_left _ hd

theorem Served.run {a : GrpcAction C} (hx : Served o) (hown : Owned o)
    (h : run s o a = some o') : Served o' := by
  refine hx.of_same (run_sameOutside h).queues (fun i => by rw [run_server h]) (fun tag htag => ?_)
    fun d hd _ hready => run_ops h hd hready
  by_cases hfinish : a = .finish
  · subst hfinish
    cases runStep_of_run h with
    | @finish d status hhook =>
      by_cases hd : tag = d
      · subst hd
        exact .inr ⟨_, List.mem_append_right _ (List.mem_singleton.mpr rfl), rfl, rfl, rfl⟩
      · refine .inl (Awaits.of_ops (o := o) (fun d hd _ => List.mem_append_left _ hd) fun hnot => ?_)
        have hbusy := (htag.of_hook hnot).1
        rw [hhook] at hbusy
        exact absurd (Option.some.inj hbusy).symm hd
  · exact .inl (htag.run hown h hfinish)

theorem Served.not_received (hx : Served o) (hown : Owned o) (hop : op ∈ o.ops)
    (hkind : op.kind = .request) (hready : op.ready = none) (i : Nat) :
    op.tag ∉ (o.server i).received := by
  intro hmem
  rcases hx.unfinished i op.tag hmem with hawaits | ⟨d, hd, htag, hfinish, -⟩
  · exact not_awaits_of_request hown hop hready hawaits
  · obtain rfl := List.inj_on_of_nodup_map hown.nodup hd hop htag
    rw [hkind] at hfinish
    cases hfinish

/-- The completion of an operation leaves the other RPCs as they are. -/
theorem unfinished_complete {ok : Bool} {server : Nat → GrpcServer} (hop : op ∈ o.ops)
    (hready : op.ready = none) (hne : op.kind = .finish → tag ≠ op.tag)
    (h : Awaits o tag ∨ ∃ d ∈ o.ops, d.tag = tag ∧ d.kind = .finish ∧ d.ready = none) :
    Awaits { o.complete op ok with server := server } tag ∨
      ∃ d ∈ (o.complete op ok).ops, d.tag = tag ∧ d.kind = .finish ∧ d.ready = none := by
  rcases h with hawaits | ⟨d, hd, htag, hkind, hdready⟩
  · exact .inl ((awaits_complete hop hready).mpr (.inl hawaits))
  · refine .inr ⟨d, List.mem_cons_of_mem _ ((List.mem_erase_of_ne ?_).mpr hd), htag, hkind, hdready⟩
    rintro rfl
    exact hne hkind htag.symm

theorem Served.receive (hx : Served o) (hown : Owned o) (hop : op ∈ o.ops)
    (hkind : op.kind = .request) (hready : op.ready = none) :
    Served ((o.complete op true).setServer op.queue
      { o.server op.queue with received := op.tag :: (o.server op.queue).received }) := by
  have hold : ∀ i, i ≠ op.queue → (Function.update o.server op.queue
      { o.server op.queue with received := op.tag :: (o.server op.queue).received } i) =
        o.server i := fun i hi => Function.update_of_ne hi _ _
  constructor
  · intro i tag htag
    change tag ∈ (Function.update o.server op.queue _ i).received at htag
    by_cases hi : i = op.queue
    · rw [hi]
      exact (hown.queue op hop).1
    · rw [hold i hi] at htag
      exact hx.latest i tag htag
  · intro i tag htag
    change tag ∈ (Function.update o.server op.queue _ i).received at htag
    change Awaits { o.complete op true with server := _ } tag ∨ _
    have hother : ∀ server : Nat → GrpcServer, tag ∈ (o.server i).received →
        Awaits { o.complete op true with server := server } tag ∨
          ∃ d ∈ (o.complete op true).ops, d.tag = tag ∧ d.kind = .finish ∧ d.ready = none := by
      intro server hmem
      refine unfinished_complete hop hready (fun hfinish => ?_) (hx.unfinished i tag hmem)
      rw [hkind] at hfinish
      cases hfinish
    by_cases hi : i = op.queue
    · subst hi
      rw [Function.update_self] at htag
      rcases List.mem_cons.mp htag with rfl | hmem
      · exact .inl ((awaits_complete hop hready).mpr (.inr ⟨rfl, hkind, rfl⟩))
      · exact hother _ hmem
    · rw [hold i hi] at htag
      exact hother _ htag
  · intro i
    change (Function.update o.server op.queue _ i).received.Nodup
    by_cases hi : i = op.queue
    · subst hi
      rw [Function.update_self]
      exact List.nodup_cons.mpr ⟨hx.not_received hown hop hkind hready _, hx.nodup _⟩
    · rw [hold i hi]
      exact hx.nodup i

theorem Served.finished {ok : Bool} (hx : Served o) (hown : Owned o) (hop : op ∈ o.ops)
    (hready : op.ready = none) :
    Served ((o.complete op ok).setServer op.queue
      { o.server op.queue with received := (o.server op.queue).received.erase op.tag }) := by
  have hsub : ∀ i tag, tag ∈ (Function.update o.server op.queue
      { o.server op.queue with received := (o.server op.queue).received.erase op.tag }
        i).received → tag ∈ (o.server i).received ∧ tag ≠ op.tag := by
    intro i tag htag
    by_cases hi : i = op.queue
    · subst hi
      rw [Function.update_self] at htag
      exact ⟨List.mem_of_mem_erase htag, ((hx.nodup _).mem_erase_iff.mp htag).1⟩
    · -- the RPCs are those of the latest server
      rw [Function.update_of_ne hi] at htag
      have hqueue := (hown.queue op hop).1
      have hlatest := hx.latest i tag htag
      omega
  constructor
  · intro i tag htag
    exact hx.latest i tag (hsub i tag htag).1
  · intro i tag htag
    obtain ⟨hmem, hne⟩ := hsub i tag htag
    exact unfinished_complete hop hready (fun _ => hne) (hx.unfinished i tag hmem)
  · intro i
    change (Function.update o.server op.queue _ i).received.Nodup
    by_cases hi : i = op.queue
    · subst hi
      rw [Function.update_self]
      exact (hx.nodup _).erase _
    · rw [Function.update_of_ne hi]
      exact hx.nodup i

theorem Served.grpc {a : GrpcAction C} (hx : Served o) (hown : Owned o)
    (h : o.grpc a = some o') : Served o' := by
  cases a with
  | receive op =>
    simp only [GrpcWorker.grpc, Option.ite_none_right_eq_some, Option.some.injEq] at h
    obtain ⟨⟨hop, hkind, hready, -⟩, rfl⟩ := h
    exact hx.receive hown hop hkind hready
  | failRequest op =>
    simp only [GrpcWorker.grpc, Option.ite_none_right_eq_some, Option.some.injEq] at h
    obtain ⟨⟨hop, hkind, hready, -⟩, rfl⟩ := h
    refine hx.of_same rfl (fun _ => rfl) (fun tag htag => .inl ?_) fun d hd hfinish _ => ?_
    · have hawaits : Awaits { o.complete op false with server := o.server } tag :=
        (awaits_complete hop hready).mpr (.inl htag)
      exact hawaits
    · refine List.mem_cons_of_mem _ ((List.mem_erase_of_ne ?_).mpr hd)
      rintro rfl
      rw [hkind] at hfinish
      cases hfinish
  | finished op ok =>
    simp only [GrpcWorker.grpc, Option.ite_none_right_eq_some, Option.some.injEq] at h
    obtain ⟨⟨hop, -, hready⟩, rfl⟩ := h
    exact hx.finished hown hop hready
  | _ => cases h

theorem Served.of_eq (hx : Served o) (hops : o'.ops = o.ops) (hcall : o'.call = o.call)
    (hhook : o'.hook = o.hook) (hqueues : o'.queues = o.queues)
    (hreceived : ∀ i, (o'.server i).received = (o.server i).received) : Served o' := by
  refine hx.of_same hqueues hreceived (fun tag htag => .inl ?_) fun d hd _ _ => hops ▸ hd
  rw [Awaits, hops, hcall, hhook]
  exact htag

theorem Served.own {a : GrpcAction C} (hx : Served o) (hown : Owned o)
    (h : own s o a = some o') : Served o' := by
  rcases own_cases h with h | h | h | h | h
  · exact hx.rest hown (GrpcHook.resting_of_preRun (preRun_home h).1) (preRun_received h).1
  · exact hx.run hown h
  · exact hx.grpc hown h
  · obtain ⟨⟨hops, hcall, -, hqueues⟩, -⟩ := stopTriggered_same h
    exact hx.of_eq hops hcall (stopTriggered_hook h) hqueues (stopTriggered_received h)
  · obtain ⟨⟨hops, hcall, -, hqueues⟩, -⟩ := destroy_same h
    exact hx.of_eq hops hcall (destroy_hook h) hqueues (destroy_received h).1

theorem Served.sync {a : BaseAction (GrpcCaller C)} (hx : Served o) (hown : Owned o)
    (hat : HookAt s.current o.hook) (hm : BaseWorker.Moves s a t)
    (hy : sync s a o = some o') : Served o' := by
  obtain ⟨⟨⟨hops, hcall, -, hqueues⟩, -, hserver, -⟩, hmoves⟩ := sync_same hat hm hy
  rcases hmoves with hhook | ⟨hold, -⟩ | ⟨tag, hold, hnew⟩
  · exact hx.of_eq hops hcall hhook hqueues fun i => by rw [hserver]
  · exact hx.rest hown hold fun i => by rw [hserver]
  · refine hx.of_same hqueues (fun i => by rw [hserver]) (fun d hd => .inl ?_) fun d hd _ _ => hops ▸ hd
    simpa [Awaits, hops, hold, hnew, GrpcHook.processing] using hd

theorem served_of_reachable (hr : (cGenericGrpcWorker C).system.ReachableBy ok x) :
    Served x.ext := by
  refine ReachableBy.invariant (P := fun x => Served x.ext) (served_of_nil fun _ => rfl)
    (fun x a y hr hx _ hs => ?_) hr
  cases a with
  | base a =>
    obtain ⟨hb, hy⟩ := Derived.step_base.mp hs
    obtain ⟨hi, hu⟩ := Derived.inherits hr
    exact hx.sync (owned_of_reachable hr) (hookAt_of_reachable hr)
      (BaseWorker.moves_of_step hi hu hb) hy
  | own a => exact hx.own (owned_of_reachable hr) (Derived.step_own.mp hs).2

/-! ## The queue of a run that is stopped -/

/-- Behind the request of a stop the queue of the run is down, or somebody is about to shut it
down. -/
def Closing (s : BaseWorker (GrpcCaller C)) (o : GrpcWorker C) : Prop :=
  s.stopRequested = true → s.current.inRun = true →
    (∀ q, o.mCq = some q → (o.queue q).shutdown = true) ∨ ∃ c, (o.stop c).closing = true

/-- What is down stays so, and stop hooks stay where they are. -/
theorem Closing.of_keeps (hx : Closing s o)
    (hcq : ∀ q, o'.mCq = some q → o.mCq = some q)
    (hqueue : ∀ q, (o.queue q).shutdown = true → (o'.queue q).shutdown = true)
    (hstop : ∀ c, (o.stop c).closing = true → (o'.stop c).closing = true)
    (hrun : t.stopRequested = true → t.current.inRun = true →
      s.stopRequested = true ∧ s.current.inRun = true) : Closing t o' := by
  intro hflag hcurrent
  obtain ⟨hflag, hcurrent⟩ := hrun hflag hcurrent
  rcases hx hflag hcurrent with hdown | ⟨c, hc⟩
  · exact .inl fun q hq => hqueue q (hdown q (hcq q hq))
  · exact .inr ⟨c, hstop c hc⟩

theorem Closing.stopTriggered {a : GrpcAction C} (hx : Closing s o)
    (h : o.stopTriggered a = some o') : Closing s o' := by
  have hcq := (stopTriggered_same h).2
  obtain ⟨c, p, hmove, hstop⟩ := stopMove_of_stopTriggered h
  cases hp : p.closing with
  | true =>
    refine hx.of_keeps (fun q hq => hcq ▸ hq) (fun q => (stopTriggered_keeps h q).2.2)
      (fun d hd => ?_) fun hflag hcurrent => ⟨hflag, hcurrent⟩
    rw [hstop]
    by_cases hdc : d = c
    · rw [hdc, Function.update_self]
      exact hp
    · rwa [Function.update_of_ne hdc]
  | false =>
    -- the queue is down now
    intro _ _
    generalize hat : o.stop c = r at hmove
    cases hmove with
    | server | noServer | wait => cases hp
    | queue =>
      left
      intro q hq
      have hold : o.mCq = some q := hcq ▸ hq
      simp only [GrpcWorker.stopTriggered, hold, Option.ite_none_right_eq_some,
        Option.some.injEq] at h
      obtain ⟨-, rfl⟩ := h
      change (Function.update o.queue q _ q).shutdown = true
      rw [Function.update_self]

theorem Closing.own {a : GrpcAction C} (hx : Closing s o) (hat : HookAt s.current o.hook)
    (h : own s o a = some o') : Closing s o' := by
  have hrun : s.stopRequested = true → s.current.inRun = true →
      s.stopRequested = true ∧ s.current.inRun = true := fun hflag hcurrent => ⟨hflag, hcurrent⟩
  rcases own_cases h with h | h | h | h | h
  · intro _ hcurrent
    rw [hat.of_home (preRun_home h).1] at hcurrent
    cases hcurrent
  · have hsame := run_sameOutside h
    refine hx.of_keeps (fun q hq => hsame.mCq ▸ hq) (fun q hq => ?_) (fun c hc => hsame.stop ▸ hc) hrun
    by_cases hshutdown : a = .shutdown
    · subst hshutdown
      cases runStep_of_run h with
      | @shutdown d _ _ hdown =>
        exact (field_update CompletionQueue.shutdown (by rfl) q).trans hq
    · exact ((run_keeps h hshutdown).1 q).2.2 hq
  · have hsame := grpc_sameOutside h
    refine hx.of_keeps (fun q hq => hsame.mCq ▸ hq) (fun q hq => ?_) (fun c hc => hsame.stop ▸ hc) hrun
    rw [(grpc_queue h).1]
    exact hq
  · exact hx.stopTriggered h
  · refine hx.of_keeps (destroy_same h).2 (fun q hq => ?_) (fun c hc => ?_) hrun
    · rw [((destroy_received h).2 q).2]
      exact hq
    · rw [destroy_stop h]
      exact hc

theorem inRun_of_moves {a : BaseAction (GrpcCaller C)} (hm : BaseWorker.Moves s a t)
    (hflag : s.stopRequested = true) (hcurrent : t.current.inRun = true) :
    s.current.inRun = true := by
  cases hm with
  | rest _ _ hcur => rwa [hcur] at hcurrent
  | launch c created _ _ _ hto =>
    rw [hto] at hcurrent
    cases created <;> cases hcurrent
  | preRunBegin r hfrom hto | catchException r e hfrom hto | setStopped r hfrom hto =>
    rw [hto] at hcurrent
    cases hcurrent
  | preRunEnd r e hfrom hto =>
    rw [hto] at hcurrent
    rcases e with ⟨_ | _⟩ | e <;> cases hcurrent
  | checkStop r hfrom hto =>
    rw [hto, if_pos hflag] at hcurrent
    cases hcurrent
  | setRunning r hfrom hto =>
    rw [hfrom]
    rfl
  | runEnd r e hfrom hto =>
    rw [hfrom]
    rfl

/-- Whoever sets the flag enters the stop hook, as long as the members are there. -/
theorem Closing.sync {a : BaseAction (GrpcCaller C)} (hx : Closing s o)
    (hat : HookAt s.current o.hook) (hi : BaseWorker.SingleBody s) (hu : BaseWorker.Unborn s)
    (hk : s.mState ≠ .unknown) (hmembers : s.stopRequested = false → o.destructor ≠ .inBase)
    (hidle : ∀ c, a = .stopSection c → o.stop c = .idle) (hs : s.step a = some t)
    (hy : sync s a o = some o') : Closing t o' := by
  have hm := BaseWorker.moves_of_step hi hu hs
  obtain ⟨hsame, -⟩ := sync_same hat hm hy
  cases hold : s.stopRequested with
  | true =>
    refine hx.of_keeps (fun q hq => hsame.mCq ▸ hq) (fun q hq => by rw [hsame.queue]; exact hq)
      (fun c hc => ?_) fun _ hcurrent => ⟨hold, inRun_of_moves hm hold hcurrent⟩
    rw [sync_stop_same hy]
    · exact hc
    · intro hact
      rw [hidle c hact] at hc
      cases hc
    · rintro rfl
      simp only [GrpcWorker.sync, Option.ite_none_right_eq_some] at hy
      rw [hy.1] at hc
      cases hc
  | false =>
    intro hflag hcurrent
    rcases BaseWorker.stopSection_of_flag hs hflag with hset | ⟨c, rfl⟩
    · rw [hold] at hset
      cases hset
    · have hlive : s.current.live := by
        cases hm with
        | rest _ _ hcur =>
          rw [hcur] at hcurrent
          revert hcurrent
          cases s.current <;> simp [RunnerPc.inRun, RunnerPc.live]
      have htrigger := BaseWorker.shouldTriggerStop_of_live hi hk hlive
      obtain rfl := Option.some.inj hy
      rw [if_pos htrigger, if_neg fun hbase => hmembers hold hbase.2]
      exact .inr ⟨c, by simp [setStop, GrpcStop.closing]⟩

/-- The members outlive every step but the call of the base class's destructor. -/
theorem members_of_step {a : ObjectAction (GrpcCaller C) (GrpcAction C)}
    (hs : (cGenericGrpcWorker C).system.step x a = some y) (hmembers : y.ext.destructor ≠ .inBase) :
    x.ext.destructor ≠ .inBase := by
  intro hbase
  refine hmembers ?_
  cases a with
  | base a =>
    have h : GrpcWorker.sync x.base a x.ext = some y.ext := (Derived.step_base.mp hs).2
    cases a with
    | call c k =>
      simp only [GrpcWorker.sync] at h
      cases c <;> simp only [calls] at h <;> grind -linarith [setHook]
    | _ =>
      simp only [GrpcWorker.sync] at h
      grind -linarith [setHook, setStop]
  | own a =>
    rcases own_destructor (Derived.step_own.mp hs).2 with hsame | h
    · rw [hsame, hbase]
    · cases a <;> simp only [GrpcWorker.destroy] at h <;> grind -linarith

/-- The locked section of `requestStop` lies in front of the stop hook. -/
theorem idle_of_stopSection {c : GrpcCaller C}
    (hr : (cGenericGrpcWorker C).system.ReachableBy ok x) {b : BaseWorker (GrpcCaller C)}
    (hb : x.base.step (.stopSection c) = some b) : x.ext.stop c = .idle := by
  by_contra hne
  obtain ⟨k, hk⟩ := (stop_iff_of_reachable hr c).mp hne
  obtain ⟨k', hk', -⟩ := BaseWorker.step_stopSection.mp hb
  rw [hk] at hk'
  cases hk'

theorem Closing.step {a : ObjectAction (GrpcCaller C) (GrpcAction C)}
    (hr : (cGenericGrpcWorker C).system.ReachableBy ok x) (hx : Closing x.base x.ext)
    (hmembers : x.base.stopRequested = false → x.ext.destructor ≠ .inBase)
    (hs : (cGenericGrpcWorker C).system.step x a = some y) : Closing y.base y.ext := by
  cases a with
  | base a =>
    obtain ⟨hb, hy⟩ := Derived.step_base.mp hs
    obtain ⟨hi, hu⟩ := Derived.inherits hr
    refine hx.sync (hookAt_of_reachable hr) hi hu
      (BaseWorker.known_of_reachable (Derived.base_reachable hr)) hmembers (fun c hact => ?_) hb hy
    subst hact
    exact idle_of_stopSection hr hb
  | own a =>
    obtain ⟨hb, hy⟩ := Derived.step_own.mp hs
    rw [hb]
    exact hx.own (hookAt_of_reachable hr) hy

theorem closing_of_reachable (hr : (cGenericGrpcWorker C).system.ReachableBy ok x)
    (hmembers : x.ext.destructor ≠ .inBase) : Closing x.base x.ext := by
  revert hmembers
  refine ReachableBy.invariant
    (P := fun x => x.ext.destructor ≠ .inBase → Closing x.base x.ext) ?_ ?_ hr
  · exact fun _ hflag => by cases hflag
  · intro x a y hr hx _ hs hmembers
    have hold := members_of_step hs hmembers
    exact (hx hold).step hr (fun _ => hold) hs

end GrpcWorker

end ThreadComponent
