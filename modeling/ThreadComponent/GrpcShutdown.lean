import ThreadComponent.GrpcWaits

/-!
# cGenericGrpcWorker comes to its end

Once a stop is requested and nobody is about to launch a run, `run`, gRPC, the stop hooks, the
calls and a destructor that has begun take a bounded number of steps. `run` arms no further
listener, so the operations that are outstanding are the last ones. Only a timeout of `AsyncNext`
and a call of `requestStop` from `OnExecuteRpc` come any number of times.
-/

set_option autoImplicit false
set_option linter.unusedSectionVars false

namespace ThreadComponent

open Transitions System

/-! ## What is left to do at each place -/

/-- The most steps that a hook of the worker still takes behind a stop, with those of the
operations that it submits. The event of a request is followed by its execution. -/
def GrpcHook.rank (mStatus : Nat → RpcStatus) : GrpcHook → Nat
  | .idle => 0
  | .preRunDone _ | .runDone _ => 1
  | .storePort _ | .next => 2
  | .buildAndStart => 3
  | .addCompletionQueue => 4
  | .builder => 5
  | .finish _ _ => 6
  | .execute _ => 7
  | .continueRunning _ | .requestStop _ => 8
  | .arm => 12
  | .rearm _ => 17
  | .event tag ok => if ok = true ∧ mStatus tag = .process then 9 else 3

/-- The steps of gRPC, and those of `run` for the event. -/
def GrpcOp.rank (op : GrpcOp) : Nat :=
  match op.kind, op.ready with
  | .finish, some _ => 2
  | .finish, none => 3
  | .request, some _ => 8
  | .request, none => 9

def GrpcOp.ranks : List GrpcOp → Nat
  | [] => 0
  | op :: ops => op.rank + ranks ops

def GrpcStop.rank : GrpcStop → Nat
  | .idle | .done => 0
  | .queue => 1
  | .wait _ => 2
  | .server => 3

/-- The destructor of the base class makes a call. -/
def GrpcDestructor.rank : GrpcDestructor → Nat
  | .idle | .inBase => 0
  | .base => 183
  | .queue => 184
  | .server => 185
  | .stopThread => 186

theorem GrpcOp.ranks_append (ops ops' : List GrpcOp) :
    ranks (ops ++ ops') = ranks ops + ranks ops' := by
  induction ops with
  | nil => simp [ranks]
  | cons op ops ih =>
    simp only [List.cons_append, ranks, ih]
    omega

theorem GrpcOp.ranks_erase {op : GrpcOp} {ops : List GrpcOp} (hop : op ∈ ops) :
    ranks (ops.erase op) + op.rank = ranks ops := by
  induction ops with
  | nil => cases hop
  | cons d ops ih =>
    by_cases hd : d = op
    · subst hd
      rw [List.erase_cons_head, ranks]
      omega
    · have hmem : op ∈ ops := by
        rcases List.mem_cons.mp hop with rfl | hmem
        · exact absurd rfl hd
        · exact hmem
      rw [List.erase_cons_tail (by simpa using hd), ranks, ranks]
      have hrest := ih hmem
      omega

theorem GrpcOp.rank_ready {op : GrpcOp} {ok : Bool} (h : op.ready = none) :
    rank { op with ready := some ok } + 1 = op.rank := by
  unfold rank
  cases op.kind <;> simp [h]

namespace GrpcWorker
variable {C : Type} [DecidableEq C] {s t : BaseWorker (GrpcCaller C)} {o o' : GrpcWorker C}
  {busy : Finset (GrpcCaller C)}

def running (o : GrpcWorker C) : Nat :=
  o.hook.rank (fun tag => (o.call tag).mStatus) + GrpcOp.ranks o.ops + o.destructor.rank

def places (busy : Finset (GrpcCaller C)) (o : GrpcWorker C) : Nat :=
  o.running + ∑ c ∈ busy, (o.stop c).rank

def rank (busy : Finset (GrpcCaller C)) (s : BaseWorker (GrpcCaller C)) (o : GrpcWorker C) : Nat :=
  13 * s.rank busy + o.places busy

/-! ## Steps of the object -/

theorem places_lower (hrunning : o'.running < o.running) (hstop : o'.stop = o.stop) :
    o'.places busy < o.places busy := by
  unfold places
  rw [hstop]
  omega

theorem running_of_hook {hook : GrpcHook} (hhook : o.hook = hook)
    (hlower : o'.hook.rank (fun tag => (o'.call tag).mStatus) + GrpcOp.ranks o'.ops <
      hook.rank (fun tag => (o.call tag).mStatus) + GrpcOp.ranks o.ops)
    (hdtor : o'.destructor = o.destructor) : o'.running < o.running := by
  unfold running
  rw [hhook, hdtor]
  omega

theorem preRun_running {a : GrpcAction C} (h : o.preRun a = some o') :
    o'.running < o.running := by
  obtain ⟨hops, hcall, -⟩ := preRun_members h
  have hhook : o'.hook.rank (fun tag => (o.call tag).mStatus) <
      o.hook.rank (fun tag => (o.call tag).mStatus) := by
    cases a <;> simp only [GrpcWorker.preRun] at h <;>
      grind -linarith [setHook, startupFailed, GrpcWorker.addCompletionQueue, GrpcHook.rank]
  refine running_of_hook rfl ?_ (preRun_same h).2
  rw [hops, hcall]
  omega

theorem ranks_newCall (q : Nat) : GrpcOp.ranks (o.newCall q).ops = GrpcOp.ranks o.ops + 9 := by
  rw [newCall_ops, GrpcOp.ranks_append]
  rfl

/-- The object of an event takes as many steps as its operation is worth. -/
theorem rank_event {op : GrpcOp} {ok : Bool} (hown : Owned o) (hop : op ∈ o.ops)
    (hready : op.ready = some ok) :
    (GrpcHook.event op.tag ok).rank (fun tag => (o.call tag).mStatus) < 2 + op.rank := by
  have hstatus := (hown.op op hop).2
  unfold GrpcOp.rank
  rw [hready]
  cases hkind : op.kind with
  | request =>
    simp only [GrpcHook.rank]
    split <;> omega
  | finish =>
    rw [hkind] at hstatus
    simp [GrpcHook.rank, hstatus, OpKind.status]

theorem run_running {a : GrpcAction C} (hown : Owned o) (hflag : s.stopRequested = true)
    (ha : a ≠ .timeout) (h : run s o a = some o') : o'.running < o.running := by
  cases runStep_of_run h with
  | timeout => exact absurd rfl ha
  | @arm q hhook =>
    refine running_of_hook hhook ?_ rfl
    change 2 + GrpcOp.ranks (o.newCall q).ops < 12 + GrpcOp.ranks o.ops
    rw [ranks_newCall]
    omega
  | shutdown hhook =>
    refine running_of_hook hhook ?_ rfl
    change 1 + GrpcOp.ranks o.ops < 2 + GrpcOp.ranks o.ops
    omega
  | @event op ok hhook hready hop =>
    refine running_of_hook hhook ?_ rfl
    have herase := GrpcOp.ranks_erase hop
    have hevent := rank_event hown hop hready
    change (GrpcHook.event op.tag ok).rank (fun tag => (o.call tag).mStatus) +
      GrpcOp.ranks (o.ops.erase op) < 2 + GrpcOp.ranks o.ops
    omega
  | @dispatch tag ok hhook =>
    cases ok with
    | false =>
      refine running_of_hook hhook ?_ rfl
      simp [GrpcHook.rank, setHook, deleteCall, setCall]
    | true =>
      change (o.proceed tag).running < o.running
      unfold GrpcWorker.proceed
      split
      · rename_i hcreate
        exact absurd hcreate (hown.busy tag (by rw [hhook]; rfl)).2.2.2
      · rename_i hprocess
        refine running_of_hook hhook ?_ rfl
        simp [GrpcHook.rank, hprocess, setHook]
      · rename_i hfinish
        refine running_of_hook hhook ?_ rfl
        simp [GrpcHook.rank, hfinish, setHook, deleteCall, setCall]
  | continueRunning hhook =>
    refine running_of_hook hhook ?_ rfl
    rw [if_pos hflag]
    change 7 + GrpcOp.ranks o.ops < 8 + GrpcOp.ranks o.ops
    omega
  | @rearm tag hhook =>
    refine running_of_hook hhook ?_ rfl
    change 7 + GrpcOp.ranks (o.newCall (o.call tag).queue).ops < 17 + GrpcOp.ranks o.ops
    rw [ranks_newCall]
    omega
  | executed hhook =>
    refine running_of_hook hhook ?_ rfl
    change 6 + GrpcOp.ranks o.ops < 7 + GrpcOp.ranks o.ops
    omega
  | executeStopped hhook =>
    refine running_of_hook hhook ?_ rfl
    change 7 + GrpcOp.ranks o.ops < 8 + GrpcOp.ranks o.ops
    omega
  | @finish tag status hhook =>
    refine running_of_hook hhook ?_ rfl
    change 2 + GrpcOp.ranks (o.ops ++ [_]) < 6 + GrpcOp.ranks o.ops
    rw [GrpcOp.ranks_append]
    simp only [GrpcOp.ranks, GrpcOp.rank]
    omega

theorem complete_running {op : GrpcOp} {ok : Bool} {server : Nat → GrpcServer}
    (hop : op ∈ o.ops) (hready : op.ready = none) :
    running { o.complete op ok with server := server } < o.running := by
  have herase := GrpcOp.ranks_erase hop
  have hlower : GrpcOp.rank { op with ready := some ok } + 1 = op.rank := GrpcOp.rank_ready hready
  unfold running GrpcWorker.complete
  simp only [GrpcOp.ranks]
  omega

theorem grpc_running {a : GrpcAction C} (h : o.grpc a = some o') : o'.running < o.running := by
  cases a with
  | receive op =>
    simp only [GrpcWorker.grpc, Option.ite_none_right_eq_some, Option.some.injEq] at h
    obtain ⟨⟨hop, -, hready, -⟩, rfl⟩ := h
    exact complete_running hop hready
  | failRequest op =>
    simp only [GrpcWorker.grpc, Option.ite_none_right_eq_some, Option.some.injEq] at h
    obtain ⟨⟨hop, -, hready, -⟩, rfl⟩ := h
    have hlower : running { o.complete op false with server := o.server } < o.running :=
      complete_running hop hready
    exact hlower
  | finished op ok =>
    simp only [GrpcWorker.grpc, Option.ite_none_right_eq_some, Option.some.injEq] at h
    obtain ⟨⟨hop, -, hready⟩, rfl⟩ := h
    exact complete_running hop hready
  | _ => cases h

theorem stopTriggered_lower {a : GrpcAction C} (hbusy : ∀ c, o.stop c ≠ .idle → c ∈ busy)
    (h : o.stopTriggered a = some o') : o'.places busy < o.places busy := by
  have hhook := stopTriggered_hook h
  have hdtor := stopTriggered_destructor h
  obtain ⟨⟨hops, hcall, -⟩, -⟩ := stopTriggered_same h
  obtain ⟨c, p, hmove, hstop⟩ := stopMove_of_stopTriggered h
  have hlower : o.stop c ≠ .idle ∧ p.rank < (o.stop c).rank := by
    generalize o.stop c = q at hmove
    cases hmove <;> exact ⟨by simp, by simp [GrpcStop.rank]⟩
  have hsum := sum_add_of_frame (f := fun d => (o.stop d).rank)
    (g := fun d => (o'.stop d).rank) (hbusy c hlower.1) fun d hd => by
      rw [hstop, Function.update_of_ne hd]
  have hself : o'.stop c = p := by rw [hstop, Function.update_self]
  simp only [hself] at hsum
  unfold places running
  rw [hhook, hops, hcall, hdtor]
  omega

theorem destroy_running {a : GrpcAction C} (h : destroy s o a = some o') :
    o'.running < o.running := by
  obtain ⟨⟨hops, hcall, -⟩, -⟩ := destroy_same h
  have hlower : o'.destructor.rank < o.destructor.rank := by
    cases a <;> simp only [GrpcWorker.destroy] at h <;> grind -linarith [GrpcDestructor.rank]
  unfold running
  rw [destroy_hook h, hops, hcall]
  omega

theorem own_lower {a : GrpcAction C} (hown : Owned o) (hflag : s.stopRequested = true)
    (hbusy : ∀ c, o.stop c ≠ .idle → c ∈ busy) (ha : a ≠ .timeout) (h : own s o a = some o') :
    o'.places busy < o.places busy := by
  rcases own_cases h with h | h | h | h | h
  · exact places_lower (preRun_running h) (preRun_same h).1
  · exact places_lower (run_running hown hflag ha h) (run_sameOutside h).stop
  · exact places_lower (grpc_running h) (grpc_sameOutside h).stop
  · exact stopTriggered_lower hbusy h
  · exact places_lower (destroy_running h) (destroy_stop h)

theorem own_timeout (h : own s o .timeout = some o') : o' = o := by
  rcases own_cases h with h | h | h | h | h
  · cases h
  · cases runStep_of_run h
    rfl
  · cases h
  · cases h
  · cases h

/-! ## The worker -/

/-- A call that comes from outside of the object, or begins its destructor. -/
def outside : GrpcCaller C → Call → Bool
  | .user _, _ | .destructor, .stopThread _ => true
  | _, _ => false

/-- No thread outside of the object makes a call, and no destructor begins. -/
def Inner (_ : Object (GrpcCaller C) (GrpcWorker C))
    (a : ObjectAction (GrpcCaller C) (GrpcAction C)) : Prop :=
  a.among outside (fun _ => false) = false

instance (s : Object (GrpcCaller C) (GrpcWorker C))
    (a : ObjectAction (GrpcCaller C) (GrpcAction C)) : Decidable (Inner s a) :=
  inferInstanceAs (Decidable (_ = false))

/-- `AsyncNext` runs into its deadline, or `OnExecuteRpc` calls `requestStop`. -/
def back : ObjectAction (GrpcCaller C) (GrpcAction C) → Bool
  | .own .timeout | .base (.call .run _) => true
  | _ => false

variable (busy) in
/-- A call inside the object launches no run. That of the destructor takes it out of a place that
is worth a call. -/
theorem inner_call {c : GrpcCaller C} {k : Call} (hin : Inner ⟨s, o⟩ (.base (.call c k)))
    (h : o.calls c k = some o') : k.isStart = false ∧
      ((c = .run ∧ o'.places busy = o.places busy + 1) ∨
        (c = .destructor ∧ o'.places busy + 182 < o.places busy)) := by
  cases c with
  | user c => cases hin
  | run =>
    simp only [calls] at h
    split at h
    · rename_i tag hhook
      simp only [Option.ite_none_right_eq_some, Option.some.injEq] at h
      obtain ⟨rfl, rfl⟩ := h
      refine ⟨rfl, .inl ⟨rfl, ?_⟩⟩
      unfold places running setHook
      rw [hhook]
      simp only [GrpcHook.rank]
      omega
    · cases h
  | destructor =>
    simp only [calls] at h
    split at h
    · simp only [Option.ite_none_right_eq_some] at h
      obtain ⟨rfl, -⟩ := h
      cases hin
    · rename_i hdtor
      simp only [Option.ite_none_right_eq_some, Option.some.injEq] at h
      obtain ⟨rfl, rfl⟩ := h
      refine ⟨rfl, .inr ⟨rfl, ?_⟩⟩
      unfold places running
      rw [hdtor]
      simp only [GrpcDestructor.rank]
      omega
    · cases h

theorem places_setStop {c : GrpcCaller C} {p : GrpcStop} (hc : c ∈ busy) :
    (o.setStop c p).places busy ≤ o.places busy + p.rank := by
  have hsum := sum_add_of_frame (f := fun d => (o.stop d).rank)
    (g := fun d => ((o.setStop c p).stop d).rank) hc fun d hd => by rw [setStop_stop_ne hd]
  have hself : (o.setStop c p).stop c = p := Function.update_self _ _ _
  simp only [hself] at hsum
  unfold places running
  change o.hook.rank _ + _ + _ + _ ≤ _
  simp only [setStop] at hsum ⊢
  omega

/-- A step of the worker leads into one hook at most. -/
theorem sync_places {a : BaseAction (GrpcCaller C)} (ha : a.isCall = false)
    (hmem : ∀ c, BaseWorker.actingCaller a = some c → c ∈ busy) (hy : sync s a o = some o') :
    o'.places busy ≤ o.places busy + 12 := by
  cases a with
  | call => cases ha
  | preRunBegin r | setRunning r =>
    obtain rfl := Option.some.inj hy
    unfold places running setHook
    simp only [GrpcHook.rank]
    omega
  | preRunEnd r e | runEnd r e =>
    simp only [GrpcWorker.sync, Option.ite_none_right_eq_some, Option.some.injEq] at hy
    obtain ⟨-, rfl⟩ := hy
    unfold places running setHook
    simp only [GrpcHook.rank]
    omega
  | stopSection c =>
    obtain rfl := Option.some.inj hy
    split
    · refine (places_setStop (hmem c rfl)).trans ?_
      split <;> simp [GrpcStop.rank]
    · omega
  | stopTriggeredEnd c =>
    simp only [GrpcWorker.sync, Option.ite_none_right_eq_some, Option.some.injEq] at hy
    obtain ⟨-, rfl⟩ := hy
    exact (places_setStop (hmem c rfl)).trans (by simp [GrpcStop.rank])
  | _ =>
    obtain rfl := Option.some.inj hy
    omega

/-! ## Runs behind a stop -/

/-- What holds behind a stop, while the members of `busy` are the only threads inside member
functions. -/
structure Leaving (busy : Finset (GrpcCaller C)) (x : Object (GrpcCaller C) (GrpcWorker C)) :
    Prop where
  shutting : (cGenericGrpcWorker C).ShuttingDown busy x
  closing : Closing x.base x.ext

section Run
variable {x y : Object (GrpcCaller C) (GrpcWorker C)}
  {a : ObjectAction (GrpcCaller C) (GrpcAction C)}

theorem Leaving.busy_of_stop (hx : Leaving busy x) {c : GrpcCaller C} (hc : x.ext.stop c ≠ .idle) :
    c ∈ busy := by
  obtain ⟨k, hk⟩ := (stop_iff_of_reachable hx.shutting.reachable c).mp hc
  exact hx.shutting.busy_of_stopTriggered hk

/-- Who makes a call inside the object is counted, and starts no run. -/
theorem mem_of_call (hown : {.run, .destructor} ⊆ busy) (hin : Inner x a)
    (h : (cGenericGrpcWorker C).system.step x a = some y) {c : GrpcCaller C} {k : Call}
    (hact : a = .base (.call c k)) : c ∈ busy ∧ k.isStart = false := by
  subst hact
  have hcalls : x.ext.calls c k = some y.ext := (Derived.step_base.mp h).2
  obtain ⟨hk, hc⟩ := inner_call busy hin hcalls
  refine ⟨hown ?_, hk⟩
  rcases hc with ⟨rfl, -⟩ | ⟨rfl, -⟩ <;> simp

theorem Leaving.step (hown : {.run, .destructor} ⊆ busy) (hx : Leaving busy x) (hin : Inner x a)
    (h : (cGenericGrpcWorker C).system.step x a = some y) : Leaving busy y where
  shutting := hx.shutting.step (fun _ _ => mem_of_call hown hin h) h
  closing := by
    refine hx.closing.step hx.shutting.reachable (fun hclear => ?_) h
    rw [hx.shutting.stopping.requested] at hclear
    cases hclear

theorem Leaving.rank_le (hown : {.run, .destructor} ⊆ busy) (hx : Leaving busy x)
    (hin : Inner x a) (h : (cGenericGrpcWorker C).system.step x a = some y) :
    rank busy y.base y.ext ≤ rank busy x.base x.ext + 183 ∧
      (back a = false → rank busy y.base y.ext < rank busy x.base x.ext) := by
  cases a with
  | own a =>
    obtain ⟨hb, hy⟩ := Derived.step_own.mp h
    unfold rank
    rw [hb]
    by_cases ha : a = .timeout
    · subst ha
      have hsame : y.ext = x.ext := own_timeout hy
      rw [hsame]
      exact ⟨by omega, fun hback => by cases hback⟩
    · have hlower := own_lower (owned_of_reachable hx.shutting.reachable)
        hx.shutting.stopping.requested (fun c hc => hx.busy_of_stop hc) ha hy
      exact ⟨by omega, fun _ => by omega⟩
  | base a =>
    obtain ⟨hb, hy⟩ := Derived.step_base.mp h
    unfold rank
    cases hcall : a.isCall with
    | false =>
      have hmem : ∀ c, BaseWorker.actingCaller a = some c → c ∈ busy := fun c hact =>
        hx.shutting.settling.busy_of_acting hcall hact hb
      have hbase := hx.shutting.settling.rank_lt hcall hb
      have hplaces := sync_places hcall hmem hy
      exact ⟨by omega, fun _ => by omega⟩
    | true =>
      obtain ⟨c, k, rfl⟩ : ∃ c k, a = .call c k := by
        cases a <;> first | exact ⟨_, _, rfl⟩ | cases hcall
      have hcalls : x.ext.calls c k = some y.ext := hy
      have hbase := BaseWorker.rank_call (mem_of_call hown hin h rfl).1 hb
      obtain ⟨-, ⟨rfl, hplaces⟩ | ⟨rfl, hplaces⟩⟩ := inner_call busy hin hcalls
      · exact ⟨by omega, fun hback => by cases hback⟩
      · exact ⟨by omega, fun _ => by omega⟩

theorem rankedBut (hown : {.run, .destructor} ⊆ busy) :
    RankedBut (cGenericGrpcWorker C).system Inner back 183 (Leaving busy)
      fun x => rank busy x.base x.ext where
  keeps _ _ _ hx hin h := hx.step hown hin h
  lowers _ _ _ hx hin hback h := (hx.rank_le hown hin h).2 hback
  raises _ _ _ hx hin _ h := (hx.rank_le hown hin h).1

end Run

end GrpcWorker

end ThreadComponent
