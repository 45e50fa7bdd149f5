import Mathlib.Data.List.Nodup
import ThreadComponent.HttpStartResolved
import ThreadComponent.TcpClientHelpers

/-!
# The helper threads of cHTTPServer_V2 and cHTTPSServer_V2

`processWork` keeps its helper threads in a member, and takes them out of it to join them. Where
creating one of them fails, those that are there stay in the member; a later run clears it, and the
destructor destroys it.
-/

set_option autoImplicit false
set_option linter.unusedSectionVars false

namespace ThreadComponent

open Transitions System Ownership

/-! ## The destructor -/

structure Destructible (O : Type) where
  server : O
  destroyed : Bool := false

inductive DestructorAction (C A : Type) where
  | member (a : A)
  | destroyMembers (c : C)
  deriving DecidableEq, Repr

namespace ServerV2
variable {C H : Type} [DecidableEq C]

/-- Behind the `stopThread` of the destructor the members are destroyed, whatever its result is. -/
def destroyMembers (x : ServerV2 C H) : ServerV2 C H :=
  { x with terminated := x.terminated || !x.mIoThreads.isEmpty }

variable (C) in
/-- The server with its destructor. What a run may still do behind it is left out. -/
def destructible (kind : HttpKind) (h : Option H) :
    Derived (HttpCaller C) (Destructible (HttpServer (HttpCaller C) (ServerV2 C H)))
      (DestructorAction C (HttpAction (HttpCaller C) (ServerActionV2 C))) where
  init := { server := (body kind h).derived.init }
  sync s a o :=
    if o.destroyed then none
    else ((body kind h).derived.sync s a o.server).map fun server => { o with server := server }
  own s o
    | .member a =>
      if o.destroyed then none
      else ((body kind h).derived.own s o.server a).map fun server => { o with server := server }
    | .destroyMembers c =>
      match o.destroyed, s.caller (.user c) with
      | false, .returned (.stopThread true) _ =>
        some ⟨{ o.server with body := o.server.body.destroyMembers }, true⟩
      | _, _ => none

/-! ## The history of the threads -/

def nextThreads (x : ServerV2 C H) (n : Nat) : List Nat := (List.range n).map (x.entered + ·)

/-- The helper threads that a step of `processWork` creates or joins. -/
def noteThreads (x : ServerV2 C H) : ServerActionV2 C → Ledger Nat → Ledger Nat
  | .createThreads, l => l.acquire (x.nextThreads (x.mIoThreadCount - 1))
  | .createThreadsFails created _, l => l.acquire (x.nextThreads created)
  | .joinThread, l =>
    match x.hook with
    | .joining (i :: _) => l.release i
    | _ => l
  | _, l => l

abbrev ServerObject (C H : Type) :=
  Object (HttpCaller C) (Destructible (HttpServer (HttpCaller C) (ServerV2 C H)))

abbrev ServerObjectAction (C : Type) := ObjectAction (HttpCaller C)
  (DestructorAction C (HttpAction (HttpCaller C) (ServerActionV2 C)))

def noteHelper (s : ServerObject C H) : ServerObjectAction C → Ledger Nat → Ledger Nat
  | .own (.member (.body a)), l => s.ext.server.body.noteThreads a l
  | _, l => l

variable (C) in
def helperHistory (kind : HttpKind) (h : Option H) :
    System (ServerObject C H × Ledger Nat) (ServerObjectAction C) :=
  (destructible C kind h).system.withHistory {} noteHelper

/-- Creating a helper thread fails for the first one only, and the `stopThread` of the destructor
does not give up on `run`. -/
def CreatesAllOrNone (s : ServerObject C H) : ServerObjectAction C → Prop
  | .own (.member (.body (.createThreadsFails created _))) => created = 0
  | .own (.destroyMembers _) => s.base.current ≠ .run
  | _ => True

def RunLeft (s : ServerObject C H) : Prop :=
  s.base.current ≠ .run ∨ ∃ e, s.ext.server.body.hook = .runDone e

/-- The threads that have not been joined yet: those in the member, or in the local of
`processWork`. -/
def unjoined (x : ServerV2 C H) : List Nat :=
  match x.hook with
  | .runIo _ => x.mIoThreads
  | .joining threads => threads
  | _ => []

structure Threads (x : ServerV2 C H) (l : Ledger Nat) : Prop where
  safe : x.terminated = false
  balanced : l.Balanced x.unjoined
  fresh : ∀ i ∈ l.acquired, i < x.entered
  empty : (∀ i, x.hook ≠ .runIo i) → x.mIoThreads = []

/-- Is the place neither between creation and swap nor in the join loop? -/
def Calm : ServerHookV2 → Bool
  | .runIo _ | .joining _ => false
  | _ => true

variable {kind : HttpKind} {h : Option H} {s : BaseWorker (HttpCaller C)} {x y : ServerV2 C H}
  {l : Ledger Nat}

theorem unjoined_of_calm (hcalm : Calm x.hook = true) : x.unjoined = [] := by
  unfold unjoined
  cases hhook : x.hook <;> first
    | rfl
    | (rw [hhook] at hcalm; cases hcalm)

theorem Threads.empty_of_calm (hx : Threads x l) (hcalm : Calm x.hook = true) :
    x.mIoThreads = [] := by
  refine hx.empty fun i hhook => ?_
  rw [hhook] at hcalm
  cases hcalm

theorem Threads.balanced_at (hx : Threads x l) {threads : List Nat}
    (hthreads : x.unjoined = threads) : l.Balanced threads := hthreads ▸ hx.balanced

theorem Threads.of_same (hx : Threads x l) (hterminated : y.terminated = x.terminated)
    (hthreads : y.mIoThreads = x.mIoThreads) (hentered : y.entered = x.entered)
    (hhook : y.hook = x.hook ∨ (Calm x.hook = true ∧ Calm y.hook = true)) : Threads y l := by
  rcases hhook with hsame | ⟨hold, hnew⟩
  · have hunjoined : y.unjoined = x.unjoined := by
      unfold unjoined
      rw [hsame, hthreads]
    exact ⟨hterminated ▸ hx.safe, hunjoined ▸ hx.balanced, hentered ▸ hx.fresh,
      fun hnot => hthreads ▸ hx.empty (hsame ▸ hnot)⟩
  · have hunjoined : y.unjoined = x.unjoined := by
      rw [unjoined_of_calm hold, unjoined_of_calm hnew]
    exact ⟨hterminated ▸ hx.safe, hunjoined ▸ hx.balanced, hentered ▸ hx.fresh,
      fun _ => hthreads ▸ hx.empty_of_calm hold⟩

/-! ## The steps of processWork -/

theorem nextThreads_nodup (x : ServerV2 C H) (n : Nat) : (x.nextThreads n).Nodup :=
  List.Nodup.map (fun _ _ heq => Nat.add_left_cancel heq) List.nodup_range

theorem mem_nextThreads {n i : Nat} :
    i ∈ x.nextThreads n ↔ x.entered ≤ i ∧ i < x.entered + n := by
  unfold nextThreads
  simp only [List.mem_map, List.mem_range]
  constructor
  · rintro ⟨k, hk, rfl⟩
    omega
  · rintro ⟨hle, hlt⟩
    exact ⟨i - x.entered, by omega, by omega⟩

/-- The threads are created where nothing is left of an earlier run. -/
theorem Threads.create (hx : Threads x l) {n m : Nat} (hcalm : Calm x.hook = true)
    (hterminated : y.terminated = (x.terminated || !x.mIoThreads.isEmpty))
    (hunjoined : y.unjoined = x.nextThreads n) (hentered : y.entered = x.entered + n + m)
    (hempty : (∀ i, y.hook ≠ .runIo i) → y.mIoThreads = []) :
    Threads y (l.acquire (x.nextThreads n)) := by
  refine ⟨?_, ?_, fun i hi => ?_, hempty⟩
  · rw [hterminated, hx.safe, hx.empty_of_calm hcalm]
    rfl
  · rw [hunjoined, ← List.nil_append (x.nextThreads n)]
    refine (hx.balanced_at (unjoined_of_calm hcalm)).acquire (nextThreads_nodup x n)
      fun i hi hmem => ?_
    have hlt := hx.fresh i hmem
    have hle := (mem_nextThreads.mp hi).1
    omega
  · rcases List.mem_append.mp hi with hi | hi
    · have hlt := hx.fresh i hi
      omega
    · have hlt := (mem_nextThreads.mp hi).2
      omega

theorem Threads.swap (hx : Threads x l) {i : Nat} (hhook : x.hook = .runIo i) :
    Threads { x with mIoThreads := [], hook := .joining x.mIoThreads } l := by
  have hthreads : x.unjoined = x.mIoThreads := by rw [unjoined, hhook]
  exact ⟨hx.safe, hx.balanced_at hthreads, hx.fresh, fun _ => rfl⟩

theorem Threads.empty_of_joining (hx : Threads x l) {threads : List Nat}
    (hhook : x.hook = .joining threads) : x.mIoThreads = [] := by
  refine hx.empty fun i hi => ?_
  rw [hhook] at hi
  cases hi

theorem Threads.join (hx : Threads x l) {i : Nat} {threads : List Nat}
    (hhook : x.hook = .joining (i :: threads)) :
    Threads (x.setHook (.joining threads)) (x.noteThreads .joinThread l) := by
  have hthreads : x.unjoined = i :: threads := by rw [unjoined, hhook]
  have hnote : x.noteThreads .joinThread l = l.release i := by rw [noteThreads, hhook]
  rw [hnote]
  exact ⟨hx.safe, (hx.balanced_at hthreads).release, hx.fresh,
    fun _ => hx.empty_of_joining hhook⟩

/-- The loop over the helper threads is left where none is left to join. -/
theorem Threads.joined (hx : Threads x l) (hhook : x.hook = .joining []) :
    Threads (x.setHook .resolveExited) (x.noteThreads .joinThread l) := by
  have hthreads : x.unjoined = [] := by rw [unjoined, hhook]
  have hnote : x.noteThreads .joinThread l = l := by rw [noteThreads, hhook]
  rw [hnote]
  exact ⟨hx.safe, hx.balanced_at hthreads, hx.fresh, fun _ => hx.empty_of_joining hhook⟩

def Moving : ServerActionV2 C → Prop
  | .createThreads | .createThreadsFails _ _ | .swapThreads | .joinThread => True
  | _ => False

theorem own_of_not_moving {a : ServerActionV2 C} {e : Option StartEvent} (ha : ¬ Moving a)
    (hs : own kind s x a = some (y, e)) :
    y.terminated = x.terminated ∧ y.mIoThreads = x.mIoThreads ∧ y.entered = x.entered ∧
      (y.hook = x.hook ∨ (Calm x.hook = true ∧ Calm y.hook = true)) := by
  cases a <;> simp only [own, Moving, not_true_eq_false] at hs ha <;>
    grind -linarith [Calm, setHook, setIo, setStop, install, cleanUp, runFails]

theorem noteThreads_of_not_moving {a : ServerActionV2 C} (ha : ¬ Moving a) :
    x.noteThreads a l = l := by
  cases a <;> first | rfl | exact absurd trivial ha

theorem Threads.own {a : ServerActionV2 C} {e : Option StartEvent} (hx : Threads x l)
    (hok : ∀ created f, a = .createThreadsFails created f → created = 0)
    (hs : own kind s x a = some (y, e)) : Threads y (x.noteThreads a l) := by
  by_cases ha : Moving a
  · cases a with
    | createThreads =>
      simp only [ServerV2.own] at hs
      split at hs
      · rename_i io hhook
        obtain ⟨rfl, -⟩ := Prod.mk.inj (Option.some.inj hs)
        refine hx.create (m := 1) (by rw [hhook]; rfl) rfl rfl rfl fun hnot => ?_
        exact absurd rfl (hnot _)
      · cases hs
    | createThreadsFails created f =>
      obtain rfl := hok created f rfl
      simp only [ServerV2.own] at hs
      split at hs
      · rename_i io hhook
        simp only [Option.ite_none_right_eq_some, Option.some.injEq, Prod.mk.injEq, runFails] at hs
        obtain ⟨-, rfl, -⟩ := hs
        exact hx.create (m := 0) (by rw [hhook]; rfl) rfl rfl rfl fun _ => rfl
      · cases hs
    | swapThreads =>
      simp only [ServerV2.own] at hs
      split at hs
      · rename_i i hhook
        simp only [Option.ite_none_right_eq_some, Option.some.injEq, Prod.mk.injEq] at hs
        obtain ⟨-, rfl, -⟩ := hs
        exact hx.swap hhook
      · cases hs
    | joinThread =>
      simp only [ServerV2.own] at hs
      split at hs
      · rename_i hhook
        obtain ⟨rfl, -⟩ := Prod.mk.inj (Option.some.inj hs)
        exact hx.joined hhook
      · rename_i i threads hhook
        simp only [Option.ite_none_right_eq_some, Option.some.injEq, Prod.mk.injEq] at hs
        obtain ⟨-, rfl, -⟩ := hs
        exact hx.join hhook
      · cases hs
    | _ => exact absurd ha id
  · obtain ⟨hterminated, hthreads, hentered, hhook⟩ := own_of_not_moving ha hs
    rw [noteThreads_of_not_moving ha]
    exact hx.of_same hterminated hthreads hentered hhook

theorem sync_same {t : BaseWorker (HttpCaller C)} {a : BaseAction (HttpCaller C)}
    (hat : hookHome x.hook = s.current.hookHome) (hmoves : BaseWorker.Moves s a t)
    (hs : ServerV2.sync s a x = some y) :
    y.terminated = x.terminated ∧ y.mIoThreads = x.mIoThreads ∧ y.entered = x.entered ∧
      (y.hook = x.hook ∨ (Calm x.hook = true ∧ Calm y.hook = true)) := by
  have hcalm : hookHome x.hook = none → Calm x.hook = true := by
    intro hhome
    cases hhook : x.hook <;> first
      | rfl
      | (rw [hhook] at hhome; cases hhome)
  cases a with
  | call c k => cases c <;> simp only [ServerV2.sync] at hs <;> grind -linarith [setIo]
  | preRunBegin r =>
    obtain rfl := Option.some.inj hs
    cases hmoves with
    | rest hact => cases hact
    | preRunBegin _ hfrom =>
      rw [hfrom] at hat
      exact ⟨rfl, rfl, rfl, .inr ⟨hcalm hat, rfl⟩⟩
  | setRunning r =>
    obtain rfl := Option.some.inj hs
    cases hmoves with
    | rest hact => cases hact
    | setRunning _ hfrom =>
      rw [hfrom] at hat
      exact ⟨rfl, rfl, rfl, .inr ⟨hcalm hat, rfl⟩⟩
  | _ =>
    simp only [ServerV2.sync] at hs
    grind -linarith [setHook, setStop, Calm]

/-! ## Runs -/

variable {o o' : Destructible (HttpServer (HttpCaller C) (ServerV2 C H))}

theorem sync_of_destructible {a : BaseAction (HttpCaller C)}
    (hs : (destructible C kind h).sync s a o = some o') :
    ServerV2.sync s a o.server.body = some o'.server.body := by
  simp only [destructible] at hs
  split at hs
  · cases hs
  · obtain ⟨server, hserver, rfl⟩ := Option.map_eq_some_iff.mp hs
    exact HttpBody.sync_of_derived hserver

/-- A step of the object is one of its body, one of a caller in `startThread` or the destruction
of the members. -/
theorem own_of_destructible {a : DestructorAction C (HttpAction (HttpCaller C) (ServerActionV2 C))}
    (hs : (destructible C kind h).own s o a = some o') :
    (∃ b e, a = .member (.body b) ∧ own kind s o.server.body b = some (o'.server.body, e)) ∨
      ((∀ b, a ≠ .member (.body b)) ∧ o'.server.body = o.server.body) ∨
        ∃ c, a = .destroyMembers c ∧ o'.server.body = o.server.body.destroyMembers := by
  cases a with
  | member a =>
    simp only [destructible] at hs
    split at hs
    · cases hs
    · obtain ⟨server, hserver, rfl⟩ := Option.map_eq_some_iff.mp hs
      cases a with
      | body b =>
        simp only [HttpBody.derived, Option.map_eq_some_iff] at hserver
        obtain ⟨⟨x, e⟩, hx, rfl⟩ := hserver
        exact .inl ⟨b, e, rfl, hx⟩
      | _ =>
        refine .inr (.inl ⟨by simp, ?_⟩)
        simp only [HttpBody.derived] at hserver
        grind -linarith [HttpServer.setStarter]
  | destroyMembers c =>
    refine .inr (.inr ⟨c, rfl, ?_⟩)
    simp only [destructible] at hs
    split at hs
    · obtain rfl := Option.some.inj hs
      rfl
    · cases hs

theorem hookHome_of_reachable {ok : ServerObject C H → ServerObjectAction C → Prop}
    {s : ServerObject C H} (hr : (destructible C kind h).system.ReachableBy ok s) :
    hookHome s.ext.server.body.hook = s.base.current.hookHome := by
  refine Derived.hookHome_of_reachable
    (fun o : Destructible (HttpServer (HttpCaller C) (ServerV2 C H)) =>
      hookHome o.server.body.hook) rfl
    (fun hs => sync_home (sync_of_destructible hs)) (fun hs => ?_) hr
  rcases own_of_destructible hs with ⟨b, e, -, hb⟩ | ⟨-, hsame⟩ | ⟨c, -, hdestroyed⟩
  · exact own_home hb
  · rw [hsame]
  · rw [hdestroyed]
    rfl

theorem calm_of_not_run {p : RunnerPc} (hat : hookHome x.hook = p.hookHome) (hrun : p ≠ .run) :
    Calm x.hook = true := by
  cases hhook : x.hook <;> first
    | rfl
    | (rw [hhook] at hat; exact absurd (RunnerPc.of_hookHome hat.symm) hrun)

theorem threads_of_reachable {y : ServerObject C H × Ledger Nat}
    (hr : (helperHistory C kind h).ReachableBy (Present CreatesAllOrNone) y) :
    Threads y.1.ext.server.body y.2 := by
  refine ReachableBy.related (R := fun s l => Threads s.ext.server.body l) ?_ ?_ hr
  · refine ⟨rfl, Ledger.balanced_empty, fun i hi => ?_, fun _ => rfl⟩
    cases hi
  · intro s a t l hr hx hok hs
    have hat := hookHome_of_reachable hr
    cases a with
    | base a =>
      obtain ⟨hb, hy⟩ := Derived.step_base.mp hs
      obtain ⟨hi, hu⟩ := Derived.inherits hr
      obtain ⟨hterminated, hthreads, hentered, hhook⟩ :=
        sync_same hat (BaseWorker.moves_of_step hi hu hb) (sync_of_destructible hy)
      exact hx.of_same hterminated hthreads hentered hhook
    | own a =>
      rcases own_of_destructible (Derived.step_own.mp hs).2 with
        ⟨b, e, rfl, hb⟩ | ⟨hother, hsame⟩ | ⟨c, rfl, hdestroyed⟩
      · refine hx.own (fun created f he => ?_) hb
        subst he
        exact hok
      · have hnote : noteHelper s (.own a) l = l := by
          unfold noteHelper
          split
          · rename_i b heq
            exact absurd (ObjectAction.own.inj heq) (hother b)
          · rfl
        rw [hsame, hnote]
        exact hx
      · -- no thread is left in the member where the thread of the worker has left `run`
        have hempty := hx.empty_of_calm (calm_of_not_run hat hok)
        rw [hdestroyed]
        refine hx.of_same ?_ rfl rfl (.inl rfl)
        simp [destroyMembers, hempty]

theorem calm_of_runLeft {s : ServerObject C H}
    (hat : hookHome s.ext.server.body.hook = s.base.current.hookHome) (hleft : RunLeft s) :
    Calm s.ext.server.body.hook = true := by
  rcases hleft with hrun | ⟨e, hdone⟩
  · exact calm_of_not_run hat hrun
  · rw [hdone]
    rfl

theorem helpersJoined_of_reachable {y : ServerObject C H × Ledger Nat}
    (hr : (helperHistory C kind h).ReachableBy (Present CreatesAllOrNone) y) :
    HelpersJoined y.1.ext.server.body.terminated (RunLeft y.1) y.2 :=
  .of_balanced (threads_of_reachable hr).safe (threads_of_reachable hr).balanced fun hleft =>
    unjoined_of_calm (calm_of_runLeft (hookHome_of_reachable hr.present) hleft)

end ServerV2

end ThreadComponent
