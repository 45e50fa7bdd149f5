import ThreadComponent.GrpcQueues
import ThreadComponent.History

/-!
# cGenericGrpcWorker over several runs

The service lives as long as the worker, and every `preRun` registers it with a server of its
own. The port is stored once a run has a server, and nobody takes it back when the run ends.
-/

set_option autoImplicit false
set_option linter.unusedSectionVars false

namespace ThreadComponent

open Transitions System

def BuildResult.next : BuildResult → GrpcHook
  | .started selectedPort => .storePort selectedPort
  | _ => .preRunDone (.value false)

/-- From the new queue of an attempt up to the end of `preRun`. -/
def GrpcHook.building : GrpcHook → Bool
  | .buildAndStart | .storePort _ | .preRunDone (.value true) => true
  | _ => false

theorem GrpcHook.not_building_of_run {hook : GrpcHook} (h : hook.home = some .run) :
    hook.building = false := by
  cases hook with
  | preRunDone e => cases e <;> cases h
  | _ => first | rfl | cases h

theorem GrpcHook.same_of_building {hook hook' : GrpcHook}
    (h : hook' = hook ∨ hook'.building = false) (hb : hook'.building = true) : hook = hook' :=
  (h.resolve_right (by simp [hb])).symm

/-- The steps of `preRun` behind the builder, as far as they succeed. -/
def GrpcAction.attempting {C : Type} : GrpcAction C → Bool
  | .addCompletionQueue none | .buildAndStart _ | .storePort => true
  | _ => false

namespace GrpcWorker
variable {C : Type} [DecidableEq C] {s t : BaseWorker (GrpcCaller C)} {o o' : GrpcWorker C}

def boundPort (o : GrpcWorker C) : Nat := o.mBoundPort

/-- How a step of the members moves an attempt to get a server. -/
inductive Attempts (o : GrpcWorker C) : GrpcAction C → GrpcWorker C → Prop where
  | queue {o' : GrpcWorker C} (hfrom : o.hook = .addCompletionQueue)
      (hto : o'.hook = .buildAndStart) (hqueues : o'.queues = o.queues + 1)
      (hport : o'.boundPort = o.boundPort) : Attempts o (.addCompletionQueue none) o'
  | build (r : BuildResult) {o' : GrpcWorker C} (hfrom : o.hook = .buildAndStart)
      (hto : o'.hook = r.next) (hqueues : o'.queues = o.queues)
      (hport : o'.boundPort = o.boundPort)
      (hserver : ∀ p, r = .started p → o'.mServer = some o.latest) :
      Attempts o (.buildAndStart r) o'
  | store (p : Nat) {o' : GrpcWorker C} (hfrom : o.hook = .storePort p)
      (hto : o'.hook = .preRunDone (.value true)) (hqueues : o'.queues = o.queues)
      (hport : o'.boundPort = p) (hserver : o'.mServer = o.mServer) : Attempts o .storePort o'
  | rest {a : GrpcAction C} {o' : GrpcWorker C} (hact : a.attempting = false)
      (hhook : o'.hook = o.hook ∨ (o.hook.building = false ∧ o'.hook.building = false))
      (hqueues : o'.queues = o.queues) (hport : o'.boundPort = o.boundPort)
      (hserver : ∀ i, o'.mServer = some i → o.mServer = some i) : Attempts o a o'

theorem destroyQueue_members : o.destroyQueue.queues = o.queues ∧
    o.destroyQueue.mBoundPort = o.mBoundPort ∧ o.destroyQueue.mServer = o.mServer := by
  unfold GrpcWorker.destroyQueue
  split <;> exact ⟨rfl, rfl, rfl⟩

theorem destroyServer_members : o.destroyServer.queues = o.queues ∧
    o.destroyServer.mBoundPort = o.mBoundPort ∧ o.destroyServer.mServer = none := by
  unfold GrpcWorker.destroyServer
  split
  · exact ⟨rfl, rfl, rfl⟩
  · rename_i hnone
    exact ⟨rfl, rfl, hnone⟩

theorem attempts_of_preRun {a : GrpcAction C} (h : o.preRun a = some o') : Attempts o a o' := by
  cases a with
  | builder failure =>
    simp only [GrpcWorker.preRun, Option.ite_none_right_eq_some, Option.some.injEq] at h
    obtain ⟨hhook, rfl⟩ := h
    refine .rest rfl (.inr ⟨by rw [hhook]; rfl, ?_⟩) ?_ ?_ ?_ <;> cases failure <;>
      first | rfl | exact fun _ => id
  | addCompletionQueue failure =>
    simp only [GrpcWorker.preRun, Option.ite_none_right_eq_some, Option.some.injEq] at h
    obtain ⟨hhook, rfl⟩ := h
    cases failure with
    | none => exact .queue hhook rfl rfl destroyQueue_members.2.1
    | some e => exact .rest rfl (.inr ⟨by rw [hhook]; rfl, rfl⟩) rfl rfl fun _ => id
  | buildAndStart r =>
    simp only [GrpcWorker.preRun, Option.ite_none_right_eq_some, Option.some.injEq] at h
    obtain ⟨hhook, rfl⟩ := h
    obtain ⟨hqueues, hport, -⟩ := destroyServer_members (o := o)
    cases r with
    | started p => exact .build _ hhook rfl hqueues hport fun _ _ => rfl
    | null => exact .build _ hhook rfl hqueues hport (fun _ h => by cases h)
    | threw e => exact .build _ hhook rfl rfl rfl (fun _ h => by cases h)
  | storePort =>
    simp only [GrpcWorker.preRun] at h
    split at h
    · rename_i p hhook
      obtain rfl := Option.some.inj h
      exact .store p hhook rfl rfl rfl rfl
    · cases h
  | _ => cases h

theorem stopTriggered_members {a : GrpcAction C} (h : o.stopTriggered a = some o') :
    o'.queues = o.queues ∧ o'.mBoundPort = o.mBoundPort ∧ o'.mServer = o.mServer := by
  cases a <;> simp only [GrpcWorker.stopTriggered] at h <;>
    grind -linarith [setServer, setQueue, setStop]

theorem destroy_members {a : GrpcAction C} (h : destroy s o a = some o') :
    o'.queues = o.queues ∧ o'.mBoundPort = o.mBoundPort ∧
      ∀ i, o'.mServer = some i → o.mServer = some i := by
  have hqueue := destroyQueue_members (o := o)
  have hserver := destroyServer_members (o := o)
  cases a <;> simp only [GrpcWorker.destroy] at h <;> grind -linarith

theorem attempting_of_preRun {a : GrpcAction C} (ha : a.attempting = true)
    (h : own s o a = some o') : o.preRun a = some o' := by
  rcases own_cases h with h | h | h | h | h
  · exact h
  all_goals cases a <;> first | cases h | cases ha

theorem attempts_of_own {a : GrpcAction C} (h : own s o a = some o') : Attempts o a o' := by
  cases ha : a.attempting
  · rcases own_cases h with h | h | h | h | h
    · exact attempts_of_preRun h
    · have hsame := run_sameOutside h
      obtain ⟨hold, hnew⟩ := run_home h
      exact .rest ha (.inr ⟨GrpcHook.not_building_of_run hold,
        GrpcHook.not_building_of_run hnew⟩) hsame.queues hsame.mBoundPort
        fun i hi => hsame.mServer ▸ hi
    · have hsame := grpc_sameOutside h
      exact .rest ha (.inl (grpc_hook h)) hsame.queues hsame.mBoundPort
        fun i hi => hsame.mServer ▸ hi
    · obtain ⟨hqueues, hport, hserver⟩ := stopTriggered_members h
      exact .rest ha (.inl (stopTriggered_hook h)) hqueues hport fun i hi => hserver ▸ hi
    · obtain ⟨hqueues, hport, hserver⟩ := destroy_members h
      exact .rest ha (.inl (destroy_hook h)) hqueues hport hserver
  · exact attempts_of_preRun (attempting_of_preRun ha h)

/-- The steps of the worker leave the server and the port alone, and they begin no attempt. -/
theorem sync_attempt {a : BaseAction (GrpcCaller C)} (h : sync s a o = some o') :
    o'.queues = o.queues ∧ o'.boundPort = o.boundPort ∧ o'.mServer = o.mServer ∧
      (o'.hook = o.hook ∨ o'.hook.building = false) := by
  cases a with
  | call c k =>
    simp only [GrpcWorker.sync] at h
    cases c <;> simp only [calls] at h <;> grind -linarith [setHook, boundPort, GrpcHook.building]
  | _ =>
    simp only [GrpcWorker.sync] at h
    grind -linarith [setHook, setStop, boundPort, GrpcHook.building]

/-! ## The registrations of the service -/

section Registrations
variable (registers : Nat → BuildResult → Bool)

/-- The servers that `m_asyncService` was registered with. `registers n r` says that
`BuildAndStart` has registered it when it ends its `n`th attempt so; an attempt that fails
may have done it or not. -/
def noteRegistered (s : Object (GrpcCaller C) (GrpcWorker C)) :
    ObjectAction (GrpcCaller C) (GrpcAction C) → List Nat → List Nat
  | .own (.buildAndStart r), servers =>
    if registers s.ext.latest r then servers ++ [s.ext.latest] else servers
  | _, servers => servers

variable (C) in
def registrationHistory :
    System (Object (GrpcCaller C) (GrpcWorker C) × List Nat)
      (ObjectAction (GrpcCaller C) (GrpcAction C)) :=
  (cGenericGrpcWorker C).system.withHistory [] (noteRegistered registers)

/-- `preRun` goes on to `BuildAndStart` only as long as no attempt has registered the
service. -/
def BuildsUnregistered (x : Object (GrpcCaller C) (GrpcWorker C) × List Nat) :
    ObjectAction (GrpcCaller C) (GrpcAction C) → Prop
  | .own (.addCompletionQueue none) => x.2 = []
  | _ => True

instance (x : Object (GrpcCaller C) (GrpcWorker C) × List Nat)
    (a : ObjectAction (GrpcCaller C) (GrpcAction C)) : Decidable (BuildsUnregistered x a) := by
  induction a using ObjectAction.casesOn with
  | base a => unfold BuildsUnregistered; infer_instance
  | own a =>
    induction a using GrpcAction.casesOn with
    | addCompletionQueue failure =>
      induction failure using Option.casesOn <;> (unfold BuildsUnregistered; infer_instance)
    | _ => unfold BuildsUnregistered; infer_instance

variable {registers}

theorem noteRegistered_of_rest {s : Object (GrpcCaller C) (GrpcWorker C)} {a : GrpcAction C}
    {servers : List Nat} (ha : a.attempting = false) :
    noteRegistered registers s (.own a) servers = servers := by
  cases a <;> first | rfl | cases ha

structure Registered (o : GrpcWorker C) (servers : List Nat) : Prop where
  numbered : ∀ i ∈ servers, i < o.queues
  fresh : o.hook = .buildAndStart → o.queues = o.latest + 1 ∧ ∀ i ∈ servers, i < o.latest
  sorted : servers.Pairwise (· < ·)

theorem Registered.of_same {servers : List Nat} (hx : Registered o servers)
    (hqueues : o'.queues = o.queues) (hhook : o'.hook = .buildAndStart → o.hook = .buildAndStart) :
    Registered o' servers := by
  have hlatest : o'.latest = o.latest := by rw [latest, latest, hqueues]
  refine ⟨fun i hi => hqueues ▸ hx.numbered i hi, fun hh => ?_, hx.sorted⟩
  rw [hqueues, hlatest]
  exact hx.fresh (hhook hh)

theorem Registered.own {s : Object (GrpcCaller C) (GrpcWorker C)} {a : GrpcAction C}
    {servers : List Nat} (hx : Registered s.ext servers) (h : Attempts s.ext a o') :
    Registered o' (noteRegistered registers s (.own a) servers) := by
  cases h with
  | queue hfrom hto hqueues =>
    have hlatest : o'.latest = s.ext.queues := by rw [latest, hqueues, Nat.add_sub_cancel]
    refine ⟨fun i hi => ?_, fun _ => ⟨by omega, fun i hi => ?_⟩, hx.sorted⟩
    · have := hx.numbered i hi
      omega
    · rw [hlatest]
      exact hx.numbered i hi
  | build r hfrom hto hqueues =>
    obtain ⟨hlatest, hless⟩ := hx.fresh hfrom
    have hne : o'.hook ≠ .buildAndStart := by
      rw [hto]
      cases r <;> simp [BuildResult.next]
    simp only [noteRegistered]
    split
    · refine ⟨fun i hi => ?_, fun hh => absurd hh hne, ?_⟩
      · rcases List.mem_append.mp hi with hi | hi
        · exact hqueues ▸ hx.numbered i hi
        · rw [List.mem_singleton.mp hi]
          omega
      · rw [List.pairwise_append]
        refine ⟨hx.sorted, List.pairwise_singleton _ _, fun i hi j hj => ?_⟩
        rw [List.mem_singleton.mp hj]
        exact hless i hi
    · exact hx.of_same hqueues fun hh => absurd hh hne
  | store p hfrom hto hqueues =>
    exact hx.of_same hqueues fun hh => by rw [hto] at hh; cases hh
  | rest hact hhook hqueues =>
    rw [noteRegistered_of_rest hact]
    refine hx.of_same hqueues fun hh => ?_
    exact (GrpcHook.same_of_building (hhook.imp_right And.right) (by rw [hh]; rfl)).trans hh

theorem registered_of_reachable {x : Object (GrpcCaller C) (GrpcWorker C) × List Nat}
    (hr : (registrationHistory C registers).Reachable x) : Registered x.1.ext x.2 := by
  refine Reachable.related (R := fun s servers => Registered s.ext servers)
    ⟨fun _ h => (by cases h), fun h => (by cases h), .nil⟩ (fun s a t servers _ hx hs => ?_) hr
  cases a with
  | own a => exact hx.own (attempts_of_own (Derived.step_own.mp hs).2)
  | base a =>
    obtain ⟨hqueues, -, -, hhook⟩ := sync_attempt (Derived.step_base.mp hs).2
    refine hx.of_same hqueues fun hh => ?_
    exact (GrpcHook.same_of_building hhook (by rw [hh]; rfl)).trans hh

theorem registered_once {x : Object (GrpcCaller C) (GrpcWorker C) × List Nat}
    (hr : (registrationHistory C registers).ReachableBy BuildsUnregistered x) :
    x.2.length ≤ 1 := by
  refine (ReachableBy.invariant (P := fun x : Object (GrpcCaller C) (GrpcWorker C) × List Nat =>
    (x.1.ext.hook = .buildAndStart → x.2 = []) ∧ x.2.length ≤ 1) ?_ ?_ hr).2
  · exact ⟨fun _ => rfl, Nat.zero_le _⟩
  · rintro x a y - ⟨hnone, hone⟩ hok hs
    obtain ⟨ht, hy⟩ := step_withHistory.mp hs
    rw [hy]
    cases a with
    | own a =>
      cases attempts_of_own (Derived.step_own.mp ht).2 with
      | queue =>
        have hx : x.2 = [] := hok
        exact ⟨fun _ => hx, hone⟩
      | build r hfrom hto =>
        have hne : y.1.ext.hook ≠ .buildAndStart := by
          rw [hto]
          cases r <;> simp [BuildResult.next]
        refine ⟨fun hh => absurd hh hne, ?_⟩
        simp only [noteRegistered, hnone hfrom]
        split <;> simp
      | store p hfrom hto =>
        refine ⟨fun hh => ?_, hone⟩
        rw [hto] at hh
        cases hh
      | rest hact hhook =>
        rw [noteRegistered_of_rest hact]
        refine ⟨fun hh => hnone ?_, hone⟩
        exact (GrpcHook.same_of_building (hhook.imp_right And.right) (by rw [hh]; rfl)).trans hh
    | base a =>
      obtain ⟨-, -, -, hhook⟩ := sync_attempt (Derived.step_base.mp ht).2
      refine ⟨fun hh => hnone ?_, hone⟩
      exact (GrpcHook.same_of_building hhook (by rw [hh]; rfl)).trans hh

/-- Behind a registration, the next one is with another server. -/
theorem registered_again {x y : Object (GrpcCaller C) (GrpcWorker C) × List Nat}
    {r : BuildResult} (hr : (registrationHistory C registers).Reachable x) (hx : x.2 ≠ [])
    (hregisters : registers x.1.ext.latest r = true)
    (hs : (registrationHistory C registers).step x (.own (.buildAndStart r)) = some y) :
    ∃ i ∈ y.2, ∃ j ∈ y.2, i ≠ j := by
  obtain ⟨ht, hy⟩ := step_withHistory.mp hs
  obtain ⟨i, hi⟩ := List.exists_mem_of_ne_nil _ hx
  have hfrom : x.1.ext.hook = .buildAndStart := by
    cases attempts_of_own (Derived.step_own.mp ht).2 with
    | build _ hfrom => exact hfrom
    | rest hact => cases hact
  have hless := ((registered_of_reachable hr).fresh hfrom).2 i hi
  rw [hy, noteRegistered, if_pos hregisters]
  exact ⟨i, List.mem_append_left _ hi, x.1.ext.latest, by simp, Nat.ne_of_lt hless⟩

/-- If `preRun` goes on to `BuildAndStart` only as long as no attempt before it has registered
the service, the service is registered with one server at most; the next attempt to register
it would be with a second server. -/
theorem service_registered_once (C : Type) [DecidableEq C]
    (registers : Nat → BuildResult → Bool) :
    (∀ x, (registrationHistory C registers).ReachableBy BuildsUnregistered x →
      x.2.length ≤ 1) ∧
    ∀ x y r, (registrationHistory C registers).Reachable x → x.2 ≠ [] →
      registers x.1.ext.latest r = true →
      (registrationHistory C registers).step x (.own (.buildAndStart r)) = some y →
        ∃ i ∈ y.2, ∃ j ∈ y.2, i ≠ j :=
  ⟨fun _ hr => registered_once hr, fun _ _ _ hr hx hregisters hs =>
    registered_again hr hx hregisters hs⟩

end Registrations

def endedSchedule : List (ObjectAction (GrpcCaller Bool) (GrpcAction Bool)) :=
  builtSchedule ++ receivedSchedule ++ processedSchedule ++ stoppedSchedule ++
    [.own .shutdown, .base (.stopTriggeredEnd (.user true)), .base (.runEnd 0 (.value true)),
      .base (.setStopped 0)]

def againSchedule : List (ObjectAction (GrpcCaller Bool) (GrpcAction Bool)) :=
  endedSchedule ++ [.base (.call (.user false) (.startThread true)),
    .base (.joinFinished (.user false)), .base (.joined (.user false)),
    .base (.startSection (.user false) true), .base (.preRunBegin 1), .own (.builder none),
    .own (.addCompletionQueue none)]

def startedSchedule : List (ObjectAction (GrpcCaller Bool) (GrpcAction Bool)) :=
  [.own (.buildAndStart (.started 50051))]

/-- A failed attempt that has registered nothing does no harm; a start behind a served run
does. -/
theorem service_registered_once_again :
    let S := registrationHistory Bool fun _ r => r.built
    let x := S.after BuildsUnregistered S.init (restartedSchedule ++ startedSchedule)
    x.2 = [1] ∧ x.2.length ≤ 1 ∧
      ∃ y, S.step (S.after Free S.init againSchedule)
          (.own (.buildAndStart (.started 50051))) = some y ∧ ∃ i ∈ y.2, ∃ j ∈ y.2, i ≠ j := by
  intro S x
  obtain ⟨honce, hagain⟩ := service_registered_once Bool fun _ r => r.built
  refine ⟨by decide, honce x (reaches_after (by decide)), ?_⟩
  obtain ⟨y, hy⟩ : ∃ y, S.step (S.after Free S.init againSchedule)
      (.own (.buildAndStart (.started 50051))) = some y :=
    Option.isSome_iff_exists.mp (by decide)
  exact ⟨y, hy, hagain _ y _ (reaches_after (by decide)) (by decide) (by decide) hy⟩

/-- Every start registers the one service again. -/
theorem restart_registers_again :
    ¬ ∀ x, (registrationHistory Bool fun _ r => r.built).Reachable x → x.2.length ≤ 1 := by
  intro hclaim
  let S := registrationHistory Bool fun _ r => r.built
  have h := hclaim (S.after Free S.init (againSchedule ++ startedSchedule))
    (reaches_after (by decide))
  revert h
  decide

/-! ## The bound port -/

/-- The ports that `BuildAndStart` has selected. -/
structure PortHistory where
  /-- The latest one, and 0 before the first. -/
  selected : Nat := 0
  /-- That of each run. -/
  selectedBy : Nat → Option Nat := fun _ => none

def notePort (s : Object (GrpcCaller C) (GrpcWorker C)) :
    ObjectAction (GrpcCaller C) (GrpcAction C) → PortHistory → PortHistory
  | .own (.buildAndStart (.started p)), h =>
    { selected := p
      selectedBy := Function.update h.selectedBy (s.base.runs - 1) (some p) }
  | _, h => h

variable (C) in
def portHistory :
    System (Object (GrpcCaller C) (GrpcWorker C) × PortHistory)
      (ObjectAction (GrpcCaller C) (GrpcAction C)) :=
  (cGenericGrpcWorker C).system.withHistory {} notePort

/-- The worker goes to Stopped only as long as the latest port that was selected is 0, which
is so where none was selected yet. -/
def StopsUnbound (x : Object (GrpcCaller C) (GrpcWorker C) × PortHistory) :
    ObjectAction (GrpcCaller C) (GrpcAction C) → Prop
  | .base (.setStopped _) | .base (.startCatch _) => x.2.selected = 0
  | _ => True

instance (x : Object (GrpcCaller C) (GrpcWorker C) × PortHistory)
    (a : ObjectAction (GrpcCaller C) (GrpcAction C)) : Decidable (StopsUnbound x a) := by
  induction a using ObjectAction.casesOn with
  | base a => induction a using BaseAction.casesOn <;> (unfold StopsUnbound; infer_instance)
  | own a => unfold StopsUnbound; infer_instance

/-- The server of the run is up: its `preRun` has succeeded, and its `run` has not ended. -/
def Serving (p : RunnerPc) (hook : GrpcHook) : Prop :=
  p = .checkStop ∨ p = .setRunning ∨ p = .run ∨ hook = .preRunDone (.value true)

structure PortKept (s : BaseWorker (GrpcCaller C)) (o : GrpcWorker C) (h : PortHistory) :
    Prop where
  storing : ∀ p, o.hook = .storePort p →
    h.selected = p ∧ h.selectedBy (s.runs - 1) = some p
  stored : (∀ p, o.hook ≠ .storePort p) → o.boundPort = h.selected
  serving : Serving s.current o.hook → h.selectedBy (s.runs - 1) = some h.selected

theorem not_serving_of_preRun {hook : GrpcHook} (hhook : hook ≠ .preRunDone (.value true)) :
    ¬ Serving .preRun hook := by
  rintro (h | h | h | h)
  · cases h
  · cases h
  · cases h
  · exact hhook h

theorem Serving.live {p : RunnerPc} (h : Serving p .idle) : p.live := by
  rcases h with rfl | rfl | rfl | h
  · decide
  · decide
  · decide
  · cases h

theorem notePort_of_rest {s : Object (GrpcCaller C) (GrpcWorker C)} {a : GrpcAction C}
    {h : PortHistory} (ha : a.attempting = false) : notePort s (.own a) h = h := by
  cases a <;> first | rfl | cases ha

theorem PortKept.own {s : Object (GrpcCaller C) (GrpcWorker C)} {a : GrpcAction C}
    {h : PortHistory} (hx : PortKept s.base s.ext h) (hat : HookAt s.base.current s.ext.hook)
    (ha : Attempts s.ext a o') : PortKept s.base o' (notePort s (.own a) h) := by
  cases ha with
  | queue hfrom hto _ hport =>
    obtain hcur := hat.of_home (q := .preRun) (by rw [hfrom]; rfl)
    refine ⟨fun p hp => ?_, fun _ => ?_, fun hs => ?_⟩
    · rw [hto] at hp
      cases hp
    · exact hport.trans (hx.stored fun p hp => by rw [hfrom] at hp; cases hp)
    · rw [hcur, hto] at hs
      exact absurd hs (not_serving_of_preRun (by simp))
  | build r hfrom hto _ hport =>
    obtain hcur := hat.of_home (q := .preRun) (by rw [hfrom]; rfl)
    cases r with
    | started p =>
      refine ⟨fun p' hp => ?_, fun hnot => absurd hto (hnot p), fun hs => ?_⟩
      · obtain rfl : p = p' := by
          rw [hto] at hp
          injection hp
        exact ⟨rfl, Function.update_self _ _ _⟩
      · rw [hcur, hto] at hs
        exact absurd hs (not_serving_of_preRun (by simp [BuildResult.next]))
    | null | threw e =>
      refine ⟨fun p hp => ?_, fun _ => ?_, fun hs => ?_⟩
      · rw [hto] at hp
        cases hp
      · exact hport.trans (hx.stored fun p hp => by rw [hfrom] at hp; cases hp)
      · rw [hcur, hto] at hs
        exact absurd hs (not_serving_of_preRun (by simp [BuildResult.next]))
  | store p hfrom hto _ hport =>
    obtain ⟨hselected, hrun⟩ := hx.storing p hfrom
    refine ⟨fun p' hp => ?_, fun _ => hport.trans hselected.symm, fun _ => ?_⟩
    · rw [hto] at hp
      cases hp
    · exact hrun.trans (congrArg some hselected.symm)
  | rest hact hhook _ hport =>
    rw [notePort_of_rest hact]
    have hsame : ∀ hook : GrpcHook, hook.building = true → o'.hook = hook →
        s.ext.hook = hook := fun hook hb hh =>
      (GrpcHook.same_of_building (hhook.imp_right And.right) (by rw [hh]; exact hb)).trans hh
    refine ⟨fun p hp => hx.storing p (hsame _ rfl hp), fun hnot => ?_, fun hs => ?_⟩
    · refine hport.trans (hx.stored fun p hp => ?_)
      rcases hhook with heq | ⟨hbuilding, -⟩
      · exact hnot p (heq.trans hp)
      · rw [hp] at hbuilding
        cases hbuilding
    · refine hx.serving (hs.imp_right (Or.imp_right (Or.imp_right fun hh => ?_)))
      exact hsame _ rfl hh

/-- A run that is served behind a step of the worker was served before it. -/
theorem serving_of_sync {a : BaseAction (GrpcCaller C)} (hat : HookAt s.current o.hook)
    (hm : BaseWorker.Moves s a t) (hy : sync s a o = some o')
    (hs : Serving t.current o'.hook) : Serving s.current o.hook := by
  obtain ⟨-, -, -, hhook⟩ := sync_attempt hy
  have hdone : o'.hook = .preRunDone (.value true) → Serving s.current o.hook := fun hh =>
    .inr (.inr (.inr ((GrpcHook.same_of_building hhook (by rw [hh]; rfl)).trans hh)))
  cases hm with
  | rest hact hstart hcur =>
    rw [hcur] at hs
    rcases hs with hs | hs | hs | hs
    · exact .inl hs
    · exact .inr (.inl hs)
    · exact .inr (.inr (.inl hs))
    · exact hdone hs
  | launch c created hmay hfrom _ hto =>
    have hidle : o'.hook = .idle := by
      obtain rfl := Option.some.inj hy
      exact hat.idle (RunnerPc.hookHome_of_not_live hfrom)
    rw [hto, hidle] at hs
    cases created <;> simp [Serving] at hs
  | preRunEnd r e hfrom hto =>
    simp only [GrpcWorker.sync, Option.ite_none_right_eq_some, Option.some.injEq] at hy
    obtain ⟨hold, rfl⟩ := hy
    rw [hto] at hs
    rcases e with ⟨_ | _⟩ | _
    · simp [Serving, BaseWorker.HookEnd.afterPreRun] at hs
    · exact .inr (.inr (.inr hold))
    · simp [Serving, BaseWorker.HookEnd.afterPreRun] at hs
  | checkStop r hfrom hto => exact .inl hfrom
  | setRunning r hfrom hto => exact .inr (.inl hfrom)
  | runEnd r e hfrom hto => exact .inr (.inr (.inl hfrom))
  | preRunBegin r hfrom hto =>
    refine hdone ?_
    rw [hto] at hs
    by_contra hne
    exact not_serving_of_preRun hne hs
  | catchException r e hfrom hto | setStopped r hfrom hto =>
    refine hdone ?_
    simpa [Serving, hto] using hs

/-- No step of the worker takes `preRun` away from the store of the port. -/
theorem sync_storing {a : BaseAction (GrpcCaller C)} (hat : HookAt s.current o.hook)
    (hm : BaseWorker.Moves s a t) (h : sync s a o = some o') (p : Nat)
    (hp : o.hook = .storePort p) : o'.hook = o.hook := by
  obtain hcur := hat.of_home (q := .preRun) (by rw [hp]; rfl)
  cases a with
  | call c k =>
    simp only [GrpcWorker.sync] at h
    cases c <;> simp only [calls] at h <;> grind -linarith
  | preRunBegin r =>
    cases hm with
    | rest hact => cases hact
    | preRunBegin _ hfrom => rw [hcur] at hfrom; cases hfrom
  | setRunning r =>
    cases hm with
    | rest hact => cases hact
    | setRunning _ hfrom => rw [hcur] at hfrom; cases hfrom
  | preRunEnd r e | runEnd r e =>
    simp only [GrpcWorker.sync, Option.ite_none_right_eq_some] at h
    rw [hp] at h
    cases h.1
  | _ =>
    simp only [GrpcWorker.sync] at h
    grind -linarith [setStop]

theorem PortKept.sync {a : BaseAction (GrpcCaller C)} {h : PortHistory} (hx : PortKept s o h)
    (hat : HookAt s.current o.hook) (hb : s.step a = some t) (hm : BaseWorker.Moves s a t)
    (hy : sync s a o = some o') : PortKept t o' h := by
  obtain ⟨-, hport, -, hhook⟩ := sync_attempt hy
  have hstoring := sync_storing hat hm hy
  have hmoves := hm
  have hruns : Serving t.current o'.hook ∨ (∃ p, o'.hook = .storePort p) → t.runs = s.runs :=
    fun hs => BaseWorker.runs_of_rest hb fun c created hact => by
      subst hact
      cases hm with
      | rest _ hstart => exact hstart c created rfl
      | launch _ _ _ hfrom =>
        -- nothing is served before a launch
        have hidle := hat.idle (RunnerPc.hookHome_of_not_live hfrom)
        rcases hs with hs | ⟨p, hp⟩
        · have hold := serving_of_sync hat hmoves hy hs
          rw [hidle] at hold
          exact absurd hold.live hfrom
        · have hold := GrpcHook.same_of_building hhook (by rw [hp]; rfl)
          rw [hidle, hp] at hold
          cases hold
  refine ⟨fun p hp => ?_, fun hnot => ?_, fun hs => ?_⟩
  · rw [hruns (.inr ⟨p, hp⟩)]
    exact hx.storing p ((GrpcHook.same_of_building hhook (by rw [hp]; rfl)).trans hp)
  · exact hport.trans (hx.stored fun p hp => hnot p ((hstoring p hp).trans hp))
  · rw [hruns (.inl hs)]
    exact hx.serving (serving_of_sync hat hm hy hs)

theorem portKept_of_reachable {ok : Object (GrpcCaller C) (GrpcWorker C) × PortHistory →
      ObjectAction (GrpcCaller C) (GrpcAction C) → Prop}
    {x : Object (GrpcCaller C) (GrpcWorker C) × PortHistory}
    (hr : (portHistory C).ReachableBy ok x) : PortKept x.1.base x.1.ext x.2 := by
  refine Reachable.related (R := fun s h => PortKept s.base s.ext h)
    ⟨fun _ h => (by cases h), fun _ => rfl, fun h => ?_⟩ (fun s a t h hr hx hs => ?_) hr.free
  · simp [Serving, BaseWorker.current, Derived.system, cGenericGrpcWorker] at h
  · have hat := hookAt_of_reachable hr
    cases a with
    | base a =>
      obtain ⟨hb, hy⟩ := Derived.step_base.mp hs
      obtain ⟨hi, hu⟩ := Derived.inherits hr
      exact hx.sync hat hb (BaseWorker.moves_of_step hi hu hb) hy
    | own a =>
      obtain ⟨hb, hy⟩ := Derived.step_own.mp hs
      rw [hb]
      exact hx.own hat (attempts_of_own hy)

theorem boundPort_of_run {x : Object (GrpcCaller C) (GrpcWorker C) × PortHistory} {r : Nat}
    (hr : (portHistory C).Reachable x) (hrun : x.1.base.thread r = .run) :
    x.2.selectedBy r = some x.1.ext.boundPort := by
  have hx := portKept_of_reachable hr
  have hs := hr.reachable_present
  have hlatest := (Derived.inherits hs).1.latest
    (BaseWorker.runLive_of_thread (r := r) (by rw [hrun]; decide))
  have hcur : x.1.base.current = .run := by
    rw [BaseWorker.current, show x.1.base.runs - 1 = r by omega, hrun]
  have hport : x.1.ext.boundPort = x.2.selected := hx.stored fun p hp => by
    have hat := hookAt_of_reachable hs
    have hpre := hat.of_home (q := .preRun) (by rw [hp]; rfl)
    rw [hcur] at hpre
    cases hpre
  have hselected := hx.serving (.inr (.inr (.inl hcur)))
  rwa [show x.1.base.runs - 1 = r by omega, ← hport] at hselected

/-- A stopped worker has the port of the latest server that was built. -/
theorem boundPort_of_stopped {x : Object (GrpcCaller C) (GrpcWorker C) × PortHistory}
    (hr : (portHistory C).Reachable x) (hstate : x.1.base.mState = .stopped) :
    x.1.ext.boundPort = x.2.selected := by
  have hs := hr.reachable_present
  have hnot := BaseWorker.current_not_live (Derived.inherits hs).1 hstate
  refine (portKept_of_reachable hr).stored fun p hp => ?_
  rw [(hookAt_of_reachable hs).idle (RunnerPc.hookHome_of_not_live hnot)] at hp
  cases hp

theorem unbound_of_stopped {x : Object (GrpcCaller C) (GrpcWorker C) × PortHistory}
    (hr : (portHistory C).ReachableBy StopsUnbound x) (hstate : x.1.base.mState = .stopped) :
    x.2.selected = 0 := by
  refine ReachableBy.invariant
    (P := fun x : Object (GrpcCaller C) (GrpcWorker C) × PortHistory =>
      x.1.base.mState = .stopped → x.2.selected = 0) (fun _ => rfl) ?_ hr hstate
  intro x a y hr hx hok hs hstate
  obtain ⟨ht, hy⟩ := step_withHistory.mp hs
  have hpresent := hr.reachable_present
  rw [hy]
  cases a with
  | own a =>
    obtain ⟨hb, hown⟩ := Derived.step_own.mp ht
    rw [hb] at hstate
    have hnot := BaseWorker.current_not_live (Derived.inherits hpresent).1 hstate
    -- with the worker stopped nobody is in `preRun`
    have hidle := (hookAt_of_reachable hpresent).idle (RunnerPc.hookHome_of_not_live hnot)
    cases attempts_of_own hown with
    | build r hfrom =>
      rw [hidle] at hfrom
      cases hfrom
    | queue => exact hx hstate
    | store => exact hx hstate
    | rest hact =>
      rw [notePort_of_rest hact]
      exact hx hstate
  | base a =>
    rcases BaseWorker.stops_of_stopped (Derived.step_base.mp ht).1 hstate with
      hold | ⟨r, rfl⟩ | ⟨c, rfl⟩
    · exact hx hold
    · exact hok
    · exact hok

/-- A run has the port that its own `preRun` selected. If the worker goes to Stopped only as
long as the latest port selected is 0, then `boundPort` is 0 whenever it is Stopped; in any
run at all it is that latest port. -/
theorem boundPort_is_zero_while_stopped (C : Type) [DecidableEq C] :
    (∀ x, (portHistory C).ReachableBy StopsUnbound x →
      (x.1.base.mState = .stopped → x.1.ext.boundPort = 0) ∧
        ∀ r, x.1.base.thread r = .run → x.2.selectedBy r = some x.1.ext.boundPort) ∧
    ∀ x, (portHistory C).Reachable x →
      (x.1.base.mState = .stopped → (x.1.ext.boundPort = 0 ↔ x.2.selected = 0)) ∧
        ∀ r, x.1.base.thread r = .run → x.2.selectedBy r = some x.1.ext.boundPort := by
  refine ⟨fun x hr => ⟨fun hstate => ?_, fun r => boundPort_of_run hr.free⟩,
    fun x hr => ⟨fun hstate => ?_, fun r => boundPort_of_run hr⟩⟩
  · exact (boundPort_of_stopped hr.free hstate).trans (unbound_of_stopped hr hstate)
  · rw [boundPort_of_stopped hr hstate]

def retriedSchedule : List (ObjectAction (GrpcCaller Bool) (GrpcAction Bool)) :=
  restartedSchedule ++ [.own (.buildAndStart (.started 50051)), .own .storePort,
    .base (.preRunEnd 1 (.value true)), .base (.checkStop 1), .base (.setRunning 1)]

theorem boundPort_is_zero_while_stopped_retried :
    let S := portHistory Bool
    let x := S.after StopsUnbound S.init (restartedSchedule.take 10)
    let y := S.after StopsUnbound S.init retriedSchedule
    x.1.base.mState = .stopped ∧ x.1.ext.boundPort = 0 ∧ y.2.selectedBy 1 = some 50051 := by
  intro S x y
  obtain ⟨hbound, -⟩ := boundPort_is_zero_while_stopped Bool
  refine ⟨by decide, (hbound x (reaches_after (by decide))).1 (by decide), ?_⟩
  exact (hbound y (reaches_after (by decide))).2 1 (by decide)

/-- A worker that has served and was stopped keeps its port. -/
theorem stopped_worker_keeps_port :
    ¬ ∀ x, (portHistory Bool).Reachable x → x.1.base.mState = .stopped →
      x.1.ext.boundPort = 0 := by
  intro hclaim
  let S := portHistory Bool
  have h := hclaim (S.after Free S.init endedSchedule) (reaches_after (by decide)) (by decide)
  revert h
  decide

end GrpcWorker

end ThreadComponent
