import ThreadComponent.BaseWorkerSafety

/-!
# Classes derived from cBaseWorker_V2

A derived class adds members of its own. Its hooks take steps of their own in between
the steps of the worker, and they agree with the worker on the boundaries: on when a
hook is entered and on how it ends. Since one run is live at a time, the members need
one place only for the hook that the worker's thread is in.
-/

set_option autoImplicit false
set_option linter.unusedSectionVars false

namespace ThreadComponent

open Transitions System

/-- The members `O` of a derived class and its own steps `A`. `sync` is what a step of
the worker does to the members; where it gives `none` the class does not allow it yet. -/
structure Derived (C O A : Type) where
  init : O
  sync : BaseWorker C → BaseAction C → O → Option O
  own : BaseWorker C → O → A → Option O

structure Object (C O : Type) where
  base : BaseWorker C
  ext : O

inductive ObjectAction (C A : Type) where
  | base (a : BaseAction C)
  | own (a : A)
  deriving DecidableEq, Repr

namespace Derived
variable {C O A : Type} [DecidableEq C] (D : Derived C O A)

def step (s : Object C O) : ObjectAction C A → Option (Object C O)
  | .base a => (s.base.step a).bind fun b => (D.sync s.base a s.ext).map fun o => ⟨b, o⟩
  | .own a => (D.own s.base s.ext a).map fun o => ⟨s.base, o⟩

def system : System (Object C O) (ObjectAction C A) where
  init := ⟨{}, D.init⟩
  step := D.step

variable {D}

theorem step_base {s t : Object C O} {a : BaseAction C} :
    D.step s (.base a) = some t ↔
      s.base.step a = some t.base ∧ D.sync s.base a s.ext = some t.ext := by
  simp only [step, Option.bind_eq_some_iff, Option.map_eq_some_iff]
  constructor
  · rintro ⟨b, hb, o, ho, rfl⟩
    exact ⟨hb, ho⟩
  · rintro ⟨hb, ho⟩
    exact ⟨t.base, hb, t.ext, ho, rfl⟩

theorem step_own {s t : Object C O} {a : A} :
    D.step s (.own a) = some t ↔ t.base = s.base ∧ D.own s.base s.ext a = some t.ext := by
  simp only [step, Option.map_eq_some_iff]
  constructor
  · rintro ⟨o, ho, rfl⟩
    exact ⟨rfl, ho⟩
  · rintro ⟨hb, ho⟩
    exact ⟨t.ext, ho, by rw [← hb]⟩

/-- Every run of a derived object is a run of the worker. -/
theorem base_reachable {ok : Object C O → ObjectAction C A → Prop} {s : Object C O}
    (h : D.system.ReachableBy ok s) : (baseSystem C).Reachable s.base := by
  refine Reaches.project (T := baseSystem C) Object.base (fun u a v hs => ?_) h
  cases a with
  | base a => exact .inr ⟨a, (step_base.mp hs).1⟩
  | own a => exact .inl (step_own.mp hs).1

end Derived

/-! ## The thread of the latest run -/

namespace BaseWorker
variable {C : Type} [DecidableEq C] {s t : BaseWorker C}

/-- Where the thread of the latest run stands; no other thread is in `threadRunner`. -/
def current (s : BaseWorker C) : RunnerPc := s.thread (s.runs - 1)

def Unborn (s : BaseWorker C) : Prop := ∀ r, s.runs ≤ r → s.thread r = .absent

theorem runs_le {a : BaseAction C} (h : s.step a = some t) : s.runs ≤ t.runs := by
  cases step_effect h <;> omega

theorem live_of_actingRun {a : BaseAction C} {r : Nat} (h : s.step a = some t)
    (hr : actingRun a = some r) : (s.thread r).live := by
  cases a with
  | preRunBegin r' =>
    obtain rfl : r' = r := by simpa [actingRun] using hr
    rw [(step_preRunBegin.mp h).1]
    decide
  | preRunEnd r' e =>
    obtain rfl : r' = r := by simpa [actingRun] using hr
    rw [(step_preRunEnd.mp h).1]
    decide
  | checkStop r' =>
    obtain rfl : r' = r := by simpa [actingRun] using hr
    rw [(step_checkStop.mp h).1]
    decide
  | setRunning r' =>
    obtain rfl : r' = r := by simpa [actingRun] using hr
    rw [(step_setRunning.mp h).1]
    decide
  | runEnd r' e =>
    obtain rfl : r' = r := by simpa [actingRun] using hr
    rw [(step_runEnd.mp h).1]
    decide
  | catchException r' =>
    obtain rfl : r' = r := by simpa [actingRun] using hr
    obtain ⟨e, he, -⟩ := step_catchException.mp h
    simp [he, RunnerPc.live]
  | setStopped r' =>
    obtain rfl : r' = r := by simpa [actingRun] using hr
    rw [(step_setStopped.mp h).1]
    decide
  | _ => simp [actingRun] at hr

theorem Unborn.step {a : BaseAction C} (hu : Unborn s) (h : s.step a = some t) : Unborn t := by
  intro r hr
  have hle := runs_le h
  have hold := hu r (Nat.le_trans hle hr)
  by_cases hact : actingRun a = some r
  · exact absurd hold (live_of_actingRun h hact).1
  · rcases thread_frame h hact with hsame | ⟨rfl, hruns, -⟩
    · exact hsame.trans hold
    · exact absurd hr (by omega)

theorem unborn_of_reachable {ok : BaseWorker C → BaseAction C → Prop}
    (h : (baseSystem C).ReachableBy ok s) : Unborn s :=
  ReachableBy.invariant (fun _ _ => rfl) (fun _ _ _ _ hu _ hs => hu.step hs) h

theorem runs_of_rest {a : BaseAction C} (h : s.step a = some t)
    (ha : ∀ c created, a = .startSection c created → s.mayStart = false) : t.runs = s.runs := by
  cases step_effect h with
  | launch c created hact _ hstate hthread =>
    have hmay : s.mayStart = true := by simp [mayStart, hstate, hthread]
    rw [ha c created hact] at hmay
    cases hmay
  | stop _ _ _ _ hruns => exact hruns
  | running _ _ _ _ hruns => exact hruns
  | finish _ _ _ _ _ hruns => exact hruns
  | quiet _ _ hruns => exact hruns

theorem runs_of_effect {a : BaseAction C} (h : s.step a = some t)
    (ha : ∀ c b, a ≠ .startSection c b) : t.runs = s.runs :=
  runs_of_rest h fun c b hact => absurd hact (ha c b)

/-- A step of a run's thread is a step of the latest run. -/
theorem current_of_actingRun {a : BaseAction C} {r : Nat} (hi : SingleBody s)
    (h : s.step a = some t) (hr : actingRun a = some r) :
    s.current = s.thread r ∧ t.current = t.thread r := by
  have hlatest := hi.latest (runLive_of_thread (live_of_actingRun h hr))
  have hruns : t.runs = s.runs := runs_of_effect h fun c b he => by
    simp [he, actingRun] at hr
  unfold current
  rw [hruns, show s.runs - 1 = r by omega]
  exact ⟨rfl, rfl⟩

/-- No other step but a launch changes where the latest run stands. -/
theorem current_of_other {a : BaseAction C} (h : s.step a = some t)
    (hr : actingRun a = none) (ha : ∀ c b, a ≠ .startSection c b) : t.current = s.current := by
  have hruns := runs_of_effect h ha
  unfold current
  rw [hruns]
  rcases thread_frame (r := s.runs - 1) h (by simp [hr]) with hsame | ⟨-, hnew, -⟩
  · exact hsame
  · omega

/-- `m_state` never holds the value `Unknown`. -/
theorem known_of_reachable {ok : BaseWorker C → BaseAction C → Prop}
    (h : (baseSystem C).ReachableBy ok s) : s.mState ≠ .unknown := by
  refine ReachableBy.invariant (P := fun s => s.mState ≠ .unknown) (by simp [baseSystem])
    (fun s a t _ hk _ hs => ?_) h
  cases step_effect hs with
  | launch _ _ _ _ _ _ hstate' => simp [hstate']
  | stop _ _ hstate' =>
    rw [hstate']
    cases hm : s.mState <;> simp_all [EnmState.onRequestStop]
  | running _ _ hstate' => simp [hstate']
  | finish _ _ _ hstate' => simp [hstate']
  | quiet hstate' => rwa [hstate']

theorem shouldTriggerStop_of_live (hi : SingleBody s) (hk : s.mState ≠ .unknown)
    (hlive : s.current.live) : s.mState.shouldTriggerStop = true := by
  have hne := hi.live_iff.mp ⟨_, runLive_of_thread hlive⟩
  cases hm : s.mState <;> simp_all [EnmState.shouldTriggerStop]

theorem current_not_live (hi : SingleBody s) (hstate : s.mState = .stopped) :
    ¬ s.current.live := fun hlive => hi.live_iff.mp ⟨_, runLive_of_thread hlive⟩ hstate

/-- How a step of the worker moves the thread of the latest run. -/
inductive Moves (s : BaseWorker C) : BaseAction C → BaseWorker C → Prop where
  | rest {a : BaseAction C} {t : BaseWorker C} (hact : actingRun a = none)
      (hstart : ∀ c created, a = .startSection c created → s.mayStart = false)
      (hcur : t.current = s.current) : Moves s a t
  | launch (c : C) (created : Bool) {t : BaseWorker C} (hstart : s.mayStart = true)
      (hfrom : ¬ s.current.live) (hflag : t.mStopRequested = false)
      (hto : t.current = if created then .entry else .absent) :
      Moves s (.startSection c created) t
  | preRunBegin (r : Nat) {t : BaseWorker C} (hfrom : s.current = .entry)
      (hto : t.current = .preRun) : Moves s (.preRunBegin r) t
  | preRunEnd (r : Nat) (e : HookEnd) {t : BaseWorker C} (hfrom : s.current = .preRun)
      (hto : t.current = HookEnd.afterPreRun e) : Moves s (.preRunEnd r e) t
  | checkStop (r : Nat) {t : BaseWorker C} (hfrom : s.current = .checkStop)
      (hto : t.current = if s.stopRequested then .setStopped else .setRunning) :
      Moves s (.checkStop r) t
  | setRunning (r : Nat) {t : BaseWorker C} (hfrom : s.current = .setRunning)
      (hto : t.current = .run) : Moves s (.setRunning r) t
  | runEnd (r : Nat) (e : HookEnd) {t : BaseWorker C} (hfrom : s.current = .run)
      (hto : t.current = HookEnd.afterRun e) : Moves s (.runEnd r e) t
  | catchException (r e : Nat) {t : BaseWorker C} (hfrom : s.current = .catching e)
      (hto : t.current = .setStopped) : Moves s (.catchException r) t
  | setStopped (r : Nat) {t : BaseWorker C} (hfrom : s.current = .setStopped)
      (hto : t.current = .exited) : Moves s (.setStopped r) t

/-- Only a launch clears the stop flag. -/
theorem flag_of_step {a : BaseAction C} (h : s.step a = some t)
    (ha : ∀ c created, a = .startSection c created → s.mayStart = false)
    (hflag : t.stopRequested = false) : s.stopRequested = false := by
  unfold stopRequested at hflag ⊢
  cases step_effect h with
  | launch c created hact _ hstate hthread =>
    have hmay : s.mayStart = true := by simp [mayStart, hstate, hthread]
    rw [ha c created hact] at hmay
    cases hmay
  | stop _ _ _ hset =>
    rw [hset] at hflag
    cases hflag
  | running _ _ _ hsame => exact hsame ▸ hflag
  | finish _ _ _ _ hsame => exact hsame ▸ hflag
  | quiet _ hsame => exact hsame ▸ hflag

/-- Only `requestStop` sets the stop flag. -/
theorem stopSection_of_flag {a : BaseAction C} (h : s.step a = some t)
    (hflag : t.stopRequested = true) : s.stopRequested = true ∨ ∃ c, a = .stopSection c := by
  unfold stopRequested at hflag ⊢
  cases step_effect h with
  | launch _ _ _ _ _ _ _ hclear =>
    rw [hclear] at hflag
    cases hflag
  | stop c hact => exact .inr ⟨c, hact⟩
  | running _ _ _ hsame => exact .inl (hsame ▸ hflag)
  | finish _ _ _ _ hsame => exact .inl (hsame ▸ hflag)
  | quiet _ hsame => exact .inl (hsame ▸ hflag)

theorem moves_startSection {c : C} {created : Bool} (hi : SingleBody s) (hu : Unborn s)
    (h : s.step (.startSection c created) = some t) : Moves s (.startSection c created) t := by
  obtain ⟨wait, -, rfl⟩ := step_startSection.mp h
  by_cases hm : s.mState = .stopped ∧ s.mThread = none
  · refine .launch c created (by simp [mayStart, hm]) (current_not_live hi hm.1) ?_ ?_
    · cases created
      · rw [startSection_failed hm]; rfl
      · rw [startSection_launched hm]
    · cases created
      · rw [startSection_failed hm]
        exact hu _ (Nat.le_refl _)
      · rw [startSection_launched hm]
        simp [current]
  · rw [startSection_refused hm]
    exact .rest rfl (fun _ _ _ => by simpa [mayStart] using hm) rfl

theorem moves_of_step {a : BaseAction C} (hi : SingleBody s) (hu : Unborn s)
    (h : s.step a = some t) : Moves s a t := by
  by_cases hr : actingRun a = none
  · by_cases ha : ∃ c b, a = .startSection c b
    · obtain ⟨c, created, rfl⟩ := ha
      exact moves_startSection hi hu h
    · exact .rest hr (fun c b he => absurd ⟨c, b, he⟩ ha)
        (current_of_other h hr fun c b he => ha ⟨c, b, he⟩)
  · obtain ⟨r, hact⟩ := Option.ne_none_iff_exists'.mp hr
    obtain ⟨hcur, hcur'⟩ := current_of_actingRun hi h hact
    cases a with
    | preRunBegin r' =>
      obtain rfl : r' = r := by simpa [actingRun] using hact
      obtain ⟨hpc, rfl⟩ := step_preRunBegin.mp h
      exact .preRunBegin _ (hcur.trans hpc) (hcur'.trans (by simp))
    | preRunEnd r' e =>
      obtain rfl : r' = r := by simpa [actingRun] using hact
      obtain ⟨hpc, rfl⟩ := step_preRunEnd.mp h
      exact .preRunEnd _ _ (hcur.trans hpc) (hcur'.trans (by simp))
    | checkStop r' =>
      obtain rfl : r' = r := by simpa [actingRun] using hact
      obtain ⟨hpc, rfl⟩ := step_checkStop.mp h
      exact .checkStop _ (hcur.trans hpc) (hcur'.trans (by simp))
    | setRunning r' =>
      obtain rfl : r' = r := by simpa [actingRun] using hact
      obtain ⟨hpc, rfl⟩ := step_setRunning.mp h
      exact .setRunning _ (hcur.trans hpc) (hcur'.trans (by simp))
    | runEnd r' e =>
      obtain rfl : r' = r := by simpa [actingRun] using hact
      obtain ⟨hpc, rfl⟩ := step_runEnd.mp h
      exact .runEnd _ _ (hcur.trans hpc) (hcur'.trans (by simp))
    | catchException r' =>
      obtain rfl : r' = r := by simpa [actingRun] using hact
      obtain ⟨e, hpc, rfl⟩ := step_catchException.mp h
      exact .catchException _ e (hcur.trans hpc) (hcur'.trans (by simp))
    | setStopped r' =>
      obtain rfl : r' = r := by simpa [actingRun] using hact
      obtain ⟨hpc, rfl⟩ := step_setStopped.mp h
      exact .setStopped _ (hcur.trans hpc) (hcur'.trans (by simp))
    | _ => simp [actingRun] at hact

end BaseWorker

/-- What every derived object inherits: one body at a time, and how its thread moves. -/
theorem Derived.inherits {C O A : Type} [DecidableEq C] {D : Derived C O A} {s : Object C O}
    {ok : Object C O → ObjectAction C A → Prop} (h : D.system.ReachableBy ok s) :
    BaseWorker.SingleBody s.base ∧ BaseWorker.Unborn s.base :=
  ⟨BaseWorker.singleBody_of_reachable (Derived.base_reachable h),
    BaseWorker.unborn_of_reachable (Derived.base_reachable h)⟩

end ThreadComponent
