import ThreadComponent.BaseWorkerJoin
import ThreadComponent.History

/-!
# What the results of cBaseWorker_V2 say

The results of `startThread` and `stopThread` and the exception that `lastUnhandledException`
returns, against what has happened to the runs. Any number of threads call, so a result is about
the runs that had begun by then, and not about the state that its receiver finds.
-/

set_option autoImplicit false
set_option linter.unusedSectionVars false

namespace ThreadComponent

open Transitions Transitions.System

/-- What has happened so far, for each calling thread and for each run. -/
structure CallLog (C : Type) where
  /-- How many runs had begun when the latest call of the thread began. -/
  begun : C → Nat := fun _ => 0
  /-- The run that this call has launched. -/
  launched : C → Option Nat := fun _ => none
  /-- Has the run set `Running`? -/
  published : Nat → Bool := fun _ => false
  /-- The exception that a hook of the run was left by. -/
  thrown : Nat → Option Nat := fun _ => none

namespace BaseWorker
variable {C : Type} [DecidableEq C]

def noteCall (s : BaseWorker C) : BaseAction C → CallLog C → CallLog C
  | .call c _, l =>
    { l with
      begun := Function.update l.begun c s.runs
      launched := Function.update l.launched c none }
  | .startSection c created, l =>
    if s.mayStart ∧ created then
      { l with launched := Function.update l.launched c (some s.runs) }
    else l
  | .setRunning r, l => { l with published := Function.update l.published r true }
  | .preRunEnd r (.threw e), l | .runEnd r (.threw e), l =>
    { l with thrown := Function.update l.thrown r (some e) }
  | _, l => l

def callLog (C : Type) [DecidableEq C] : System (BaseWorker C × CallLog C) (BaseAction C) :=
  (baseSystem C).withHistory {} noteCall

def Launched (s : BaseWorker C) (l : CallLog C) (c : C) (r : Nat) : Prop :=
  l.launched c = some r ∧ l.begun c ≤ r ∧ r < s.runs

/-- A `stopThread` that has seen `Stopped` has outlived the runs from before the call. -/
def Outlived (s : BaseWorker C) (l : CallLog C) (c : C) (k : Call) : Prop :=
  k = .stopThread true → ∀ r, r < l.begun c → ¬ s.RunLive r

/-- What is known of the runs where a calling thread stands. -/
def Known (s : BaseWorker C) (l : CallLog C) (c : C) : CallerPc → Prop
  | .stopSection k | .stopTriggered k => ∀ wait, k ≠ .startThread wait
  | .joinThread k => k ≠ .stopThread true
  | .joinFinished k | .joining k _ => Outlived s l c k
  | .returned (.stopThread true) true => Outlived s l c (.stopThread true)
  | .waitForStart _ => ∃ r, Launched s l c r
  | .returned (.startThread wait) true =>
    ∃ r, Launched s l c r ∧ (wait = true → ∃ r', r ≤ r' ∧ l.published r' = true)
  | _ => True

structure Noted (s : BaseWorker C) (l : CallLog C) : Prop where
  begun : ∀ c, l.begun c ≤ s.runs
  running : s.mState = .running → l.published (s.runs - 1) = true
  known : ∀ c, Known s l c (s.caller c)

section Step
variable {s t : BaseWorker C} {l : CallLog C} {a : BaseAction C} {c : C} {r : Nat}

/-! ## What stays known -/

theorem over_of_step (h : s.step a = some t) (hr : r < s.runs) (hover : ¬ s.RunLive r) :
    ¬ t.RunLive r := by
  rintro ⟨k, hk⟩
  cases step_effect h with
  | launch _ _ _ k' _ _ _ _ _ _ hholds =>
    rcases (hholds k r).mp hk with hold | ⟨-, hnew⟩
    · exact hover ⟨k, hold⟩
    · omega
  | stop _ _ _ _ _ _ hholds => exact hover ⟨k, (hholds k r).mp hk⟩
  | running _ _ _ _ _ _ hholds => exact hover ⟨k, (hholds k r).mp hk⟩
  | finish _ _ _ _ _ _ _ hholds => exact hover ⟨k, ((hholds k r).mp hk).1⟩
  | quiet _ _ _ _ hholds => exact hover ⟨k, (hholds k r).mp hk⟩

theorem log_of_not_acting (hact : actingCaller a ≠ some c) :
    (noteCall s a l).begun c = l.begun c ∧ (noteCall s a l).launched c = l.launched c := by
  have hne : ∀ d : C, actingCaller a = some d → c ≠ d := fun d hd he => hact (he ▸ hd)
  unfold noteCall
  split
  · exact ⟨Function.update_of_ne (hne _ rfl) _ _, Function.update_of_ne (hne _ rfl) _ _⟩
  · split
    · exact ⟨rfl, Function.update_of_ne (hne _ rfl) _ _⟩
    · exact ⟨rfl, rfl⟩
  · exact ⟨rfl, rfl⟩
  · exact ⟨rfl, rfl⟩
  · exact ⟨rfl, rfl⟩
  · exact ⟨rfl, rfl⟩

theorem published_of_step (hr : l.published r = true) : (noteCall s a l).published r = true := by
  unfold noteCall
  split
  · exact hr
  · split <;> exact hr
  · rename_i r'
    by_cases hsame : r = r'
    · subst hsame
      exact Function.update_self ..
    · exact (Function.update_of_ne hsame _ _).trans hr
  · exact hr
  · exact hr
  · exact hr

theorem begun_of_step (hact : ∀ k, a ≠ .call c k) : (noteCall s a l).begun c = l.begun c := by
  unfold noteCall
  split
  · rename_i d k
    refine Function.update_of_ne ?_ _ _
    rintro rfl
    exact hact k rfl
  · split <;> rfl
  · rfl
  · rfl
  · rfl
  · rfl

/-- A step with which the thread stays where it is, in the log as well. -/
theorem Known.step {l' : CallLog C} {p : CallerPc} (hk : Known s l c p) (h : s.step a = some t)
    (hle : l.begun c ≤ s.runs) (hbegun : l'.begun c = l.begun c)
    (hlaunched : l'.launched c = l.launched c)
    (hpublished : ∀ r, l.published r = true → l'.published r = true) : Known t l' c p := by
  have hruns := runs_le h
  have hover : ∀ {k}, Outlived s l c k → Outlived t l' c k := by
    intro k hs hstop r hr
    rw [hbegun] at hr
    exact over_of_step h (by omega) (hs hstop r hr)
  have hlaunch : ∀ {r}, Launched s l c r → Launched t l' c r := by
    rintro r ⟨hr, hfrom, hto⟩
    exact ⟨hlaunched.trans hr, hbegun ▸ hfrom, by omega⟩
  unfold Known at hk ⊢
  split at hk
  · exact hk
  · exact hk
  · exact hk
  · exact hover hk
  · exact hover hk
  · exact hover hk
  · obtain ⟨r, hr⟩ := hk
    exact ⟨r, hlaunch hr⟩
  · obtain ⟨r, hr, hwait⟩ := hk
    refine ⟨r, hlaunch hr, fun hw => ?_⟩
    obtain ⟨r', hle', hr'⟩ := hwait hw
    exact ⟨r', hle', hpublished r' hr'⟩
  · exact trivial

/-- Behind a join helper a call knows what it knew in it. -/
theorem known_afterJoin {k : Call} (hk : Outlived s l c k) : Known s l c k.afterJoin := by
  cases k with
  | stopThread wait =>
    cases wait with
    | true => exact hk
    | false => exact trivial
  | _ => exact trivial

theorem known_afterRequestStop {k : Call} (hk : ∀ wait, k ≠ .startThread wait) :
    Known s l c k.afterRequestStop := by
  cases k with
  | startThread wait => exact absurd rfl (hk wait)
  | stopThread wait =>
    cases wait with
    | true => exact trivial
    | false => exact fun h => by cases h
  | stopThreadAndJoin wait =>
    cases wait with
    | true => exact trivial
    | false => exact fun h => by cases h
  | requestStop => exact trivial
  | destructor => exact fun h => by cases h

theorem known_afterTimeout {k : Call} : Known s l c k.afterTimeout := by
  cases k with
  | stopThreadAndJoin wait => exact fun h => by cases h
  | stopThread wait => cases wait <;> exact trivial
  | _ => exact trivial

/-! ## One step -/

theorem not_live_of_stopped (hi : SingleBody s) (hstate : s.mState = .stopped) :
    ¬ s.RunLive r := fun hlive => hi.live_iff.mp ⟨r, hlive⟩ hstate

theorem caller_joinFinished {k : Call} (h : s.step (.joinFinished c) = some t)
    (hc : s.caller c = .joinFinished k) :
    t.caller c = k.afterJoin ∨ ∃ r, t.caller c = .joining k r := by
  obtain ⟨k', hk', rfl⟩ := step_joinFinished.mp h
  rw [hc] at hk'
  cases hk'
  unfold joinFinishedThread
  split
  · split
    · exact .inr ⟨_, Function.update_self ..⟩
    · exact .inl (Function.update_self ..)
  · exact .inl (Function.update_self ..)

theorem caller_joinThread {k : Call} (h : s.step (.joinThread c) = some t)
    (hc : s.caller c = .joinThread k) :
    t.caller c = k.afterJoin ∨ ∃ r, t.caller c = .joining k r := by
  obtain ⟨k', hk', rfl⟩ := step_joinThread.mp h
  rw [hc] at hk'
  cases hk'
  unfold BaseWorker.joinThread
  split
  · exact .inr ⟨_, Function.update_self ..⟩
  · exact .inl (Function.update_self ..)

theorem known_startSection {wait created : Bool} (hx : Noted s l)
    (hc : s.caller c = .startSection wait) (h : s.step (.startSection c created) = some t) :
    Known t (noteCall s (.startSection c created) l) c (t.caller c) := by
  obtain ⟨wait', hc', rfl⟩ := step_startSection.mp h
  rw [hc] at hc'
  cases hc'
  by_cases hm : s.mState = .stopped ∧ s.mThread = none
  · have hmay : s.mayStart = true := by simp [mayStart, hm]
    cases created with
    | true =>
      have hnote : noteCall s (.startSection c true) l =
          { l with launched := Function.update l.launched c (some s.runs) } := by
        simp [noteCall, hmay]
      have hlaunched : Launched (s.startSection c wait true)
          (noteCall s (.startSection c true) l) c s.runs := by
        rw [hnote, startSection_launched hm]
        exact ⟨Function.update_self .., hx.begun c, Nat.lt_succ_self _⟩
      have hcaller : (s.startSection c wait true).caller c =
          if wait then .waitForStart wait else .returned (.startThread wait) true := by
        rw [startSection_launched hm]
        exact Function.update_self ..
      rw [hcaller]
      cases wait with
      | true => exact ⟨s.runs, hlaunched⟩
      | false => exact ⟨s.runs, hlaunched, fun hw => by cases hw⟩
    | false =>
      rw [startSection_failed hm, setCaller_caller, Function.update_self]
      exact trivial
  · rw [startSection_refused hm, setCaller_caller, Function.update_self]
    exact trivial

theorem known_of_acting (hi : SingleBody s) (hx : Noted s l) (h : s.step a = some t)
    (hact : actingCaller a = some c) : Known t (noteCall s a l) c (t.caller c) := by
  have hk := hx.known c
  cases a with
  | call d k =>
    obtain rfl : d = c := by simpa [actingCaller] using hact
    obtain ⟨-, rfl⟩ := step_call.mp h
    rw [setCaller_caller, Function.update_self]
    cases k with
    | startThread wait => exact fun hstop => by cases hstop
    | _ => exact fun wait hw => by cases hw
  | joinFinished d =>
    obtain rfl : d = c := by simpa [actingCaller] using hact
    obtain ⟨k, hc, -⟩ := step_joinFinished.mp h
    rw [hc] at hk
    have hk' := hk.step h (hx.begun d) rfl rfl fun _ hr => hr
    rcases caller_joinFinished h hc with ht | ⟨r, ht⟩
    · exact ht ▸ known_afterJoin hk'
    · exact ht ▸ hk'
  | startSection d created =>
    obtain rfl : d = c := by simpa [actingCaller] using hact
    obtain ⟨wait, hc, -⟩ := step_startSection.mp h
    exact known_startSection hx hc h
  | startCatch d =>
    obtain rfl : d = c := by simpa [actingCaller] using hact
    obtain ⟨wait, r, -, rfl⟩ := step_startCatch.mp h
    rw [setCaller_caller, Function.update_self]
    exact trivial
  | waitForStart d =>
    obtain rfl : d = c := by simpa [actingCaller] using hact
    obtain ⟨wait, hc, rfl⟩ := step_waitForStart.mp h
    rw [hc] at hk
    rw [setCaller_caller, Function.update_self]
    by_cases hstate : s.mState = .running
    · obtain ⟨r, hr⟩ := hk
      have hlast : r ≤ s.runs - 1 := by
        have := hr.2.2
        omega
      simp only [hstate, decide_true]
      exact ⟨r, hr, fun _ => ⟨s.runs - 1, hlast, hx.running hstate⟩⟩
    · simp only [hstate, decide_false]
      exact trivial
  | stopSection d =>
    obtain rfl : d = c := by simpa [actingCaller] using hact
    obtain ⟨k, hc, rfl⟩ := step_stopSection.mp h
    rw [hc] at hk
    unfold requestStopSection
    rw [setCaller_caller, Function.update_self]
    split
    · exact hk
    · exact known_afterRequestStop hk
  | stopTriggeredEnd d =>
    obtain rfl : d = c := by simpa [actingCaller] using hact
    obtain ⟨k, hc, rfl⟩ := step_stopTriggeredEnd.mp h
    rw [hc] at hk
    rw [setCaller_caller, Function.update_self]
    exact known_afterRequestStop hk
  | waitForStopped d =>
    obtain rfl : d = c := by simpa [actingCaller] using hact
    obtain ⟨k, hc, rfl⟩ := step_waitForStopped.mp h
    rw [setCaller_caller, Function.update_self]
    by_cases hstate : s.mState = .stopped
    · rw [if_pos hstate] at h ⊢
      -- no run is live where the state is `Stopped`
      intro _ r hr
      have hbegun : r < s.runs := Nat.lt_of_lt_of_le hr (hx.begun d)
      exact over_of_step h hbegun (not_live_of_stopped hi hstate)
    · rw [if_neg hstate]
      exact known_afterTimeout
  | joinThread d =>
    obtain rfl : d = c := by simpa [actingCaller] using hact
    obtain ⟨k, hc, -⟩ := step_joinThread.mp h
    rw [hc] at hk
    rcases caller_joinThread h hc with ht | ⟨r, ht⟩
    · exact ht ▸ known_afterJoin fun hstop => absurd hstop hk
    · exact ht ▸ fun hstop => absurd hstop hk
  | joined d =>
    obtain rfl : d = c := by simpa [actingCaller] using hact
    obtain ⟨k, r, hc, -, ht⟩ := step_joined.mp h
    rw [hc] at hk
    have hk' := hk.step h (hx.begun d) rfl rfl fun _ hr => hr
    have hcaller : t.caller d = k.afterJoin := by
      rw [ht]
      exact Function.update_self ..
    exact hcaller ▸ known_afterJoin hk'
  | _ => simp [actingCaller] at hact

theorem running_of_step (h : s.step a = some t) (hstate : t.mState = .running) :
    (∃ r, a = .setRunning r) ∨ s.mState = .running ∧ t.runs = s.runs := by
  cases a with
  | setRunning r => exact .inl ⟨r, rfl⟩
  | startSection c created =>
    obtain ⟨wait, -, rfl⟩ := step_startSection.mp h
    by_cases hm : s.mState = .stopped ∧ s.mThread = none
    · cases created with
      | true =>
        rw [startSection_launched hm] at hstate
        cases hstate
      | false =>
        rw [startSection_failed hm] at hstate
        cases hstate
    · rw [startSection_refused hm] at hstate ⊢
      exact .inr ⟨hstate, rfl⟩
  | stopSection c =>
    obtain ⟨k, -, rfl⟩ := step_stopSection.mp h
    have hstate' : s.mState.onRequestStop = .running := hstate
    cases hm : s.mState <;> simp [hm, EnmState.onRequestStop] at hstate'
  | _ =>
    right
    simp only [BaseWorker.step] at h
    grind -linarith [setCaller, setThread, setState, joinFinishedThread, BaseWorker.joinThread]

theorem Noted.step (hi : SingleBody s) (hx : Noted s l) (h : s.step a = some t) :
    Noted t (noteCall s a l) where
  begun c := by
    by_cases hcall : ∃ k, a = .call c k
    · obtain ⟨k, rfl⟩ := hcall
      have hbegun : (noteCall s (.call c k) l).begun c = s.runs := Function.update_self ..
      rw [hbegun]
      exact runs_le h
    · rw [begun_of_step fun k hk => hcall ⟨k, hk⟩]
      exact Nat.le_trans (hx.begun c) (runs_le h)
  running hstate := by
    rcases running_of_step h hstate with ⟨r, rfl⟩ | ⟨hold, hruns⟩
    · obtain ⟨hpc, rfl⟩ := step_setRunning.mp h
      have hlatest := hi.latest (runLive_of_thread (show (s.thread r).live by rw [hpc]; decide))
      have hrun : s.runs - 1 = r := by omega
      exact hrun ▸ Function.update_self ..
    · rw [hruns]
      exact published_of_step (hx.running hold)
  known c := by
    by_cases hact : actingCaller a = some c
    · exact known_of_acting hi hx h hact
    · obtain ⟨hbegun, hlaunched⟩ := log_of_not_acting (s := s) (l := l) hact
      rw [caller_frame h hact]
      exact (hx.known c).step h (hx.begun c) hbegun hlaunched fun _ hr => published_of_step hr

end Step

/-! ## The run -/

section Run
variable {x : BaseWorker C × CallLog C}

theorem noted_of_reachable (hr : (callLog C).Reachable x) : Noted x.1 x.2 := by
  have hinit : Noted (baseSystem C).init {} :=
    ⟨fun _ => Nat.le_refl _, (fun h => nomatch h), fun _ => trivial⟩
  exact Reachable.related hinit
    (fun s a t l hs hx h => hx.step (singleBody_of_reachable hs) h) hr

/-- A `stopThread` that waited and returned true has outlived every run that had begun before
it. A `startThread` that returned true has launched a run of its own, and if it waited then a
run has been `Running` since, this one or a later one. -/
theorem stop_outlives_runs_and_start_launches_one (hr : (callLog C).Reachable x) (c : C) :
    (x.1.caller c = .returned (.stopThread true) true →
      ∀ r, r < x.2.begun c → ¬ x.1.RunLive r) ∧
    ∀ wait, x.1.caller c = .returned (.startThread wait) true →
      ∃ r, x.2.launched c = some r ∧ x.2.begun c ≤ r ∧ r < x.1.runs ∧
        (wait = true → ∃ r', r ≤ r' ∧ x.2.published r' = true) := by
  have hk := (noted_of_reachable hr).known c
  refine ⟨fun hc => ?_, fun wait hc => ?_⟩
  · rw [hc] at hk
    exact hk rfl
  · rw [hc] at hk
    obtain ⟨r, ⟨hlaunched, hfrom, hto⟩, hwait⟩ := hk
    exact ⟨r, hlaunched, hfrom, hto, hwait⟩

/-- Caller 1 stops the run that caller 0 has started; both have waited. -/
def stoppedSchedule : List (BaseAction Nat) :=
  runningSchedule ++ [.waitForStart 0, .call 1 (.stopThread true), .stopSection 1,
    .stopTriggeredEnd 1, .runEnd 0 (.threw 7), .catchException 0, .setStopped 0,
    .waitForStopped 1, .joinFinished 1, .joined 1]

theorem stop_outlives_runs_and_start_launches_one_stopped :
    let x := (callLog Nat).after Free (callLog Nat).init stoppedSchedule
    x.1.caller 0 = .returned (.startThread true) true ∧ x.2.begun 1 = 1 ∧
      x.1.caller 1 = .returned (.stopThread true) true ∧ ¬ x.1.RunLive 0 := by
  intro x
  have hr : (callLog Nat).Reachable x := reaches_after (by decide)
  exact ⟨by decide, by decide, by decide,
    (stop_outlives_runs_and_start_launches_one hr 1).1 (by decide) 0 (by decide)⟩

end Run

/-! ## The exception of a run -/

/-- What the worker reports of the latest run, by where its thread stands. -/
def Reports (last thrown : Option Nat) : RunnerPc → Prop
  | .entry | .preRun | .checkStop | .setRunning | .run => last = none ∧ thrown = none
  | .catching e => last = none ∧ thrown = some e
  | .setStopped | .exited | .absent => last = thrown

structure Reported (s : BaseWorker C) (l : CallLog C) : Prop where
  unthrown : ∀ r, s.runs ≤ r → l.thrown r = none
  latest : Reports s.mLastUnhandledException (l.thrown (s.runs - 1)) s.current

section Report
variable {s t : BaseWorker C} {l : CallLog C} {a : BaseAction C} {c : C} {r : Nat}

theorem setThread_mLastUnhandledException (p : RunnerPc) :
    (s.setThread r p).mLastUnhandledException = s.mLastUnhandledException := rfl

theorem report_frame (h : s.step a = some t) (hact : actingRun a = none)
    (hstart : ∀ c created, a ≠ .startSection c created) :
    t.mLastUnhandledException = s.mLastUnhandledException ∧ t.runs = s.runs ∧
      t.thread = s.thread ∧ (noteCall s a l).thrown = l.thrown := by
  cases a with
  | call d k => obtain ⟨-, rfl⟩ := step_call.mp h; exact ⟨rfl, rfl, rfl, rfl⟩
  | joinFinished d =>
    obtain ⟨k, -, rfl⟩ := step_joinFinished.mp h
    unfold joinFinishedThread
    split
    · split <;> exact ⟨rfl, rfl, rfl, rfl⟩
    · exact ⟨rfl, rfl, rfl, rfl⟩
  | startSection d created => exact absurd rfl (hstart d created)
  | startCatch d => obtain ⟨_, _, -, rfl⟩ := step_startCatch.mp h; exact ⟨rfl, rfl, rfl, rfl⟩
  | waitForStart d => obtain ⟨_, -, rfl⟩ := step_waitForStart.mp h; exact ⟨rfl, rfl, rfl, rfl⟩
  | stopSection d => obtain ⟨_, -, rfl⟩ := step_stopSection.mp h; exact ⟨rfl, rfl, rfl, rfl⟩
  | stopTriggeredEnd d =>
    obtain ⟨_, -, rfl⟩ := step_stopTriggeredEnd.mp h
    exact ⟨rfl, rfl, rfl, rfl⟩
  | waitForStopped d =>
    obtain ⟨_, -, rfl⟩ := step_waitForStopped.mp h
    exact ⟨rfl, rfl, rfl, rfl⟩
  | joinThread d =>
    obtain ⟨k, -, rfl⟩ := step_joinThread.mp h
    unfold BaseWorker.joinThread
    split <;> exact ⟨rfl, rfl, rfl, rfl⟩
  | joined d => obtain ⟨_, _, -, -, rfl⟩ := step_joined.mp h; exact ⟨rfl, rfl, rfl, rfl⟩
  | _ => cases hact

theorem Reported.acting (hx : Reported s l) {p : RunnerPc} {l' : CallLog C}
    (hr : r + 1 = s.runs) (hruns : t.runs = s.runs) (hthread : t.thread r = p)
    (hlog : ∀ r', r' ≠ r → l'.thrown r' = l.thrown r')
    (hreport : Reports s.mLastUnhandledException (l.thrown r) (s.thread r) →
      Reports t.mLastUnhandledException (l'.thrown r) p) : Reported t l' where
  unthrown r' hr' := by
    rw [hlog r' (by omega)]
    exact hx.unthrown r' (by omega)
  latest := by
    have hlatest := hx.latest
    have hsame : s.runs - 1 = r := by omega
    unfold current at hlatest ⊢
    rw [hsame] at hlatest
    rw [hruns, hsame, hthread]
    exact hreport hlatest

theorem Reported.step (hi : SingleBody s) (hu : Unborn s) (hx : Reported s l)
    (h : s.step a = some t) : Reported t (noteCall s a l) := by
  have hlatest : ∀ r, actingRun a = some r → r + 1 = s.runs := fun r hr =>
    hi.latest (runLive_of_thread (live_of_actingRun h hr))
  cases a with
  | startSection c created =>
    obtain ⟨wait, -, rfl⟩ := step_startSection.mp h
    have hlog : (noteCall s (.startSection c created) l).thrown = l.thrown := by
      simp only [noteCall]
      split <;> rfl
    by_cases hm : s.mState = .stopped ∧ s.mThread = none
    · have hfresh := hx.unthrown s.runs (Nat.le_refl _)
      cases created with
      | true =>
        rw [startSection_launched hm]
        refine ⟨fun r hr => hlog ▸ hx.unthrown r (Nat.le_of_succ_le hr), ?_⟩
        simp [current, hlog, hfresh, Reports]
      | false =>
        rw [startSection_failed hm]
        refine ⟨fun r hr => hlog ▸ hx.unthrown r (Nat.le_of_succ_le hr), ?_⟩
        have habsent : (s.beginRun.setCaller c (.startCatch wait s.runs)).current = .absent :=
          hu s.runs (Nat.le_refl _)
        rw [habsent]
        exact (hlog ▸ hfresh).symm
    · rw [startSection_refused hm]
      exact ⟨hlog ▸ hx.unthrown, hlog ▸ hx.latest⟩
  | preRunBegin r =>
    obtain ⟨hpc, rfl⟩ := step_preRunBegin.mp h
    refine hx.acting (hlatest r rfl) rfl (Function.update_self ..) (fun _ _ => rfl) ?_
    rw [hpc]
    exact id
  | preRunEnd r e =>
    obtain ⟨hpc, rfl⟩ := step_preRunEnd.mp h
    refine hx.acting (hlatest r rfl) rfl (Function.update_self ..) ?_ ?_
    · intro r' hr'
      cases e with
      | value b => rfl
      | threw e => exact Function.update_of_ne hr' _ _
    · rw [hpc]
      rintro ⟨hlast, hthrown⟩
      cases e with
      | value b =>
        cases b <;>
          simp [HookEnd.afterPreRun, Reports, noteCall, hlast, hthrown,
            setThread_mLastUnhandledException]
      | threw e =>
        simp [HookEnd.afterPreRun, Reports, noteCall, hlast, setThread_mLastUnhandledException]
  | checkStop r =>
    obtain ⟨hpc, rfl⟩ := step_checkStop.mp h
    refine hx.acting (hlatest r rfl) rfl (Function.update_self ..) (fun _ _ => rfl) ?_
    rw [hpc]
    rintro ⟨hlast, hthrown⟩
    split <;> simp [Reports, noteCall, hlast, hthrown, setThread_mLastUnhandledException]
  | setRunning r =>
    obtain ⟨hpc, rfl⟩ := step_setRunning.mp h
    refine hx.acting (hlatest r rfl) rfl (Function.update_self ..) (fun _ _ => rfl) ?_
    rw [hpc]
    exact id
  | runEnd r e =>
    obtain ⟨hpc, rfl⟩ := step_runEnd.mp h
    refine hx.acting (hlatest r rfl) rfl (Function.update_self ..) ?_ ?_
    · intro r' hr'
      cases e with
      | value b => rfl
      | threw e => exact Function.update_of_ne hr' _ _
    · rw [hpc]
      rintro ⟨hlast, hthrown⟩
      cases e <;>
        simp [HookEnd.afterRun, Reports, noteCall, hlast, hthrown,
          setThread_mLastUnhandledException]
  | catchException r =>
    obtain ⟨e, hpc, rfl⟩ := step_catchException.mp h
    refine hx.acting (hlatest r rfl) rfl (Function.update_self ..) (fun _ _ => rfl) ?_
    rw [hpc]
    exact fun hreport => hreport.2.symm
  | setStopped r =>
    obtain ⟨hpc, rfl⟩ := step_setStopped.mp h
    refine hx.acting (hlatest r rfl) rfl (Function.update_self ..) (fun _ _ => rfl) ?_
    rw [hpc]
    exact id
  | _ =>
    obtain ⟨hlast, hruns, hthread, hlog⟩ := report_frame (l := l) h rfl (by simp)
    refine ⟨fun r hr => ?_, ?_⟩
    · rw [hlog]
      exact hx.unthrown r (hruns ▸ hr)
    · unfold current
      rw [hlast, hruns, hthread, hlog]
      exact hx.latest

theorem reported_of_reachable {x : BaseWorker C × CallLog C} (hr : (callLog C).Reachable x) :
    Reported x.1 x.2 := by
  have hinit : Reported (baseSystem C).init {} := ⟨fun _ _ => rfl, rfl⟩
  exact Reachable.related hinit
    (fun s a t l hs hx h => hx.step (singleBody_of_reachable hs) (unborn_of_reachable hs) h) hr

/-- The exception reported is that of the latest run, and never one of an earlier run; where
the worker is stopped, the exception of the latest run is reported. -/
theorem lastUnhandledException_is_latest {x : BaseWorker C × CallLog C}
    (hr : (callLog C).Reachable x) :
    (∀ e, x.1.mLastUnhandledException = some e → x.2.thrown (x.1.runs - 1) = some e) ∧
    (x.1.mState = .stopped → x.1.mLastUnhandledException = x.2.thrown (x.1.runs - 1)) := by
  have hx := (reported_of_reachable hr).latest
  refine ⟨fun e he => ?_, fun hstate => ?_⟩
  · cases hpc : x.1.current <;> simp_all [Reports]
  · have hnot : ¬ x.1.current.live := fun hlive =>
      not_live_of_stopped (singleBody_of_reachable hr.reachable_present) hstate
        (runLive_of_thread hlive)
    cases hpc : x.1.current <;> simp_all [Reports, RunnerPc.live]

/-- The run of `stoppedSchedule` has thrown; a next one reports nothing before it throws. -/
theorem lastUnhandledException_is_latest_restarted :
    let x := (callLog Nat).after Free (callLog Nat).init stoppedSchedule
    let y := (callLog Nat).after Free x [.call 1 (.startThread false), .joinFinished 1,
      .startSection 1 true]
    x.1.mLastUnhandledException = some 7 ∧ x.2.thrown 0 = some 7 ∧
      y.1.mLastUnhandledException = none := by
  intro x y
  have hr : (callLog Nat).Reachable x := reaches_after (by decide)
  exact ⟨by decide, (lastUnhandledException_is_latest hr).1 7 (by decide), by decide⟩

end Report

end BaseWorker

end ThreadComponent
