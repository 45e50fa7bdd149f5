import ThreadComponent.BaseWorker

/-!
# What one step of the worker reads and writes

For every action of a calling thread, the point it starts from and the function it
applies; for every action of a run's thread, the same. A step moves no thread but the
acting one, apart from the thread that a launch creates.
-/

set_option autoImplicit false
set_option linter.unusedSectionVars false

namespace ThreadComponent.BaseWorker
variable {C : Type} [DecidableEq C] {s t : BaseWorker C} {c : C} {r : Nat}

@[simp] theorem setCaller_mState (p : CallerPc) : (s.setCaller c p).mState = s.mState := rfl
@[simp] theorem setCaller_stopRequested (p : CallerPc) :
    (s.setCaller c p).stopRequested = s.stopRequested := rfl
@[simp] theorem setCaller_runs (p : CallerPc) : (s.setCaller c p).runs = s.runs := rfl
@[simp] theorem setCaller_thread (p : CallerPc) : (s.setCaller c p).thread = s.thread := rfl
@[simp] theorem setCaller_caller (p : CallerPc) :
    (s.setCaller c p).caller = Function.update s.caller c p := rfl

@[simp] theorem setThread_mState (p : RunnerPc) : (s.setThread r p).mState = s.mState := rfl
@[simp] theorem setThread_stopRequested (p : RunnerPc) :
    (s.setThread r p).stopRequested = s.stopRequested := rfl
@[simp] theorem setThread_runs (p : RunnerPc) : (s.setThread r p).runs = s.runs := rfl
@[simp] theorem setThread_caller (p : RunnerPc) : (s.setThread r p).caller = s.caller := rfl
@[simp] theorem setThread_thread (p : RunnerPc) :
    (s.setThread r p).thread = Function.update s.thread r p := rfl

/-! ## Inversion, action by action -/

theorem step_call {k : Call} :
    s.step (.call c k) = some t ↔ (s.caller c).free = true ∧ t = s.setCaller c k.entry := by
  simp only [step]
  grind -linarith

theorem step_joinFinished :
    s.step (.joinFinished c) = some t ↔
      ∃ k, s.caller c = .joinFinished k ∧ t = s.joinFinishedThread c k := by
  simp only [step]
  split <;> grind -linarith

theorem step_startSection {created : Bool} :
    s.step (.startSection c created) = some t ↔
      ∃ wait, s.caller c = .startSection wait ∧ t = s.startSection c wait created := by
  simp only [step]
  split <;> grind -linarith

theorem step_startCatch :
    s.step (.startCatch c) = some t ↔ ∃ wait r, s.caller c = .startCatch wait r ∧
      t = (s.setState .stopped).setCaller c (.returned (.startThread wait) false) := by
  simp only [step]
  split <;> grind -linarith

theorem step_waitForStart :
    s.step (.waitForStart c) = some t ↔ ∃ wait, s.caller c = .waitForStart wait ∧
      t = s.setCaller c (.returned (.startThread wait) (s.mState = .running)) := by
  simp only [step]
  split <;> grind -linarith

theorem step_stopSection :
    s.step (.stopSection c) = some t ↔
      ∃ k, s.caller c = .stopSection k ∧ t = s.requestStopSection c k := by
  simp only [step]
  split <;> grind -linarith

theorem step_stopTriggeredEnd :
    s.step (.stopTriggeredEnd c) = some t ↔
      ∃ k, s.caller c = .stopTriggered k ∧ t = s.setCaller c k.afterRequestStop := by
  simp only [step]
  split <;> grind -linarith

theorem step_waitForStopped :
    s.step (.waitForStopped c) = some t ↔ ∃ k, s.caller c = .waitForStopped k ∧
      t = s.setCaller c (if s.mState = .stopped then .joinFinished k else k.afterTimeout) := by
  simp only [step]
  split <;> grind -linarith

theorem step_joinThread :
    s.step (.joinThread c) = some t ↔
      ∃ k, s.caller c = .joinThread k ∧ t = s.joinThread c k := by
  simp only [step]
  split <;> grind -linarith

theorem step_joined :
    s.step (.joined c) = some t ↔ ∃ k r, s.caller c = .joining k r ∧ s.thread r = .exited ∧
      t = s.setCaller c k.afterJoin := by
  simp only [step]
  split <;> grind -linarith

theorem step_preRunBegin :
    s.step (.preRunBegin r) = some t ↔ s.thread r = .entry ∧ t = s.setThread r .preRun := by
  simp only [step]
  grind -linarith

def HookEnd.afterPreRun : HookEnd → RunnerPc
  | .value true => .checkStop
  | .value false => .setStopped
  | .threw e => .catching e

def HookEnd.afterRun : HookEnd → RunnerPc
  | .value _ => .setStopped
  | .threw e => .catching e

theorem step_preRunEnd {e : HookEnd} :
    s.step (.preRunEnd r e) = some t ↔
      s.thread r = .preRun ∧ t = s.setThread r (HookEnd.afterPreRun e) := by
  simp only [step]
  split
  · split <;> grind -linarith [HookEnd.afterPreRun]
  · grind -linarith

theorem step_checkStop :
    s.step (.checkStop r) = some t ↔ s.thread r = .checkStop ∧
      t = s.setThread r (if s.stopRequested then .setStopped else .setRunning) := by
  simp only [step]
  grind -linarith

theorem step_setRunning :
    s.step (.setRunning r) = some t ↔
      s.thread r = .setRunning ∧ t = (s.setState .running).setThread r .run := by
  simp only [step]
  grind -linarith

theorem step_runEnd {e : HookEnd} :
    s.step (.runEnd r e) = some t ↔
      s.thread r = .run ∧ t = s.setThread r (HookEnd.afterRun e) := by
  simp only [step]
  split
  · split <;> grind -linarith [HookEnd.afterRun]
  · grind -linarith

theorem step_catchException :
    s.step (.catchException r) = some t ↔ ∃ e, s.thread r = .catching e ∧
      t = { s with mLastUnhandledException := some e }.setThread r .setStopped := by
  simp only [step]
  split <;> grind -linarith

theorem step_setStopped :
    s.step (.setStopped r) = some t ↔
      s.thread r = .setStopped ∧ t = (s.setState .stopped).setThread r .exited := by
  simp only [step]
  grind -linarith

/-! ## The locked section of startThread -/

theorem startSection_launched {wait : Bool} (h : s.mState = .stopped ∧ s.mThread = none) :
    s.startSection c wait true =
      { s with
        mStopRequested := false
        mLastUnhandledException := none
        mState := .starting
        mThread := some s.runs
        runs := s.runs + 1
        thread := Function.update s.thread s.runs .entry
        caller := Function.update s.caller c
          (if wait then .waitForStart wait else .returned (.startThread wait) true) } := by
  simp [startSection, mayStart, h, beginRun, assignThread, setThread, setCaller]

theorem startSection_failed {wait : Bool} (h : s.mState = .stopped ∧ s.mThread = none) :
    s.startSection c wait false = s.beginRun.setCaller c (.startCatch wait s.runs) := by
  simp [startSection, mayStart, h]

theorem startSection_refused {wait created : Bool}
    (h : ¬ (s.mState = .stopped ∧ s.mThread = none)) :
    s.startSection c wait created = s.setCaller c (.returned (.startThread wait) false) := by
  simp [startSection, mayStart, h]

/-! ## Frames -/

def actingRun : BaseAction C → Option Nat
  | .preRunBegin r | .preRunEnd r _ | .checkStop r | .setRunning r | .runEnd r _
  | .catchException r | .setStopped r => some r
  | _ => none

def actingCaller : BaseAction C → Option C
  | .call c _ | .joinFinished c | .startSection c _ | .startCatch c | .waitForStart c
  | .stopSection c | .stopTriggeredEnd c | .waitForStopped c | .joinThread c | .joined c => some c
  | _ => none

theorem thread_startSection {wait created : Bool} :
    (s.startSection c wait created).thread r = s.thread r ∨
      (r = s.runs ∧ (s.startSection c wait created).runs = s.runs + 1 ∧
        (s.startSection c wait created).thread r = .entry) := by
  by_cases h : s.mState = .stopped ∧ s.mThread = none
  · cases created
    · rw [startSection_failed h]
      exact .inl rfl
    · rw [startSection_launched h]
      by_cases hr : r = s.runs
      · exact .inr ⟨hr, rfl, by simp [hr]⟩
      · exact .inl (by simp [Function.update_of_ne hr])
  · rw [startSection_refused h]
    exact .inl rfl

@[simp] theorem joinThread_thread (k : Call) : (s.joinThread c k).thread = s.thread := by
  unfold joinThread
  split <;> rfl

@[simp] theorem joinFinishedThread_thread (k : Call) :
    (s.joinFinishedThread c k).thread = s.thread := by
  unfold joinFinishedThread
  split
  · split <;> rfl
  · rfl

theorem thread_frame {a : BaseAction C} (h : s.step a = some t) (hr : actingRun a ≠ some r) :
    t.thread r = s.thread r ∨
      (r = s.runs ∧ t.runs = s.runs + 1 ∧ t.thread r = .entry) := by
  have hne : ∀ r', actingRun a = some r' → r ≠ r' := fun r' hd he => hr (he ▸ hd)
  cases a with
  | startSection c created =>
    obtain ⟨wait, -, rfl⟩ := step_startSection.mp h
    exact thread_startSection
  | call c k => obtain ⟨-, rfl⟩ := step_call.mp h; exact .inl rfl
  | joinFinished c => obtain ⟨k, -, rfl⟩ := step_joinFinished.mp h; exact .inl (by simp)
  | startCatch c => obtain ⟨_, _, -, rfl⟩ := step_startCatch.mp h; exact .inl rfl
  | waitForStart c => obtain ⟨_, -, rfl⟩ := step_waitForStart.mp h; exact .inl rfl
  | stopSection c => obtain ⟨_, -, rfl⟩ := step_stopSection.mp h; exact .inl rfl
  | stopTriggeredEnd c => obtain ⟨_, -, rfl⟩ := step_stopTriggeredEnd.mp h; exact .inl rfl
  | waitForStopped c => obtain ⟨_, -, rfl⟩ := step_waitForStopped.mp h; exact .inl rfl
  | joinThread c => obtain ⟨k, -, rfl⟩ := step_joinThread.mp h; exact .inl (by simp)
  | joined c => obtain ⟨_, _, -, -, rfl⟩ := step_joined.mp h; exact .inl rfl
  | preRunBegin r' =>
    obtain ⟨-, rfl⟩ := step_preRunBegin.mp h
    exact .inl (Function.update_of_ne (hne r' rfl) _ _)
  | preRunEnd r' e =>
    obtain ⟨-, rfl⟩ := step_preRunEnd.mp h
    exact .inl (Function.update_of_ne (hne r' rfl) _ _)
  | checkStop r' =>
    obtain ⟨-, rfl⟩ := step_checkStop.mp h
    exact .inl (Function.update_of_ne (hne r' rfl) _ _)
  | setRunning r' =>
    obtain ⟨-, rfl⟩ := step_setRunning.mp h
    exact .inl (Function.update_of_ne (hne r' rfl) _ _)
  | runEnd r' e =>
    obtain ⟨-, rfl⟩ := step_runEnd.mp h
    exact .inl (Function.update_of_ne (hne r' rfl) _ _)
  | catchException r' =>
    obtain ⟨_, -, rfl⟩ := step_catchException.mp h
    exact .inl (Function.update_of_ne (hne r' rfl) _ _)
  | setStopped r' =>
    obtain ⟨-, rfl⟩ := step_setStopped.mp h
    exact .inl (Function.update_of_ne (hne r' rfl) _ _)

theorem caller_frame {a : BaseAction C} (h : s.step a = some t)
    (hc : actingCaller a ≠ some c) : t.caller c = s.caller c := by
  have hne : ∀ d : C, actingCaller a = some d → c ≠ d := fun d hd he => hc (he ▸ hd)
  cases a with
  | call d k =>
    obtain ⟨-, rfl⟩ := step_call.mp h
    simp [Function.update_of_ne (hne d rfl)]
  | joinFinished d =>
    obtain ⟨k, -, rfl⟩ := step_joinFinished.mp h
    unfold joinFinishedThread
    split
    · split <;> simp [Function.update_of_ne (hne d rfl)]
    · simp [Function.update_of_ne (hne d rfl)]
  | startSection d created =>
    obtain ⟨wait, -, rfl⟩ := step_startSection.mp h
    by_cases hm : s.mState = .stopped ∧ s.mThread = none
    · cases created
      · simp [startSection_failed hm, Function.update_of_ne (hne d rfl), beginRun]
      · simp [startSection_launched hm, Function.update_of_ne (hne d rfl)]
    · simp [startSection_refused hm, Function.update_of_ne (hne d rfl)]
  | startCatch d =>
    obtain ⟨_, _, -, rfl⟩ := step_startCatch.mp h
    simp [Function.update_of_ne (hne d rfl), setState]
  | waitForStart d =>
    obtain ⟨_, -, rfl⟩ := step_waitForStart.mp h
    simp [Function.update_of_ne (hne d rfl)]
  | stopSection d =>
    obtain ⟨_, -, rfl⟩ := step_stopSection.mp h
    simp [requestStopSection, Function.update_of_ne (hne d rfl)]
  | stopTriggeredEnd d =>
    obtain ⟨_, -, rfl⟩ := step_stopTriggeredEnd.mp h
    simp [Function.update_of_ne (hne d rfl)]
  | waitForStopped d =>
    obtain ⟨_, -, rfl⟩ := step_waitForStopped.mp h
    simp [Function.update_of_ne (hne d rfl)]
  | joinThread d =>
    obtain ⟨k, -, rfl⟩ := step_joinThread.mp h
    unfold joinThread
    split <;> simp [Function.update_of_ne (hne d rfl)]
  | joined d =>
    obtain ⟨_, _, -, -, rfl⟩ := step_joined.mp h
    simp [Function.update_of_ne (hne d rfl)]
  | preRunBegin r' => obtain ⟨-, rfl⟩ := step_preRunBegin.mp h; rfl
  | preRunEnd r' e => obtain ⟨-, rfl⟩ := step_preRunEnd.mp h; rfl
  | checkStop r' => obtain ⟨-, rfl⟩ := step_checkStop.mp h; rfl
  | setRunning r' => obtain ⟨-, rfl⟩ := step_setRunning.mp h; rfl
  | runEnd r' e => obtain ⟨-, rfl⟩ := step_runEnd.mp h; rfl
  | catchException r' => obtain ⟨_, -, rfl⟩ := step_catchException.mp h; rfl
  | setStopped r' => obtain ⟨-, rfl⟩ := step_setStopped.mp h; rfl

def startsAt : BaseAction C → CallerPc → Bool
  | .call _ _, p => p.free
  | .joinFinished _, .joinFinished _ => true
  | .startSection _ _, .startSection _ => true
  | .startCatch _, .startCatch _ _ => true
  | .waitForStart _, .waitForStart _ => true
  | .stopSection _, .stopSection _ => true
  | .stopTriggeredEnd _, .stopTriggered _ => true
  | .waitForStopped _, .waitForStopped _ => true
  | .joinThread _, .joinThread _ => true
  | .joined _, .joining _ _ => true
  | _, _ => false

theorem startsAt_of_acting {a : BaseAction C} (h : s.step a = some t)
    (hact : actingCaller a = some c) : startsAt a (s.caller c) = true := by
  cases a with
  | call d k =>
    obtain rfl : d = c := by simpa [actingCaller] using hact
    exact (step_call.mp h).1
  | joinFinished d =>
    obtain rfl : d = c := by simpa [actingCaller] using hact
    obtain ⟨k, hc, -⟩ := step_joinFinished.mp h
    simp [hc, startsAt]
  | startSection d created =>
    obtain rfl : d = c := by simpa [actingCaller] using hact
    obtain ⟨wait, hc, -⟩ := step_startSection.mp h
    simp [hc, startsAt]
  | startCatch d =>
    obtain rfl : d = c := by simpa [actingCaller] using hact
    obtain ⟨wait, r, hc, -⟩ := step_startCatch.mp h
    simp [hc, startsAt]
  | waitForStart d =>
    obtain rfl : d = c := by simpa [actingCaller] using hact
    obtain ⟨wait, hc, -⟩ := step_waitForStart.mp h
    simp [hc, startsAt]
  | stopSection d =>
    obtain rfl : d = c := by simpa [actingCaller] using hact
    obtain ⟨k, hc, -⟩ := step_stopSection.mp h
    simp [hc, startsAt]
  | stopTriggeredEnd d =>
    obtain rfl : d = c := by simpa [actingCaller] using hact
    obtain ⟨k, hc, -⟩ := step_stopTriggeredEnd.mp h
    simp [hc, startsAt]
  | waitForStopped d =>
    obtain rfl : d = c := by simpa [actingCaller] using hact
    obtain ⟨k, hc, -⟩ := step_waitForStopped.mp h
    simp [hc, startsAt]
  | joinThread d =>
    obtain rfl : d = c := by simpa [actingCaller] using hact
    obtain ⟨k, hc, -⟩ := step_joinThread.mp h
    simp [hc, startsAt]
  | joined d =>
    obtain rfl : d = c := by simpa [actingCaller] using hact
    obtain ⟨k, r, hc, -⟩ := step_joined.mp h
    simp [hc, startsAt]
  | _ => simp [actingCaller] at hact

/-! ## A thread inside requestStop -/

theorem stopTriggeredEnd_of_acting {a : BaseAction C} {k : Call} (h : s.step a = some t)
    (hc : s.caller c = .stopTriggered k) (hact : actingCaller a = some c) :
    a = .stopTriggeredEnd c := by
  have hat := startsAt_of_acting h hact
  rw [hc] at hat
  cases a <;> simp_all [startsAt, actingCaller, CallerPc.free]

theorem stopSection_of_acting {a : BaseAction C} {k : Call} (h : s.step a = some t)
    (hc : s.caller c = .stopSection k) (hact : actingCaller a = some c) :
    a = .stopSection c := by
  have hat := startsAt_of_acting h hact
  rw [hc] at hat
  cases a <;> simp_all [startsAt, actingCaller, CallerPc.free]

theorem waitForStopped_of_acting {a : BaseAction C} {k : Call} (h : s.step a = some t)
    (hc : s.caller c = .waitForStopped k) (hact : actingCaller a = some c) :
    a = .waitForStopped c := by
  have hat := startsAt_of_acting h hact
  rw [hc] at hat
  cases a <;> simp_all [startsAt, actingCaller, CallerPc.free]

/-- A thread comes to be in a member function by calling one. -/
theorem busy_of_step {a : BaseAction C} (h : s.step a = some t)
    (hc : (t.caller c).free = false) : (∃ k, a = .call c k) ∨ (s.caller c).free = false := by
  by_cases hact : actingCaller a = some c
  · have hat := startsAt_of_acting h hact
    cases a with
    | call d k =>
      obtain rfl : d = c := by simpa [actingCaller] using hact
      exact .inl ⟨k, rfl⟩
    | _ =>
      right
      revert hat
      cases s.caller c <;> simp [startsAt, CallerPc.free]
  · rw [caller_frame h hact] at hc
    exact .inr hc

theorem caller_stopTriggered {a : BaseAction C} {k : Call} (h : s.step a = some t)
    (hc : s.caller c = .stopTriggered k) (ha : a ≠ .stopTriggeredEnd c) :
    t.caller c = .stopTriggered k := by
  by_cases hact : actingCaller a = some c
  · exact absurd (stopTriggeredEnd_of_acting h hc hact) ha
  · rw [caller_frame h hact, hc]

theorem caller_stopSection {a : BaseAction C} {k : Call} (h : s.step a = some t)
    (hc : s.caller c = .stopSection k) (ha : a ≠ .stopSection c) :
    t.caller c = .stopSection k := by
  by_cases hact : actingCaller a = some c
  · exact absurd (stopSection_of_acting h hc hact) ha
  · rw [caller_frame h hact, hc]

/-- The locked section of a `requestStop` that finds a run alive leads to the hook. -/
theorem caller_of_stopSection (h : s.step (.stopSection c) = some t)
    (htrigger : s.mState.shouldTriggerStop = true) : ∃ k, t.caller c = .stopTriggered k := by
  obtain ⟨k, -, rfl⟩ := step_stopSection.mp h
  exact ⟨k, by simp [requestStopSection, htrigger]⟩

/-- Only the end of `threadRunner` and the handler of `startThread` set `Stopped`. -/
theorem stops_of_stopped {a : BaseAction C} (h : s.step a = some t) (hstate : t.mState = .stopped) :
    s.mState = .stopped ∨ (∃ r, a = .setStopped r) ∨ ∃ c, a = .startCatch c := by
  cases a with
  | setStopped r => exact .inr (.inl ⟨r, rfl⟩)
  | startCatch c => exact .inr (.inr ⟨c, rfl⟩)
  | stopSection c =>
    obtain ⟨k, -, rfl⟩ := step_stopSection.mp h
    left
    cases hm : s.mState <;> simp_all [requestStopSection, EnmState.onRequestStop]
  | startSection c created =>
    obtain ⟨wait, -, rfl⟩ := step_startSection.mp h
    by_cases hm : s.mState = .stopped ∧ s.mThread = none
    · exact .inl hm.1
    · rw [startSection_refused hm] at hstate
      exact .inl hstate
  | _ =>
    left
    simp only [step] at h
    grind -linarith [setCaller, setThread, setState, joinFinishedThread, joinThread]

end ThreadComponent.BaseWorker
