import ThreadComponent.BaseWorkerSafety

/-!
# What becomes of a stop request

A stop request that finds a run alive sets the flag for the rest of that run: only a
launch clears it, and a launch needs the run to be over. The lifecycle state is less
well kept: `threadRunner` tests the flag and publishes `Running` in two separate steps,
and a request that falls in between is overwritten.
-/

set_option autoImplicit false
set_option linter.unusedSectionVars false

namespace ThreadComponent

open Transitions System

namespace BaseWorker
variable {C : Type} [DecidableEq C]

/-! ## The flag -/

/-- The flag of run `r`, once set, stays set while `r` is alive. -/
def KeepsStop (r : Nat) (s : BaseWorker C) : Prop :=
  SingleBody s ∧ r < s.runs ∧ (s.RunLive r → s.stopRequested = true)

theorem KeepsStop.effect {r : Nat} {s t : BaseWorker C} {a : BaseAction C}
    (hk : KeepsStop r s) (he : Effect s a t) : KeepsStop r t := by
  obtain ⟨hi, hr, hflag⟩ := hk
  have hi' := hi.effect he
  unfold stopRequested at hflag
  cases he with
  | quiet _ hf hruns _ hholds =>
    refine ⟨hi', by omega, fun ⟨h, hh⟩ => ?_⟩
    exact hf.trans (hflag ⟨h, (hholds _ _).mp hh⟩)
  | stop _ _ _ hf hruns _ _ => exact ⟨hi', by omega, fun _ => hf⟩
  | running _ _ _ hf hruns _ hholds =>
    refine ⟨hi', by omega, fun ⟨h, hh⟩ => ?_⟩
    exact hf.trans (hflag ⟨h, (hholds _ _).mp hh⟩)
  | finish _ _ _ _ hf hruns _ hholds =>
    refine ⟨hi', by omega, fun ⟨h, hh⟩ => ?_⟩
    exact hf.trans (hflag ⟨h, ((hholds _ _).mp hh).1⟩)
  | launch _ _ _ _ hstate _ _ _ hruns _ _ =>
    -- the run that is alive after a launch is the new one
    refine ⟨hi', by omega, fun hlive => ?_⟩
    have := hi'.latest hlive
    omega

/-- The locked section of a `requestStop` that finds a run alive sets a flag that
nothing clears before that run has set `Stopped`. -/
theorem stop_request_is_kept {s s' : BaseWorker C} {c : C}
    (h : (baseSystem C).Reachable s) (hlive : s.mState ≠ .stopped)
    (hstop : s.step (.stopSection c) = some s') :
    ∃ r, s.RunLive r ∧ ∀ t, (baseSystem C).Reaches Free s' t →
      t.RunLive r → t.stopRequested = true := by
  have hi := singleBody_of_reachable h
  obtain ⟨r, hr⟩ := hi.live_iff.mpr hlive
  have hi' := hi.effect (step_effect hstop)
  obtain ⟨k, -, rfl⟩ := step_stopSection.mp hstop
  refine ⟨r, hr, fun t ht => ?_⟩
  have hlatest := hi.latest hr
  have hk : KeepsStop r (s.requestStopSection c k) :=
    ⟨hi', by simp only [requestStopSection, setCaller]; omega, fun _ => rfl⟩
  exact (ht.keeps (fun _ _ _ hk _ hs => hk.effect (step_effect hs)) hk).2.2

/-- Caller 1 asks for a stop, up to the call of its hook. -/
def requestSchedule : List (BaseAction Nat) :=
  [.call 1 .requestStop, .stopSection 1]

/-- Caller 1 asks the launched run to stop; caller 2 then fails to start again. -/
theorem stop_request_is_kept_past_refused_start :
    let s := (baseSystem Nat).after Free {} (launchSchedule.concat (.call 1 .requestStop))
    let t := (baseSystem Nat).after Free (s.requestStopSection 1 .requestStop)
      (refusedSchedule 2)
    t.caller 2 = .returned (.startThread true) false ∧
      ∃ r, s.RunLive r ∧ (t.RunLive r → t.stopRequested = true) := by
  intro s t
  obtain ⟨r, hr, hkeep⟩ := stop_request_is_kept (s := s) (c := 1)
    (reaches_after (by decide)) (by decide) rfl
  exact ⟨by decide, r, hr, hkeep t (reaches_after (by decide))⟩

/-! ## The lifecycle state

Between `stopRequested()` returning false and `setState(Running)` the thread stands at
`setRunning`; a request whose locked section falls there is overwritten. -/

/-- No locked section of `requestStop` runs while the latest thread is between its
stop check and `setState(Running)`. -/
def StopsOutsideWindow (s : BaseWorker C) : BaseAction C → Prop
  | .stopSection _ => s.thread (s.runs - 1) ≠ .setRunning
  | _ => True

instance (s : BaseWorker C) (a : BaseAction C) : Decidable (StopsOutsideWindow s a) := by
  induction a using BaseAction.casesOn <;> (unfold StopsOutsideWindow; infer_instance)

/-- What the lifecycle state says about the flag as long as no request falls into the window. -/
structure FlagAgrees (s : BaseWorker C) : Prop where
  running : s.isRunning = true → s.stopRequested = false
  window : ∀ r, s.thread r = .setRunning → s.stopRequested = false
  stopping : s.mState = .stopping → s.stopRequested = true

/-- Only a stop check that found the flag clear leads to `setRunning`. -/
theorem setRunning_of_step {s t : BaseWorker C} {a : BaseAction C} {r : Nat}
    (h : s.step a = some t) (hr : t.thread r = .setRunning) :
    s.thread r = .setRunning ∨ s.stopRequested = false := by
  by_cases hact : actingRun a = some r
  · cases a with
    | checkStop r' =>
      obtain rfl : r' = r := by simpa [actingRun] using hact
      obtain ⟨-, rfl⟩ := step_checkStop.mp h
      refine .inr ?_
      by_contra hflag
      simp [hflag] at hr
    | preRunBegin r' =>
      obtain rfl : r' = r := by simpa [actingRun] using hact
      obtain ⟨-, rfl⟩ := step_preRunBegin.mp h
      simp at hr
    | preRunEnd r' e =>
      obtain rfl : r' = r := by simpa [actingRun] using hact
      obtain ⟨-, rfl⟩ := step_preRunEnd.mp h
      rw [setThread_thread, Function.update_self] at hr
      unfold HookEnd.afterPreRun at hr
      split at hr <;> cases hr
    | setRunning r' =>
      obtain rfl : r' = r := by simpa [actingRun] using hact
      exact .inl (step_setRunning.mp h).1
    | runEnd r' e =>
      obtain rfl : r' = r := by simpa [actingRun] using hact
      obtain ⟨-, rfl⟩ := step_runEnd.mp h
      rw [setThread_thread, Function.update_self] at hr
      unfold HookEnd.afterRun at hr
      split at hr <;> cases hr
    | catchException r' =>
      obtain rfl : r' = r := by simpa [actingRun] using hact
      obtain ⟨_, -, rfl⟩ := step_catchException.mp h
      simp at hr
    | setStopped r' =>
      obtain rfl : r' = r := by simpa [actingRun] using hact
      obtain ⟨-, rfl⟩ := step_setStopped.mp h
      simp at hr
    | _ => simp [actingRun] at hact
  · rcases thread_frame h hact with hsame | ⟨-, -, hentry⟩
    · exact .inl (hsame ▸ hr)
    · rw [hentry] at hr
      cases hr

theorem FlagAgrees.step {s t : BaseWorker C} {a : BaseAction C} (hi : SingleBody s)
    (hf : FlagAgrees s) (hok : StopsOutsideWindow s a) (h : s.step a = some t) :
    FlagAgrees t := by
  have hwindow : ∀ r, t.thread r = .setRunning →
      t.stopRequested = s.stopRequested → t.stopRequested = false := by
    intro r hr hsame
    rcases setRunning_of_step h hr with hold | hclear
    · exact hsame.trans (hf.window r hold)
    · exact hsame.trans hclear
  cases step_effect h with
  | quiet hstate' hflag _ _ _ =>
    refine ⟨fun hrun => ?_, fun r hr => hwindow r hr hflag, fun hst => ?_⟩
    · exact hflag.trans (hf.running (by simpa [isRunning, hstate'] using hrun))
    · exact hflag.trans (hf.stopping (hstate' ▸ hst))
  | launch _ _ _ _ _ _ hstate' hflag _ _ _ =>
    exact ⟨fun _ => hflag, fun _ _ => hflag, fun hst => by rw [hstate'] at hst; cases hst⟩
  | stop c hact hstate' hflag _ _ _ =>
    refine ⟨fun hrun => ?_, fun r hr => ?_, fun _ => hflag⟩
    · simp only [isRunning, hstate'] at hrun
      cases hm : s.mState <;> simp [hm, EnmState.onRequestStop] at hrun
    · -- a thread before `setState(Running)` is the latest one, where no request may fall
      subst hact
      obtain ⟨k, -, rfl⟩ := step_stopSection.mp h
      have hr' : s.thread r = .setRunning := hr
      have hlatest := hi.latest (runLive_of_thread (r := r) (by rw [hr']; decide))
      refine absurd ?_ hok
      rwa [show s.runs - 1 = r by omega]
  | running r hpc hstate' hflag _ _ _ =>
    have hclear := hf.window r hpc
    refine ⟨fun _ => hflag.trans hclear, fun _ _ => hflag.trans hclear, fun hst => ?_⟩
    rw [hstate'] at hst
    cases hst
  | finish _ _ _ hstate' hflag _ _ _ =>
    refine ⟨fun hrun => ?_, fun r hr => hwindow r hr hflag, fun hst => ?_⟩
    · simp [isRunning, hstate'] at hrun
    · rw [hstate'] at hst
      cases hst

theorem flagAgrees_of_reachable {s : BaseWorker C}
    (h : (baseSystem C).ReachableBy StopsOutsideWindow s) : FlagAgrees s :=
  ReachableBy.invariant ⟨fun _ => rfl, fun _ _ => rfl, fun h => by cases h⟩
    (fun _ _ _ hr hf hok hs => hf.step (singleBody_of_reachable hr) hok hs) h

/-- Where no request falls into the window, `Stopping` is only left for `Stopped`, and
once a run was told to stop `isRunning()` is false and no `startThread` reports success. -/
theorem shutdown_is_one_way {s t : BaseWorker C} {a : BaseAction C}
    (h : (baseSystem C).ReachableBy StopsOutsideWindow s) (hok : StopsOutsideWindow s a)
    (hs : s.step a = some t) :
    (s.mState = .stopping → t.mState = .stopping ∨ t.mState = .stopped) ∧
    (s.stopRequested = true → s.isRunning = false ∧
      ∀ c, a = .waitForStart c → ∃ k, t.caller c = .returned k false) := by
  have hf := flagAgrees_of_reachable h
  refine ⟨fun hst => ?_, fun hflag => ⟨?_, ?_⟩⟩
  · have hflag := hf.stopping hst
    cases step_effect hs with
    | quiet hstate' => exact .inl (hstate'.trans hst)
    | launch _ _ _ _ hstate => rw [hst] at hstate; cases hstate
    | stop _ _ hstate' => exact .inl (by rw [hstate', hst]; rfl)
    | running r hpc =>
      have hclear := hf.window r hpc
      rw [hflag] at hclear
      cases hclear
    | finish _ _ _ hstate' => exact .inr hstate'
  · by_contra hrun
    have hclear := hf.running (by simpa using hrun)
    rw [hflag] at hclear
    cases hclear
  · rintro c rfl
    obtain ⟨wait, -, rfl⟩ := step_waitForStart.mp hs
    refine ⟨.startThread wait, ?_⟩
    have hne : s.mState ≠ .running := by
      intro hrun
      have hclear := hf.running (by simp [isRunning, hrun])
      rw [hflag] at hclear
      cases hclear
    simp [hne]

/-- The run of `launchSchedule` reaches `Running` and is then asked to stop. -/
theorem shutdown_is_one_way_after_running :
    let s := (baseSystem Nat).after StopsOutsideWindow {} (launchSchedule ++
      .setRunning 0 :: requestSchedule)
    s.mState = .stopping ∧ s.isRunning = false ∧
      ∃ k, (s.setCaller 0 (.returned (.startThread true) (s.mState = .running))).caller 0 =
        .returned k false := by
  intro s
  have h := shutdown_is_one_way (s := s) (a := .waitForStart 0)
    (t := s.setCaller 0 (.returned (.startThread true) (s.mState = .running)))
    (reaches_after (by decide)) trivial rfl
  exact ⟨by decide, (h.2 (by decide)).1, (h.2 (by decide)).2 0 rfl⟩

/-- A request between the stop check and `setState(Running)` is overwritten: `Stopping`
is followed by `Running`. -/
theorem running_follows_stopping :
    ¬ ∀ (s t : BaseWorker Nat) (a : BaseAction Nat), (baseSystem Nat).Reachable s →
      s.step a = some t → s.mState = .stopping → t.mState = .stopping ∨ t.mState = .stopped := by
  intro hclaim
  let s := (baseSystem Nat).after Free {} (launchSchedule ++ requestSchedule)
  have h := hclaim s _ (.setRunning 0) (reaches_after (by decide)) rfl (by decide)
  revert h
  decide

end BaseWorker

end ThreadComponent
