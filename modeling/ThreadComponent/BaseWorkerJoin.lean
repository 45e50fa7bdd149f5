import ThreadComponent.DerivedWorker

/-!
# What stopThreadAndJoin waits for

A `stopThread` that gives up leaves the waiting to `joinThread`, which joins the thread it
finds in `m_thread`. It waits for the run if the thread is still there: another call that
came first has taken it along and joins it alone.
-/

set_option autoImplicit false
set_option linter.unusedSectionVars false

namespace ThreadComponent

open Transitions System

namespace BaseWorker
variable {C : Type} [DecidableEq C] {s t : BaseWorker C} {c : C} {r : Nat}

def ThreadLatest (s : BaseWorker C) : Prop := ∀ r, s.mThread = some r → r + 1 = s.runs

/-- What a step can do to `m_thread`: empty it, keep it or put the thread of a launch there. -/
theorem mThread_of_step {a : BaseAction C} (h : s.step a = some t) :
    t.mThread = none ∨ (t.mThread = s.mThread ∧ t.runs = s.runs) ∨
      (t.mThread = some s.runs ∧ t.runs = s.runs + 1) := by
  cases a with
  | startSection c created =>
    obtain ⟨wait, -, rfl⟩ := step_startSection.mp h
    by_cases hm : s.mState = .stopped ∧ s.mThread = none
    · cases created
      · rw [startSection_failed hm]
        exact .inl hm.2
      · rw [startSection_launched hm]
        exact .inr (.inr ⟨rfl, rfl⟩)
    · rw [startSection_refused hm]
      exact .inr (.inl ⟨rfl, rfl⟩)
  | joinFinished c =>
    obtain ⟨k, -, rfl⟩ := step_joinFinished.mp h
    unfold joinFinishedThread
    split
    · split
      · exact .inl rfl
      · exact .inr (.inl ⟨rfl, rfl⟩)
    · exact .inr (.inl ⟨rfl, rfl⟩)
  | joinThread c =>
    obtain ⟨k, -, rfl⟩ := step_joinThread.mp h
    unfold joinThread
    split
    · exact .inl rfl
    · exact .inr (.inl ⟨rfl, rfl⟩)
  | call c k => obtain ⟨-, rfl⟩ := step_call.mp h; exact .inr (.inl ⟨rfl, rfl⟩)
  | startCatch c => obtain ⟨_, _, -, rfl⟩ := step_startCatch.mp h; exact .inr (.inl ⟨rfl, rfl⟩)
  | waitForStart c => obtain ⟨_, -, rfl⟩ := step_waitForStart.mp h; exact .inr (.inl ⟨rfl, rfl⟩)
  | stopSection c => obtain ⟨_, -, rfl⟩ := step_stopSection.mp h; exact .inr (.inl ⟨rfl, rfl⟩)
  | stopTriggeredEnd c =>
    obtain ⟨_, -, rfl⟩ := step_stopTriggeredEnd.mp h
    exact .inr (.inl ⟨rfl, rfl⟩)
  | waitForStopped c =>
    obtain ⟨_, -, rfl⟩ := step_waitForStopped.mp h
    exact .inr (.inl ⟨rfl, rfl⟩)
  | joined c => obtain ⟨_, _, -, -, rfl⟩ := step_joined.mp h; exact .inr (.inl ⟨rfl, rfl⟩)
  | preRunBegin r => obtain ⟨-, rfl⟩ := step_preRunBegin.mp h; exact .inr (.inl ⟨rfl, rfl⟩)
  | preRunEnd r e => obtain ⟨-, rfl⟩ := step_preRunEnd.mp h; exact .inr (.inl ⟨rfl, rfl⟩)
  | checkStop r => obtain ⟨-, rfl⟩ := step_checkStop.mp h; exact .inr (.inl ⟨rfl, rfl⟩)
  | setRunning r => obtain ⟨-, rfl⟩ := step_setRunning.mp h; exact .inr (.inl ⟨rfl, rfl⟩)
  | runEnd r e => obtain ⟨-, rfl⟩ := step_runEnd.mp h; exact .inr (.inl ⟨rfl, rfl⟩)
  | catchException r =>
    obtain ⟨_, -, rfl⟩ := step_catchException.mp h
    exact .inr (.inl ⟨rfl, rfl⟩)
  | setStopped r => obtain ⟨-, rfl⟩ := step_setStopped.mp h; exact .inr (.inl ⟨rfl, rfl⟩)

theorem ThreadLatest.step {a : BaseAction C} (hx : ThreadLatest s) (h : s.step a = some t) :
    ThreadLatest t := by
  intro r hr
  rcases mThread_of_step h with hnone | ⟨hsame, hruns⟩ | ⟨hnew, hruns⟩
  · rw [hnone] at hr
    cases hr
  · rw [hruns]
    exact hx r (hsame ▸ hr)
  · rw [hnew] at hr
    cases hr
    exact hruns.symm

theorem threadLatest_of_reachable {ok : BaseWorker C → BaseAction C → Prop}
    (h : (baseSystem C).ReachableBy ok s) : ThreadLatest s :=
  ReachableBy.invariant (fun _ h => by cases h) (fun _ _ _ _ hx _ hs => hx.step hs) h

theorem exited_of_step {a : BaseAction C} (hu : Unborn s) (h : s.step a = some t)
    (hr : s.thread r = .exited) : t.thread r = .exited := by
  have hborn : r ≠ s.runs := by
    rintro rfl
    rw [hu _ (Nat.le_refl _)] at hr
    cases hr
  have hact : actingRun a ≠ some r := by
    intro hact
    have hlive := live_of_actingRun h hact
    rw [hr] at hlive
    exact hlive.2 rfl
  rcases thread_frame h hact with hsame | ⟨hnew, -⟩
  · exact hsame.trans hr
  · exact absurd hnew hborn

theorem exited_of_not_live {p : RunnerPc} (hborn : p ≠ .absent) (h : ¬ p.live) :
    p = .exited := by
  by_contra hne
  exact h ⟨hborn, hne⟩

theorem thread_of_acting {a : BaseAction C} (h : s.step a = some t)
    (hact : actingRun a = some r) : t.thread r ≠ .absent := by
  cases a with
  | preRunBegin r' =>
    obtain rfl : r' = r := by simpa [actingRun] using hact
    obtain ⟨-, rfl⟩ := step_preRunBegin.mp h
    simp
  | preRunEnd r' e =>
    obtain rfl : r' = r := by simpa [actingRun] using hact
    obtain ⟨-, rfl⟩ := step_preRunEnd.mp h
    rcases e with ⟨_ | _⟩ | e <;> simp [HookEnd.afterPreRun]
  | checkStop r' =>
    obtain rfl : r' = r := by simpa [actingRun] using hact
    obtain ⟨-, rfl⟩ := step_checkStop.mp h
    cases hf : s.stopRequested <;> simp
  | setRunning r' =>
    obtain rfl : r' = r := by simpa [actingRun] using hact
    obtain ⟨-, rfl⟩ := step_setRunning.mp h
    simp
  | runEnd r' e =>
    obtain rfl : r' = r := by simpa [actingRun] using hact
    obtain ⟨-, rfl⟩ := step_runEnd.mp h
    cases e <;> simp [HookEnd.afterRun]
  | catchException r' =>
    obtain rfl : r' = r := by simpa [actingRun] using hact
    obtain ⟨_, -, rfl⟩ := step_catchException.mp h
    simp
  | setStopped r' =>
    obtain rfl : r' = r := by simpa [actingRun] using hact
    obtain ⟨-, rfl⟩ := step_setStopped.mp h
    simp
  | _ => simp [actingRun] at hact

theorem born_of_step {a : BaseAction C} (h : s.step a = some t) (hr : s.thread r ≠ .absent) :
    t.thread r ≠ .absent := by
  by_cases hact : actingRun a = some r
  · exact thread_of_acting h hact
  · rcases thread_frame h hact with hsame | ⟨-, -, hentry⟩
    · rwa [hsame]
    · simp [hentry]

/-! ## A call of stopThreadAndJoin -/

/-- From where a `stopThreadAndJoin` still goes on to wait for run `r`. -/
def StillWaits (r : Nat) (p : CallerPc) : Prop :=
  p = .stopSection (.stopThreadAndJoin true) ∨ p = .stopTriggered (.stopThreadAndJoin true) ∨
    p = .waitForStopped (.stopThreadAndJoin true) ∨ p = .joinThread (.stopThreadAndJoin true) ∨
    p = .joining (.stopThreadAndJoin true) r

/-- The call by `c` waits for run `r`, unless that is over. -/
structure WaitsFor (c : C) (r : Nat) (s : BaseWorker C) : Prop where
  single : SingleBody s
  unborn : Unborn s
  latest : ThreadLatest s
  born : s.thread r ≠ .absent
  waits : s.thread r = .exited ∨ StillWaits r (s.caller c)

/-- Where `c` comes to `joinThread` while run `r` is live, the thread is there to be joined. -/
def FindsThread (c : C) (r : Nat) (s : BaseWorker C) (a : BaseAction C) : Prop :=
  a = .joinThread c → (s.thread r).live → s.mThread ≠ none

instance (c : C) (r : Nat) (s : BaseWorker C) (a : BaseAction C) :
    Decidable (FindsThread c r s a) := inferInstanceAs (Decidable (_ → _))

theorem waits_of_acting {a : BaseAction C} (hx : WaitsFor c r s) (hok : FindsThread c r s a)
    (h : s.step a = some t) (hact : actingCaller a = some c)
    (hwaits : StillWaits r (s.caller c)) : t.thread r = .exited ∨ StillWaits r (t.caller c) := by
  have hover : ¬ (s.thread r).live → t.thread r = .exited := fun hlive =>
    exited_of_step hx.unborn h (exited_of_not_live hx.born hlive)
  have hat := startsAt_of_acting h hact
  rcases hwaits with hc | hc | hc | hc | hc <;> rw [hc] at hat
  · obtain rfl := stopSection_of_acting h hc hact
    obtain ⟨k, hk, rfl⟩ := step_stopSection.mp h
    rw [hc] at hk
    cases hk
    refine .inr ?_
    unfold requestStopSection StillWaits
    split <;> simp [Call.afterRequestStop]
  · obtain rfl := stopTriggeredEnd_of_acting h hc hact
    obtain ⟨k, hk, rfl⟩ := step_stopTriggeredEnd.mp h
    rw [hc] at hk
    cases hk
    exact .inr (by simp [StillWaits, Call.afterRequestStop])
  · obtain rfl : a = .waitForStopped c := by
      cases a <;> simp_all [startsAt, actingCaller, CallerPc.free]
    obtain ⟨k, hk, ht⟩ := step_waitForStopped.mp h
    rw [hc] at hk
    cases hk
    by_cases hstate : s.mState = .stopped
    · exact .inl (hover fun hlive => hx.single.live_iff.mp ⟨r, runLive_of_thread hlive⟩ hstate)
    · exact .inr (by simp [ht, hstate, StillWaits, Call.afterTimeout])
  · obtain rfl : a = .joinThread c := by
      cases a <;> simp_all [startsAt, actingCaller, CallerPc.free]
    obtain ⟨k, hk, ht⟩ := step_joinThread.mp h
    rw [hc] at hk
    cases hk
    by_cases hlive : (s.thread r).live
    · -- the thread in `m_thread` is that of the latest run, which is `r`
      obtain ⟨r', hr'⟩ := Option.ne_none_iff_exists'.mp (hok rfl hlive)
      have hlatest := hx.latest r' hr'
      have hrun := hx.single.latest (runLive_of_thread hlive)
      obtain rfl : r' = r := by omega
      exact .inr (by simp [ht, BaseWorker.joinThread, hr', StillWaits])
    · exact .inl (hover hlive)
  · obtain rfl : a = .joined c := by
      cases a <;> simp_all [startsAt, actingCaller, CallerPc.free]
    obtain ⟨k, r', hk, hexited, -⟩ := step_joined.mp h
    rw [hc] at hk
    cases hk
    exact .inl (exited_of_step hx.unborn h hexited)

theorem WaitsFor.step {a : BaseAction C} (hx : WaitsFor c r s) (hok : FindsThread c r s a)
    (h : s.step a = some t) : WaitsFor c r t where
  single := hx.single.effect (step_effect h)
  unborn := hx.unborn.step h
  latest := hx.latest.step h
  born := born_of_step h hx.born
  waits := by
    rcases hx.waits with hexited | hwaits
    · exact .inl (exited_of_step hx.unborn h hexited)
    · by_cases hact : actingCaller a = some c
      · exact waits_of_acting hx hok h hact hwaits
      · exact .inr (by rwa [caller_frame h hact])

theorem not_free_of_stillWaits {p : CallerPc} (h : StillWaits r p) : p.free = false := by
  rcases h with rfl | rfl | rfl | rfl | rfl <;> rfl

/-- A `stopThreadAndJoin` with a non-zero timeout that begins while run `r` is live returns
behind the final `setState(Stopped)` of `r`, if its `joinThread` finds the thread of `r` as
long as `r` is live. Where it does not, the call returns at once. -/
theorem stopThreadAndJoin_waits {c : C} {r : Nat} :
    (∀ s t u : BaseWorker C, (baseSystem C).Reachable s → (s.thread r).live →
      s.step (.call c (.stopThreadAndJoin true)) = some t →
      (baseSystem C).Reaches (FindsThread c r) t u → (u.caller c).free = true →
      u.thread r = .exited) ∧
    ∀ s t : BaseWorker C, s.caller c = .joinThread (.stopThreadAndJoin true) →
      s.step (.joinThread c) = some t → (s.thread r).live →
      ¬ FindsThread c r s (.joinThread c) →
      t.caller c = .returned (.stopThreadAndJoin true) true ∧ (t.thread r).live := by
  refine ⟨fun s t u hr hlive hcall hrun hfree => ?_, fun s t hc h hlive hnot => ?_⟩
  · have hborn : t.thread r ≠ .absent := born_of_step hcall hlive.1
    have ht : WaitsFor c r t := by
      refine ⟨(singleBody_of_reachable hr).effect (step_effect hcall),
        (unborn_of_reachable hr).step hcall, (threadLatest_of_reachable hr).step hcall, hborn, ?_⟩
      obtain ⟨-, rfl⟩ := step_call.mp hcall
      exact .inr (by simp [StillWaits, Call.entry])
    have hu := hrun.keeps (fun _ _ _ hx hok hs => hx.step hok hs) ht
    rcases hu.waits with hexited | hwaits
    · exact hexited
    · rw [not_free_of_stillWaits hwaits] at hfree
      cases hfree
  · obtain ⟨k, hk, rfl⟩ := step_joinThread.mp h
    rw [hc] at hk
    cases hk
    have hnone : s.mThread = none := by
      by_contra hne
      exact hnot fun _ _ => hne
    simp [BaseWorker.joinThread, hnone, Call.afterJoin, hlive]

def runningSchedule : List (BaseAction Nat) := launchSchedule.concat (.setRunning 0)

/-- The rest of a `stopThreadAndJoin` that gives up waiting, up to its join. -/
def givenUpSchedule (c : Nat) : List (BaseAction Nat) :=
  [.stopSection c, .stopTriggeredEnd c, .waitForStopped c, .joinThread c]

def joinedSchedule : List (BaseAction Nat) :=
  [.runEnd 0 (.value true), .setStopped 0, .joined 1]

/-- Caller 1 gives up and joins the thread. -/
theorem stopThreadAndJoin_waits_given_up :
    let S := baseSystem Nat
    let s := S.after Free {} runningSchedule
    let t := s.setCaller 1 (.stopSection (.stopThreadAndJoin true))
    let u := S.after (FindsThread 1 0) t (givenUpSchedule 1 ++ joinedSchedule)
    u.caller 1 = .returned (.stopThreadAndJoin true) true ∧ u.thread 0 = .exited := by
  intro S s t u
  exact ⟨by decide, stopThreadAndJoin_waits.1 s t u (reaches_after (by decide)) (by decide)
    rfl (reaches_after (by decide)) (by decide)⟩

/-- Caller 2 comes to `joinThread` behind caller 1: it returns while the run goes on. -/
theorem second_join_does_not_wait :
    ¬ ∀ (c : Nat) (r : Nat) (s t u : BaseWorker Nat), (baseSystem Nat).Reachable s →
      (s.thread r).live → s.step (.call c (.stopThreadAndJoin true)) = some t →
      (baseSystem Nat).Reaches Free t u → (u.caller c).free = true → u.thread r = .exited := by
  intro hclaim
  let S := baseSystem Nat
  let s := S.after Free {} (runningSchedule.concat (.call 1 (.stopThreadAndJoin true)) ++
    givenUpSchedule 1)
  have h := hclaim 2 0 s (s.setCaller 2 (.stopSection (.stopThreadAndJoin true)))
    (S.after Free (s.setCaller 2 (.stopSection (.stopThreadAndJoin true))) (givenUpSchedule 2))
    (reaches_after (by decide)) (by decide) rfl (reaches_after (by decide)) (by decide)
  revert h
  decide

end BaseWorker

end ThreadComponent
