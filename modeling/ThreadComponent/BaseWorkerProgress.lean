import ThreadComponent.BaseWorkerJoin
import ThreadComponent.Termination

/-!
# Every call and every run ends

Once no more calls are made, the calls that are in progress and the run that is live need a
bounded number of steps, in whatever order they take them, and they are never stuck before
they are done. A hook may last as long as it likes, but it ends.
-/

set_option autoImplicit false
set_option linter.unusedSectionVars false

namespace ThreadComponent

open Transitions System

/-- The most steps that a calling thread still takes, with those of a run that it launches. -/
def CallerPc.rank : CallerPc → Nat
  | .idle | .returned _ _ => 0
  | .waitForStart _ | .startCatch _ _ => 1
  | .startSection _ => 9
  | .joining _ _ => 10
  | .joinFinished _ | .joinThread _ => 11
  | .waitForStopped _ => 12
  | .stopTriggered _ => 13
  | .stopSection _ => 14

/-- The most steps that the thread of a run still takes. -/
def RunnerPc.rank : RunnerPc → Nat
  | .absent | .exited => 0
  | .setStopped => 1
  | .catching _ => 2
  | .run => 3
  | .setRunning => 4
  | .checkStop => 5
  | .preRun => 6
  | .entry => 7

theorem RunnerPc.rank_le (p : RunnerPc) : p.rank ≤ 7 := by
  cases p <;> simp [rank]

theorem CallerPc.rank_of_free {p : CallerPc} (h : p.free = true) : p.rank = 0 := by
  cases p <;> simp_all [free, rank]

theorem Call.rank_afterJoin (k : Call) : k.afterJoin.rank ≤ 9 := by
  cases k <;> simp [Call.afterJoin, CallerPc.rank]

theorem Call.rank_afterTimeout (k : Call) : k.afterTimeout.rank ≤ 11 := by
  cases k <;> simp [Call.afterTimeout, CallerPc.rank]

theorem Call.rank_afterRequestStop (k : Call) : k.afterRequestStop.rank ≤ 12 := by
  unfold Call.afterRequestStop
  split <;> simp [CallerPc.rank]

def BaseAction.isCall {C : Type} : BaseAction C → Bool
  | .call _ _ => true
  | _ => false

namespace BaseWorker
variable {C : Type} [DecidableEq C] {s t : BaseWorker C} {a : BaseAction C} {c : C}
  {busy : Finset C}

def Inner (_ : BaseWorker C) (a : BaseAction C) : Prop := a.isCall = false

instance (s : BaseWorker C) (a : BaseAction C) : Decidable (Inner s a) :=
  inferInstanceAs (Decidable (_ = _))

/-- No thread is inside a member function, and no run is live. -/
structure AtRest (s : BaseWorker C) : Prop where
  callers : ∀ c, (s.caller c).free = true
  threads : ∀ r, ¬ (s.thread r).live
  stopped : s.mState = .stopped

/-- A thread that is joined, or may be joined, has begun. -/
structure Joinable (s : BaseWorker C) : Prop where
  member : ∀ r, s.mThread = some r → s.thread r ≠ .absent
  joining : ∀ c k r, s.caller c = .joining k r → s.thread r ≠ .absent

/-- All that `busy` and the latest run have still to do. -/
def rank (busy : Finset C) (s : BaseWorker C) : Nat :=
  s.current.rank + ∑ c ∈ busy, (s.caller c).rank

/-- What holds while the members of `busy` are the only threads inside member functions. -/
structure Settling (busy : Finset C) (s : BaseWorker C) : Prop where
  single : SingleBody s
  unborn : Unborn s
  joinable : Joinable s
  idle : ∀ c, c ∉ busy → (s.caller c).free = true

/-! ## Threads to be joined -/

theorem entry_of_launch (h : s.step a = some t) (hthread : t.mThread = some s.runs)
    (hruns : t.runs = s.runs + 1) : t.thread s.runs = .entry := by
  cases step_effect h with
  | launch c created hact _ hstate hnone =>
    subst hact
    obtain ⟨wait, -, rfl⟩ := step_startSection.mp h
    cases created with
    | true =>
      rw [startSection_launched ⟨hstate, hnone⟩]
      simp
    | false =>
      rw [startSection_failed ⟨hstate, hnone⟩] at hthread
      rw [show (s.beginRun.setCaller c (.startCatch wait s.runs)).mThread = s.mThread from rfl,
        hnone] at hthread
      cases hthread
  | stop _ _ _ _ hsame => omega
  | running _ _ _ _ hsame => omega
  | finish _ _ _ _ _ hsame => omega
  | quiet _ _ hsame => omega

/-- Who begins to join a thread has found it in `m_thread`. -/
theorem joining_of_step {k : Call} {r : Nat} (h : s.step a = some t)
    (hc : t.caller c = .joining k r) : s.caller c = .joining k r ∨ s.mThread = some r := by
  by_cases hact : actingCaller a = some c
  · right
    have hat := startsAt_of_acting h hact
    cases a with
    | joinFinished d =>
      obtain rfl : d = c := by simpa [actingCaller] using hact
      obtain ⟨k', -, rfl⟩ := step_joinFinished.mp h
      unfold joinFinishedThread at hc
      split at hc
      · rename_i r' hr'
        split at hc
        · simp only [setCaller_caller, Function.update_self, CallerPc.joining.injEq] at hc
          rw [hr', hc.2]
        · cases k' <;> simp [Call.afterJoin] at hc
      · cases k' <;> simp [Call.afterJoin] at hc
    | joinThread d =>
      obtain rfl : d = c := by simpa [actingCaller] using hact
      obtain ⟨k', -, rfl⟩ := step_joinThread.mp h
      unfold BaseWorker.joinThread at hc
      split at hc
      · rename_i r' hr'
        simp only [setCaller_caller, Function.update_self, CallerPc.joining.injEq] at hc
        rw [hr', hc.2]
      · cases k' <;> simp [Call.afterJoin] at hc
    | call d k' =>
      obtain rfl : d = c := by simpa [actingCaller] using hact
      obtain ⟨-, rfl⟩ := step_call.mp h
      cases k' <;> simp [Call.entry] at hc
    | startSection d created =>
      obtain rfl : d = c := by simpa [actingCaller] using hact
      obtain ⟨wait, -, rfl⟩ := step_startSection.mp h
      unfold BaseWorker.startSection at hc
      cases wait <;> cases created <;> cases hm : s.mayStart <;> simp [hm] at hc
    | startCatch d =>
      obtain rfl : d = c := by simpa [actingCaller] using hact
      obtain ⟨_, _, -, rfl⟩ := step_startCatch.mp h
      simp at hc
    | waitForStart d =>
      obtain rfl : d = c := by simpa [actingCaller] using hact
      obtain ⟨_, -, rfl⟩ := step_waitForStart.mp h
      simp at hc
    | stopSection d =>
      obtain rfl : d = c := by simpa [actingCaller] using hact
      obtain ⟨k', -, rfl⟩ := step_stopSection.mp h
      unfold requestStopSection Call.afterRequestStop at hc
      split at hc
      · simp at hc
      · split at hc <;> simp at hc
    | stopTriggeredEnd d =>
      obtain rfl : d = c := by simpa [actingCaller] using hact
      obtain ⟨k', -, rfl⟩ := step_stopTriggeredEnd.mp h
      unfold Call.afterRequestStop at hc
      split at hc <;> simp at hc
    | waitForStopped d =>
      obtain rfl : d = c := by simpa [actingCaller] using hact
      obtain ⟨k', -, rfl⟩ := step_waitForStopped.mp h
      cases k' <;> cases hm : decide (s.mState = .stopped) <;>
        simp_all [Call.afterTimeout]
    | joined d =>
      obtain rfl : d = c := by simpa [actingCaller] using hact
      obtain ⟨k', _, -, -, rfl⟩ := step_joined.mp h
      cases k' <;> simp [Call.afterJoin] at hc
    | _ => simp [actingCaller] at hact
  · exact .inl (by rwa [caller_frame h hact] at hc)

theorem Joinable.step (hj : Joinable s) (h : s.step a = some t) : Joinable t where
  member := by
    intro r hr
    rcases mThread_of_step h with hnone | ⟨hsame, -⟩ | ⟨hnew, hruns⟩
    · rw [hnone] at hr
      cases hr
    · exact born_of_step h (hj.member r (hsame ▸ hr))
    · obtain rfl : s.runs = r := by rw [hnew] at hr; exact Option.some.inj hr
      rw [entry_of_launch h hnew hruns]
      decide
  joining := by
    intro c k r hc
    rcases joining_of_step h hc with hbefore | hfound
    · exact born_of_step h (hj.joining c k r hbefore)
    · exact born_of_step h (hj.member r hfound)

theorem joinable_of_reachable {ok : BaseWorker C → BaseAction C → Prop}
    (h : (baseSystem C).ReachableBy ok s) : Joinable s := by
  refine ReachableBy.invariant ⟨?_, ?_⟩ (fun _ _ _ _ hj _ hs => hj.step hs) h
  · intro r hr
    cases hr
  · intro c k r hc
    cases hc

/-! ## Every step lowers the rank -/

theorem startSection_rank_le {wait created : Bool} :
    ((s.startSection c wait created).caller c).rank ≤ 1 := by
  by_cases hm : s.mState = .stopped ∧ s.mThread = none
  · cases created
    · simp [startSection_failed hm, CallerPc.rank]
    · cases wait <;> simp [startSection_launched hm, CallerPc.rank]
  · simp [startSection_refused hm, CallerPc.rank]

theorem joinFinishedThread_rank_le (k : Call) :
    ((s.joinFinishedThread c k).caller c).rank ≤ 10 := by
  have hle := k.rank_afterJoin
  unfold joinFinishedThread
  split
  · split
    · simp [CallerPc.rank]
    · simp only [setCaller_caller, Function.update_self]
      omega
  · simp only [setCaller_caller, Function.update_self]
    omega

theorem joinThread_rank_le (k : Call) : ((s.joinThread c k).caller c).rank ≤ 10 := by
  have hle := k.rank_afterJoin
  unfold BaseWorker.joinThread
  split
  · simp [CallerPc.rank]
  · simp only [setCaller_caller, Function.update_self]
    omega

theorem requestStopSection_rank_le (k : Call) :
    ((s.requestStopSection c k).caller c).rank ≤ 13 := by
  have hle := k.rank_afterRequestStop
  simp only [requestStopSection, setCaller_caller, Function.update_self]
  split
  · simp [CallerPc.rank]
  · omega

/-- A thread inside a member function comes closer to its return. Only a launch adds the
steps of a run, and the caller is left with few. -/
theorem rank_of_actingCaller (hact : actingCaller a = some c) (hin : Inner s a)
    (h : s.step a = some t) :
    t.current.rank + (t.caller c).rank < s.current.rank + (s.caller c).rank := by
  by_cases hstart : ∃ created, a = .startSection c created
  · obtain ⟨created, rfl⟩ := hstart
    obtain ⟨wait, hc, ht⟩ := step_startSection.mp h
    have hcaller : (t.caller c).rank ≤ 1 := ht ▸ startSection_rank_le
    have hcurrent := t.current.rank_le
    have hbefore : (s.caller c).rank = 9 := by rw [hc]; rfl
    omega
  · have hcurrent : t.current = s.current := by
      apply current_of_other h
      · cases a <;> simp_all [actingCaller, actingRun]
      · rintro d created rfl
        obtain rfl : d = c := by simpa [actingCaller] using hact
        exact hstart ⟨created, rfl⟩
    rw [hcurrent]
    apply Nat.add_lt_add_left
    cases a with
    | call d k => simp [Inner, BaseAction.isCall] at hin
    | joinFinished d =>
      obtain rfl : d = c := by simpa [actingCaller] using hact
      obtain ⟨k, hc, rfl⟩ := step_joinFinished.mp h
      rw [hc]
      exact Nat.lt_of_le_of_lt (joinFinishedThread_rank_le k) (by simp [CallerPc.rank])
    | startSection d created =>
      obtain rfl : d = c := by simpa [actingCaller] using hact
      exact absurd ⟨created, rfl⟩ hstart
    | startCatch d =>
      obtain rfl : d = c := by simpa [actingCaller] using hact
      obtain ⟨_, _, hc, rfl⟩ := step_startCatch.mp h
      simp [hc, CallerPc.rank]
    | waitForStart d =>
      obtain rfl : d = c := by simpa [actingCaller] using hact
      obtain ⟨_, hc, rfl⟩ := step_waitForStart.mp h
      simp [hc, CallerPc.rank]
    | stopSection d =>
      obtain rfl : d = c := by simpa [actingCaller] using hact
      obtain ⟨k, hc, rfl⟩ := step_stopSection.mp h
      rw [hc]
      exact Nat.lt_of_le_of_lt (requestStopSection_rank_le k) (by simp [CallerPc.rank])
    | stopTriggeredEnd d =>
      obtain rfl : d = c := by simpa [actingCaller] using hact
      obtain ⟨k, hc, rfl⟩ := step_stopTriggeredEnd.mp h
      rw [hc, setCaller_caller, Function.update_self]
      exact Nat.lt_of_le_of_lt k.rank_afterRequestStop (by simp [CallerPc.rank])
    | waitForStopped d =>
      obtain rfl : d = c := by simpa [actingCaller] using hact
      obtain ⟨k, hc, rfl⟩ := step_waitForStopped.mp h
      rw [hc, setCaller_caller, Function.update_self]
      split
      · simp [CallerPc.rank]
      · exact Nat.lt_of_le_of_lt k.rank_afterTimeout (by simp [CallerPc.rank])
    | joinThread d =>
      obtain rfl : d = c := by simpa [actingCaller] using hact
      obtain ⟨k, hc, rfl⟩ := step_joinThread.mp h
      rw [hc]
      exact Nat.lt_of_le_of_lt (joinThread_rank_le k) (by simp [CallerPc.rank])
    | joined d =>
      obtain rfl : d = c := by simpa [actingCaller] using hact
      obtain ⟨k, r, hc, -, rfl⟩ := step_joined.mp h
      rw [hc, setCaller_caller, Function.update_self]
      exact Nat.lt_of_le_of_lt k.rank_afterJoin (by simp [CallerPc.rank])
    | _ => simp [actingCaller] at hact

theorem rank_of_actingRun {r : Nat} (hi : SingleBody s) (hu : Unborn s)
    (hact : actingRun a = some r) (h : s.step a = some t) :
    t.current.rank < s.current.rank := by
  cases moves_of_step hi hu h with
  | rest hnone =>
    rw [hnone] at hact
    cases hact
  | launch => simp [actingRun] at hact
  | preRunBegin _ hfrom hto => simp [hfrom, hto, RunnerPc.rank]
  | preRunEnd _ e hfrom hto =>
    rcases e with ⟨_ | _⟩ | e <;> simp [hfrom, hto, HookEnd.afterPreRun, RunnerPc.rank]
  | checkStop _ hfrom hto =>
    rw [hfrom, hto]
    split <;> simp [RunnerPc.rank]
  | setRunning _ hfrom hto => simp [hfrom, hto, RunnerPc.rank]
  | runEnd _ e hfrom hto => cases e <;> simp [hfrom, hto, HookEnd.afterRun, RunnerPc.rank]
  | catchException _ e hfrom hto => simp [hfrom, hto, RunnerPc.rank]
  | setStopped _ hfrom hto => simp [hfrom, hto, RunnerPc.rank]

/-- A step is that of a run's thread or that of a calling thread. -/
theorem acting (a : BaseAction C) : (∃ r, actingRun a = some r) ∨
    (∃ c, actingCaller a = some c ∧ actingRun a = none) := by
  cases a <;> simp [actingRun, actingCaller]

theorem Settling.busy_of_acting (hs : Settling busy s) (hin : Inner s a)
    (hact : actingCaller a = some c) (h : s.step a = some t) : c ∈ busy := by
  by_contra hout
  have hfree := hs.idle c hout
  have hat := startsAt_of_acting h hact
  cases a with
  | call => simp [Inner, BaseAction.isCall] at hin
  | _ =>
    revert hat hfree
    cases s.caller c <;> simp [startsAt, CallerPc.free]

theorem Settling.step (hs : Settling busy s) (hin : Inner s a) (h : s.step a = some t) :
    Settling busy t where
  single := hs.single.effect (step_effect h)
  unborn := hs.unborn.step h
  joinable := hs.joinable.step h
  idle := by
    intro c hout
    have hacts : actingCaller a ≠ some c := fun hact => hout (hs.busy_of_acting hin hact h)
    rw [caller_frame h hacts]
    exact hs.idle c hout

theorem Settling.rank_lt (hs : Settling busy s) (hin : Inner s a) (h : s.step a = some t) :
    rank busy t < rank busy s := by
  unfold rank
  rcases acting a with ⟨r, hact⟩ | ⟨c, hact, -⟩
  · have hlower := rank_of_actingRun hs.single hs.unborn hact h
    have hsame : t.caller = s.caller := by
      funext c
      apply caller_frame h
      cases a <;> simp_all [actingRun, actingCaller]
    rw [hsame]
    exact Nat.add_lt_add_right hlower _
  · have hmem := hs.busy_of_acting hin hact h
    have hlower := rank_of_actingCaller hact hin h
    have hsum := sum_add_of_frame (f := fun d => (s.caller d).rank)
      (g := fun d => (t.caller d).rank) hmem fun d hd => by
        rw [caller_frame h]
        rw [hact]
        exact fun he => hd (Option.some.inj he).symm
    omega

theorem ranked (busy : Finset C) : Ranked (baseSystem C) Inner (Settling busy) (rank busy) where
  keeps _ _ _ hs hin h := hs.step hin h
  lowers _ _ _ hs hin h := hs.rank_lt hin h

/-- Only finitely many threads are inside member functions. -/
theorem settling_of_reachable {ok : BaseWorker C → BaseAction C → Prop}
    (h : (baseSystem C).ReachableBy ok s) : ∃ busy, Settling busy s := by
  suffices hbusy : ∃ busy : Finset C, ∀ c, c ∉ busy → (s.caller c).free = true by
    obtain ⟨busy, hidle⟩ := hbusy
    exact ⟨busy, singleBody_of_reachable h, unborn_of_reachable h, joinable_of_reachable h, hidle⟩
  refine ReachableBy.invariant
    (P := fun s => ∃ busy : Finset C, ∀ c, c ∉ busy → (s.caller c).free = true) ?_ ?_ h
  · exact ⟨∅, fun _ _ => rfl⟩
  · rintro s a t - ⟨busy, hidle⟩ - hs
    have hstill : ∀ c, (∀ k, a ≠ .call c k) → c ∉ busy → (t.caller c).free = true := by
      intro c hcall hout
      by_contra hbusy
      rcases busy_of_step hs (by simpa using hbusy) with ⟨k, rfl⟩ | hbefore
      · exact hcall k rfl
      · rw [hidle c hout] at hbefore
        cases hbefore
    by_cases hcall : ∃ d k, a = .call d k
    · obtain ⟨d, k, rfl⟩ := hcall
      refine ⟨insert d busy, fun c hout => ?_⟩
      rw [Finset.mem_insert, not_or] at hout
      exact hstill c (fun k' he => hout.1 (BaseAction.call.inj he).1.symm) hout.2
    · exact ⟨busy, fun c => hstill c fun k he => hcall ⟨c, k, he⟩⟩

/-! ## Nobody is stuck -/

theorem thread_enabled {r : Nat} (hlive : (s.thread r).live) :
    ∃ a, Inner s a ∧ s.step a ≠ none := by
  cases hr : s.thread r with
  | absent => exact absurd hr hlive.1
  | exited => exact absurd hr hlive.2
  | entry => exact ⟨.preRunBegin r, rfl, by simp [BaseWorker.step, hr]⟩
  | preRun => exact ⟨.preRunEnd r (.value true), rfl, by simp [BaseWorker.step, hr]⟩
  | checkStop => exact ⟨.checkStop r, rfl, by simp [BaseWorker.step, hr]⟩
  | setRunning => exact ⟨.setRunning r, rfl, by simp [BaseWorker.step, hr]⟩
  | run => exact ⟨.runEnd r (.value true), rfl, by simp [BaseWorker.step, hr]⟩
  | catching e => exact ⟨.catchException r, rfl, by simp [BaseWorker.step, hr]⟩
  | setStopped => exact ⟨.setStopped r, rfl, by simp [BaseWorker.step, hr]⟩

/-- A caller waits for nothing but the thread that it joins. -/
theorem caller_enabled (hbusy : (s.caller c).free = false)
    (hjoin : ∀ k r, s.caller c = .joining k r → s.thread r = .exited) :
    ∃ a, Inner s a ∧ s.step a ≠ none := by
  cases hc : s.caller c with
  | idle => simp [hc, CallerPc.free] at hbusy
  | returned k b => simp [hc, CallerPc.free] at hbusy
  | joinFinished k => exact ⟨.joinFinished c, rfl, by simp [BaseWorker.step, hc]⟩
  | startSection wait => exact ⟨.startSection c true, rfl, by simp [BaseWorker.step, hc]⟩
  | startCatch wait r => exact ⟨.startCatch c, rfl, by simp [BaseWorker.step, hc]⟩
  | waitForStart wait => exact ⟨.waitForStart c, rfl, by simp [BaseWorker.step, hc]⟩
  | stopSection k => exact ⟨.stopSection c, rfl, by simp [BaseWorker.step, hc]⟩
  | stopTriggered k => exact ⟨.stopTriggeredEnd c, rfl, by simp [BaseWorker.step, hc]⟩
  | waitForStopped k => exact ⟨.waitForStopped c, rfl, by simp [BaseWorker.step, hc]⟩
  | joinThread k => exact ⟨.joinThread c, rfl, by simp [BaseWorker.step, hc]⟩
  | joining k r => exact ⟨.joined c, rfl, by simp [BaseWorker.step, hc, hjoin k r hc]⟩

/-- A worker with no caller inside and no live run is Stopped. -/
theorem atRest_of_quiet (hi : SingleBody s) (hcallers : ∀ c, (s.caller c).free = true)
    (hthreads : ∀ r, ¬ (s.thread r).live) : AtRest s := by
  refine ⟨hcallers, hthreads, ?_⟩
  by_contra hstate
  obtain ⟨r, holder, hholds⟩ := hi.live_iff.mpr hstate
  cases holder with
  | thread r' => exact hthreads r hholds.2
  | starter c =>
    obtain ⟨wait, hc⟩ := hholds
    have hfree := hcallers c
    simp [hc, CallerPc.free] at hfree

theorem Settling.atRest (hs : Settling busy s) (hstill : (baseSystem C).Still Inner s) :
    AtRest s := by
  have hnot : ¬ ∃ a, Inner s a ∧ s.step a ≠ none := fun ⟨a, hin, hne⟩ => hne (hstill a hin)
  have hthreads : ∀ r, ¬ (s.thread r).live := fun r hlive => hnot (thread_enabled hlive)
  have hcallers : ∀ c, (s.caller c).free = true := by
    intro c
    by_contra hbusy
    apply hnot
    apply caller_enabled (by simpa using hbusy)
    intro k r hc
    exact exited_of_not_live (hs.joinable.joining c k r hc) (hthreads r)
  exact atRest_of_quiet hs.single hcallers hthreads

/-- From every reachable state on, the threads inside member functions and the live run take
a bounded number of steps, however they are interleaved. They stop only where every call has
returned and no run is live, and they can get there. -/
theorem calls_and_runs_end (h : (baseSystem C).Reachable s) :
    (∃ n, ∀ as t, (baseSystem C).replay Inner s as = some t → as.length ≤ n) ∧
      (∀ t, (baseSystem C).Reaches Inner s t → (baseSystem C).Still Inner t → AtRest t) ∧
      ∃ t, (baseSystem C).Reaches Inner s t ∧ AtRest t := by
  obtain ⟨busy, hs⟩ := settling_of_reachable h
  refine ⟨⟨rank busy s, fun as t hrun => ?_⟩, fun t hrun hstill => ?_, ?_⟩
  · have hle := (ranked busy).length_le hs hrun
    omega
  · exact (hrun.keeps (ranked busy).keeps hs).atRest hstill
  · obtain ⟨t, hrun, ht, hstill⟩ := (ranked busy).exists_still hs
    exact ⟨t, hrun, ht.atRest hstill⟩

/-- While a run is in its hook, one caller waits for it and another one joins its thread. -/
theorem calls_and_runs_end_of_joined :
    let s := (baseSystem Nat).after Free {} (runningSchedule ++
      .call 1 (.stopThreadAndJoin true) :: givenUpSchedule 1 ++
      [.call 2 (.stopThread true), .stopSection 2, .stopTriggeredEnd 2])
    s.caller 1 = .joining (.stopThreadAndJoin true) 0 ∧
      s.caller 2 = .waitForStopped (.stopThread true) ∧
      ∃ t, (baseSystem Nat).Reaches Inner s t ∧ AtRest t := by
  intro s
  have h : (baseSystem Nat).Reachable s := reaches_after (by decide)
  exact ⟨by decide, by decide, (calls_and_runs_end h).2.2⟩

end BaseWorker

end ThreadComponent
