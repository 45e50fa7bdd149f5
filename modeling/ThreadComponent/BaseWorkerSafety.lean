import ThreadComponent.BaseWorkerSteps

/-!
# One worker body at a time

A begun run is held by its own thread, from the entry of `threadRunner` to the final
`setState(Stopped)`, or, when creating the thread failed, by the `startThread` call
that has still to set `Stopped`. Every step is classified once by what it does to the
lifecycle state, the stop flag and the holders; all run-wide facts follow from that.
-/

set_option autoImplicit false
set_option linter.unusedSectionVars false

namespace ThreadComponent

open Transitions System

namespace BaseWorker
variable {C : Type} [DecidableEq C]

inductive Holder (C : Type) where
  | thread (r : Nat)
  | starter (c : C)

/-- `h` is the one that still has to set `Stopped` for run `r`. -/
def Holds (s : BaseWorker C) : Holder C → Nat → Prop
  | .thread r', r => r' = r ∧ (s.thread r).live
  | .starter c, r => ∃ wait, s.caller c = .startCatch wait r

def RunLive (s : BaseWorker C) (r : Nat) : Prop := ∃ h, s.Holds h r

def CallerPc.IsCatch (p : CallerPc) : Prop := ∃ wait r, p = .startCatch wait r

@[simp] theorem isCatch_startCatch (wait : Bool) (r : Nat) :
    CallerPc.IsCatch (.startCatch wait r) := ⟨wait, r, rfl⟩

@[simp] theorem not_isCatch_entry (k : Call) : ¬ CallerPc.IsCatch k.entry := by
  rintro ⟨wait, r, h⟩
  cases k <;> simp [Call.entry] at h

@[simp] theorem not_isCatch_afterJoin (k : Call) : ¬ CallerPc.IsCatch k.afterJoin := by
  rintro ⟨wait, r, h⟩
  cases k <;> simp [Call.afterJoin] at h

@[simp] theorem not_isCatch_afterTimeout (k : Call) : ¬ CallerPc.IsCatch k.afterTimeout := by
  rintro ⟨wait, r, h⟩
  cases k <;> simp [Call.afterTimeout] at h

@[simp] theorem not_isCatch_afterRequestStop (k : Call) :
    ¬ CallerPc.IsCatch k.afterRequestStop := by
  rintro ⟨wait, r, h⟩
  unfold Call.afterRequestStop at h
  split at h <;> simp at h

/-- Moving a caller between points outside the handler of `startThread` changes no holder. -/
theorem holds_setCaller {s : BaseWorker C} {c : C} {p : CallerPc}
    (hold : ¬ CallerPc.IsCatch (s.caller c)) (hnew : ¬ CallerPc.IsCatch p)
    (h : Holder C) (r : Nat) : (s.setCaller c p).Holds h r ↔ s.Holds h r := by
  cases h with
  | thread r' => rfl
  | starter d =>
    by_cases hd : d = c
    · subst hd
      constructor
      · rintro ⟨wait, hw⟩
        exact absurd ⟨wait, r, by simpa [setCaller] using hw⟩ hnew
      · rintro ⟨wait, hw⟩
        exact absurd ⟨wait, r, hw⟩ hold
    · simp [Holds, setCaller, Function.update_of_ne hd]

/-- Moving a thread between points on the same side of its life changes no holder. -/
theorem holds_setThread {s : BaseWorker C} {r₀ : Nat} {p : RunnerPc}
    (hlive : (s.thread r₀).live) (hnew : p.live) (h : Holder C) (r : Nat) :
    (s.setThread r₀ p).Holds h r ↔ s.Holds h r := by
  cases h with
  | starter c => rfl
  | thread r' =>
    by_cases hr : r = r₀
    · subst hr
      simp [Holds, setThread, hlive, hnew]
    · simp [Holds, setThread, Function.update_of_ne hr]

inductive Effect (s : BaseWorker C) (a : BaseAction C) (t : BaseWorker C) : Prop where
  | launch (c : C) (created : Bool) (hact : a = .startSection c created) (h : Holder C)
      (hstate : s.mState = .stopped) (hthread : s.mThread = none)
      (hstate' : t.mState = .starting) (hflag : t.mStopRequested = false)
      (hruns : t.runs = s.runs + 1) (hterm : t.terminated = s.terminated)
      (hholds : ∀ k r, t.Holds k r ↔ s.Holds k r ∨ (k = h ∧ r = s.runs)) : Effect s a t
  | stop (c : C) (hact : a = .stopSection c) (hstate' : t.mState = s.mState.onRequestStop)
      (hflag : t.mStopRequested = true)
      (hruns : t.runs = s.runs) (hterm : t.terminated = s.terminated)
      (hholds : ∀ k r, t.Holds k r ↔ s.Holds k r) : Effect s a t
  | running (r : Nat) (hpc : s.thread r = .setRunning) (hstate' : t.mState = .running)
      (hflag : t.mStopRequested = s.mStopRequested)
      (hruns : t.runs = s.runs) (hterm : t.terminated = s.terminated)
      (hholds : ∀ k r, t.Holds k r ↔ s.Holds k r) : Effect s a t
  | finish (h : Holder C) (r : Nat) (hheld : s.Holds h r) (hstate' : t.mState = .stopped)
      (hflag : t.mStopRequested = s.mStopRequested)
      (hruns : t.runs = s.runs) (hterm : t.terminated = s.terminated)
      (hholds : ∀ k r, t.Holds k r ↔ s.Holds k r ∧ k ≠ h) : Effect s a t
  | quiet (hstate' : t.mState = s.mState) (hflag : t.mStopRequested = s.mStopRequested)
      (hruns : t.runs = s.runs) (hterm : t.terminated = s.terminated)
      (hholds : ∀ k r, t.Holds k r ↔ s.Holds k r) : Effect s a t

theorem effect_setCaller {s : BaseWorker C} {a : BaseAction C} {c : C} {p : CallerPc}
    (hold : ¬ CallerPc.IsCatch (s.caller c)) (hnew : ¬ CallerPc.IsCatch p) :
    Effect s a (s.setCaller c p) :=
  .quiet rfl rfl rfl rfl (holds_setCaller hold hnew)

theorem effect_setThread {s : BaseWorker C} {a : BaseAction C} {r : Nat} {p : RunnerPc}
    (hlive : (s.thread r).live) (hnew : p.live) : Effect s a (s.setThread r p) :=
  .quiet rfl rfl rfl rfl (holds_setThread hlive hnew)

theorem effect_startSection {s : BaseWorker C} {c : C} {wait created : Bool}
    (hpc : s.caller c = .startSection wait) :
    Effect s (.startSection c created) (s.startSection c wait created) := by
  have hold : ¬ CallerPc.IsCatch (s.caller c) := by rintro ⟨w, r, h⟩; simp [hpc] at h
  by_cases hm : s.mState = .stopped ∧ s.mThread = none
  · cases created with
    | true =>
      rw [startSection_launched hm]
      refine .launch c true rfl (.thread s.runs) hm.1 hm.2 rfl rfl rfl rfl ?_
      intro k r
      cases k with
      | starter d =>
        by_cases hd : d = c
        · subst hd
          cases wait <;> simp [Holds, hpc]
        · simp [Holds, hd]
      | thread r' =>
        by_cases hr : r = s.runs
        · subst hr
          simp only [Holds, Function.update_self, Holder.thread.injEq, and_true]
          exact ⟨fun h => .inr h.1, fun h => ⟨h.elim And.left id, by decide⟩⟩
        · simp [Holds, hr]
    | false =>
      rw [startSection_failed hm]
      refine .launch c false rfl (.starter c) hm.1 hm.2 rfl rfl rfl rfl ?_
      intro k r
      cases k with
      | thread r' => simp [Holds, beginRun]
      | starter d =>
        by_cases hd : d = c
        · subst hd
          simp [Holds, beginRun, hpc, eq_comm]
        · simp [Holds, beginRun, hd]
  · rw [startSection_refused hm]
    exact effect_setCaller hold (by rintro ⟨w, r, h⟩; simp at h)

theorem effect_joinThread {s : BaseWorker C} {a : BaseAction C} {c : C} {k : Call}
    (hpc : ¬ CallerPc.IsCatch (s.caller c)) : Effect s a (s.joinThread c k) := by
  unfold joinThread
  split
  · exact .quiet rfl rfl rfl rfl
      (holds_setCaller (s := { s with mThread := none }) hpc (by rintro ⟨w, r, h⟩; simp at h))
  · exact effect_setCaller hpc (by simp)

theorem effect_joinFinishedThread {s : BaseWorker C} {a : BaseAction C} {c : C} {k : Call}
    (hpc : ¬ CallerPc.IsCatch (s.caller c)) : Effect s a (s.joinFinishedThread c k) := by
  unfold joinFinishedThread
  split
  · split
    · exact .quiet rfl rfl rfl rfl
        (holds_setCaller (s := { s with mThread := none }) hpc (by rintro ⟨w, r, h⟩; simp at h))
    · exact effect_setCaller hpc (by simp)
  · exact effect_setCaller hpc (by simp)

theorem effect_requestStopSection {s : BaseWorker C} {c : C} {k : Call}
    (hpc : ¬ CallerPc.IsCatch (s.caller c)) :
    Effect s (.stopSection c) (s.requestStopSection c k) := by
  refine .stop c rfl rfl rfl rfl rfl ?_
  intro h r
  refine (holds_setCaller (s := { s with mStopRequested := true, mState := _ }) hpc ?_ h r)
  split
  · rintro ⟨w, r, h⟩
    simp at h
  · simp

theorem step_effect {s t : BaseWorker C} {a : BaseAction C} (h : s.step a = some t) :
    Effect s a t := by
  cases a with
  | call c k =>
    obtain ⟨hfree, rfl⟩ := step_call.mp h
    refine effect_setCaller ?_ (by simp)
    rintro ⟨w, r, hc⟩
    simp [hc, CallerPc.free] at hfree
  | joinFinished c =>
    obtain ⟨k, hpc, rfl⟩ := step_joinFinished.mp h
    exact effect_joinFinishedThread (by rintro ⟨w, r, hc⟩; simp [hpc] at hc)
  | startSection c created =>
    obtain ⟨wait, hpc, rfl⟩ := step_startSection.mp h
    exact effect_startSection hpc
  | startCatch c =>
    obtain ⟨wait, r, hpc, rfl⟩ := step_startCatch.mp h
    refine .finish (.starter c) r ⟨wait, hpc⟩ rfl rfl rfl rfl ?_
    intro k r'
    cases k with
    | thread r'' => simp [Holds, setState]
    | starter d =>
      by_cases hd : d = c
      · subst hd
        simp [Holds, setState]
      · simp [Holds, setState, hd]
  | waitForStart c =>
    obtain ⟨wait, hpc, rfl⟩ := step_waitForStart.mp h
    exact effect_setCaller (by rintro ⟨w, r, hc⟩; simp [hpc] at hc)
      (by rintro ⟨w, r, hc⟩; simp at hc)
  | stopSection c =>
    obtain ⟨k, hpc, rfl⟩ := step_stopSection.mp h
    exact effect_requestStopSection (by rintro ⟨w, r, hc⟩; simp [hpc] at hc)
  | stopTriggeredEnd c =>
    obtain ⟨k, hpc, rfl⟩ := step_stopTriggeredEnd.mp h
    exact effect_setCaller (by rintro ⟨w, r, hc⟩; simp [hpc] at hc) (by simp)
  | waitForStopped c =>
    obtain ⟨k, hpc, rfl⟩ := step_waitForStopped.mp h
    refine effect_setCaller (by rintro ⟨w, r, hc⟩; simp [hpc] at hc) ?_
    split
    · rintro ⟨w, r, hc⟩
      simp at hc
    · simp
  | joinThread c =>
    obtain ⟨k, hpc, rfl⟩ := step_joinThread.mp h
    exact effect_joinThread (by rintro ⟨w, r, hc⟩; simp [hpc] at hc)
  | joined c =>
    obtain ⟨k, r, hpc, -, rfl⟩ := step_joined.mp h
    exact effect_setCaller (by rintro ⟨w, r, hc⟩; simp [hpc] at hc) (by simp)
  | preRunBegin r =>
    obtain ⟨hpc, rfl⟩ := step_preRunBegin.mp h
    exact effect_setThread (by rw [hpc]; decide) (by decide)
  | preRunEnd r e =>
    obtain ⟨hpc, rfl⟩ := step_preRunEnd.mp h
    refine effect_setThread (by rw [hpc]; decide) ?_
    unfold HookEnd.afterPreRun
    split <;> simp [RunnerPc.live]
  | checkStop r =>
    obtain ⟨hpc, rfl⟩ := step_checkStop.mp h
    refine effect_setThread (by rw [hpc]; decide) ?_
    split <;> decide
  | setRunning r =>
    obtain ⟨hpc, rfl⟩ := step_setRunning.mp h
    exact .running r hpc rfl rfl rfl rfl
      (holds_setThread (s := s.setState .running) (by simp [setState, hpc, RunnerPc.live])
        (by decide))
  | runEnd r e =>
    obtain ⟨hpc, rfl⟩ := step_runEnd.mp h
    refine effect_setThread (by rw [hpc]; decide) ?_
    unfold HookEnd.afterRun
    split <;> simp [RunnerPc.live]
  | catchException r =>
    obtain ⟨e, hpc, rfl⟩ := step_catchException.mp h
    exact .quiet rfl rfl rfl rfl
      (holds_setThread (s := { s with mLastUnhandledException := some e })
        (by simp [hpc, RunnerPc.live]) (by decide))
  | setStopped r =>
    obtain ⟨hpc, rfl⟩ := step_setStopped.mp h
    refine .finish (.thread r) r ⟨rfl, by rw [hpc]; decide⟩ rfl rfl rfl rfl ?_
    intro k r'
    cases k with
    | starter c => simp [Holds, setState]
    | thread r'' =>
      by_cases hr : r' = r
      · subst hr
        simp only [Holds, setState, setThread_thread, Function.update_self, ne_eq,
          Holder.thread.injEq]
        exact ⟨fun h => absurd rfl h.2.2, fun h => absurd h.1.1 h.2⟩
      · simp only [Holds, setState, setThread_thread, Function.update_of_ne hr, ne_eq,
          Holder.thread.injEq]
        exact ⟨fun h => ⟨h, fun he => hr (h.1 ▸ he)⟩, And.left⟩

/-! ## The invariant behind all runs -/

structure SingleBody (s : BaseWorker C) : Prop where
  single : ∀ {h k r r'}, s.Holds h r → s.Holds k r' → h = k
  latest : ∀ {r}, s.RunLive r → r + 1 = s.runs
  live_iff : (∃ r, s.RunLive r) ↔ s.mState ≠ .stopped
  safe : s.terminated = false

theorem runLive_of_thread {s : BaseWorker C} {r : Nat} (h : (s.thread r).live) : s.RunLive r :=
  ⟨.thread r, rfl, h⟩

theorem singleBody_init : SingleBody ({} : BaseWorker C) where
  single := by
    intro h k r r' hr hk
    cases h with
    | thread => exact absurd rfl hr.2.1
    | starter => obtain ⟨w, hw⟩ := hr; cases hw
  latest := by
    rintro r ⟨h, hr⟩
    cases h with
    | thread => exact absurd rfl hr.2.1
    | starter => obtain ⟨w, hw⟩ := hr; cases hw
  live_iff := by
    constructor
    · rintro ⟨r, h, hr⟩
      cases h with
      | thread => exact absurd rfl hr.2.1
      | starter => obtain ⟨w, hw⟩ := hr; cases hw
    · exact fun h => absurd rfl h
  safe := rfl

theorem SingleBody.of_same {s t : BaseWorker C} (hi : SingleBody s)
    (hholds : ∀ k r, t.Holds k r ↔ s.Holds k r) (hruns : t.runs = s.runs)
    (hterm : t.terminated = s.terminated)
    (hstate : t.mState ≠ .stopped ↔ s.mState ≠ .stopped) : SingleBody t where
  single h k := hi.single ((hholds _ _).mp h) ((hholds _ _).mp k)
  latest := fun ⟨h, hr⟩ => hruns ▸ hi.latest ⟨h, (hholds _ _).mp hr⟩
  live_iff := by
    rw [hstate, ← hi.live_iff]
    simp only [RunLive, hholds]
  safe := hterm.trans hi.safe

theorem SingleBody.effect {s t : BaseWorker C} {a : BaseAction C} (hi : SingleBody s)
    (he : Effect s a t) : SingleBody t := by
  cases he with
  | quiet hstate' _ hruns hterm hholds =>
    exact hi.of_same hholds hruns hterm (by rw [hstate'])
  | stop _ _ hstate' _ hruns hterm hholds =>
    refine hi.of_same hholds hruns hterm ?_
    rw [hstate']
    cases s.mState <;> simp [EnmState.onRequestStop]
  | running r hpc hstate' _ hruns hterm hholds =>
    refine hi.of_same hholds hruns hterm ?_
    have hlive : s.RunLive r := runLive_of_thread (by rw [hpc]; decide)
    have hne := hi.live_iff.mp ⟨r, hlive⟩
    simp [hstate', hne]
  | launch c created _ h hstate _ hstate' _ hruns hterm hholds =>
    -- before a launch nobody holds a run
    have hnone : ∀ k r, ¬ s.Holds k r :=
      fun k r hk => hi.live_iff.mp ⟨r, k, hk⟩ hstate
    have honly : ∀ {k r}, t.Holds k r → k = h ∧ r = s.runs :=
      fun hk => ((hholds _ _).mp hk).resolve_left (hnone _ _)
    refine ⟨fun hk hk' => (honly hk).1.trans (honly hk').1.symm, ?_, ?_, hterm.trans hi.safe⟩
    · rintro r ⟨k, hk⟩
      rw [(honly hk).2, hruns]
    · have hlive : t.RunLive s.runs := ⟨h, (hholds _ _).mpr (.inr ⟨rfl, rfl⟩)⟩
      simp only [hstate']
      exact ⟨fun _ => by decide, fun _ => ⟨_, hlive⟩⟩
  | finish h r hheld hstate' _ hruns hterm hholds =>
    have hnone : ∀ k r', ¬ t.Holds k r' := fun k r' hk =>
      ((hholds _ _).mp hk).2 (hi.single ((hholds _ _).mp hk).1 hheld)
    refine ⟨fun hk _ => absurd hk (hnone _ _), ?_, ?_, hterm.trans hi.safe⟩
    · rintro r' ⟨k, hk⟩
      exact absurd hk (hnone _ _)
    · refine ⟨?_, fun hne => absurd hstate' hne⟩
      rintro ⟨r', k, hk⟩
      exact absurd hk (hnone _ _)

theorem singleBody_of_reachable {s : BaseWorker C} {ok : BaseWorker C → BaseAction C → Prop}
    (h : (baseSystem C).ReachableBy ok s) : SingleBody s :=
  ReachableBy.invariant singleBody_init (fun _ _ _ _ hi _ hs => hi.effect (step_effect hs)) h

/-- At most one thread is inside `threadRunner` before its final `setState(Stopped)`,
none when the state is `Stopped`, and `startThread` never assigns to a joinable
`m_thread`. -/
theorem at_most_one_worker_body {s : BaseWorker C} (h : (baseSystem C).Reachable s) :
    (∀ r r', (s.thread r).live → (s.thread r').live → r = r') ∧
    (s.mState = .stopped → ∀ r, ¬ (s.thread r).live) ∧ s.terminated = false := by
  have hi := singleBody_of_reachable h
  refine ⟨?_, ?_, hi.safe⟩
  · intro r r' hr hr'
    have h1 := hi.latest (runLive_of_thread hr)
    have h2 := hi.latest (runLive_of_thread hr')
    omega
  · intro hstate r hr
    exact hi.live_iff.mp ⟨r, runLive_of_thread hr⟩ hstate

/-- One caller starts the worker and its thread gets past its stop check. -/
def launchSchedule : List (BaseAction Nat) :=
  [.call 0 (.startThread true), .joinFinished 0, .startSection 0 true,
    .preRunBegin 0, .preRunEnd 0 (.value true), .checkStop 0]

def refusedSchedule (c : Nat) : List (BaseAction Nat) :=
  [.call c (.startThread true), .joinFinished c, .startSection c true]

theorem at_most_one_worker_body_refused :
    let s := (baseSystem Nat).after Free {} (launchSchedule ++ refusedSchedule 1)
    s.caller 1 = .returned (.startThread true) false ∧
      (∀ r r', (s.thread r).live → (s.thread r').live → r = r') ∧
      (s.mState = .stopped → ∀ r, ¬ (s.thread r).live) ∧ s.terminated = false :=
  ⟨by decide, at_most_one_worker_body (reaches_after (by decide))⟩

end BaseWorker

end ThreadComponent
