import ThreadComponent.BaseWorkerProgress
import ThreadComponent.DerivedHooks

/-!
# A worker that is shut down

Once a stop is requested and nobody is about to launch a run, the request stays, and every
step but a call brings the worker closer to its rest. A call by one of finitely many threads
takes it back by a fixed amount.
-/

set_option autoImplicit false
set_option linter.unusedSectionVars false

namespace ThreadComponent

open Transitions System

def Call.isStart : Call → Bool
  | .startThread _ => true
  | _ => false

def CallerPc.starting : CallerPc → Bool
  | .joinFinished k | .stopSection k | .stopTriggered k | .waitForStopped k | .joinThread k
  | .joining k _ => k.isStart
  | .startSection _ => true
  | _ => false

theorem Call.starting_entry (k : Call) : k.entry.starting = k.isStart := by
  cases k <;> rfl

theorem Call.starting_afterJoin (k : Call) : k.afterJoin.starting = k.isStart := by
  cases k <;> rfl

theorem Call.starting_afterTimeout (k : Call) : k.afterTimeout.starting = false := by
  cases k <;> rfl

theorem Call.starting_afterRequestStop {k : Call} (h : k.isStart = false) :
    k.afterRequestStop.starting = false := by
  cases k with
  | startThread wait => cases h
  | stopThread wait | stopThreadAndJoin wait => cases wait <;> rfl
  | requestStop | destructor => rfl

/-- The places of a thread that makes no call but `requestStop`. -/
def StopsItself (p : CallerPc) : Prop :=
  p = .idle ∨ p = .stopSection .requestStop ∨ p = .stopTriggered .requestStop ∨
    ∃ b, p = .returned .requestStop b

/-- A step of the worker in which a derived class has no part: it makes no call and ends no
hook. -/
def BaseAction.apart {C : Type} : BaseAction C → Bool
  | .call _ _ | .preRunEnd _ _ | .runEnd _ _ | .stopTriggeredEnd _ => false
  | _ => true

/-- The step is one of the calls, or one of the steps of the class, that are named. -/
def ObjectAction.among {C A : Type} (calls : C → Call → Bool) (steps : A → Bool) :
    ObjectAction C A → Bool
  | .base (.call c k) => calls c k
  | .base _ => false
  | .own a => steps a

theorem ObjectAction.among_of_apart {C A : Type} {calls : C → Call → Bool} {steps : A → Bool}
    {a : BaseAction C} (h : a.apart = true) :
    (ObjectAction.base a).among calls steps = false := by
  cases a <;> first | rfl | cases h

theorem Call.rank_entry (k : Call) : k.entry.rank ≤ 14 := by
  cases k <;> simp [Call.entry, CallerPc.rank]

namespace BaseWorker
variable {C : Type} [DecidableEq C] {s t : BaseWorker C} {a : BaseAction C} {c : C}
  {busy : Finset C}

/-! ## How a calling thread moves -/

/-- A step of a calling thread, with the places that it leads from and to. -/
inductive CallerMoves (s : BaseWorker C) (c : C) : BaseAction C → CallerPc → CallerPc → Prop where
  | call {k : Call} {p : CallerPc} (hfree : p.free = true) : CallerMoves s c (.call c k) p k.entry
  | joinFinished {k : Call} {p : CallerPc} (hp : (∃ r, p = .joining k r) ∨ p = k.afterJoin) :
    CallerMoves s c (.joinFinished c) (.joinFinished k) p
  | startSection {wait created : Bool} {p : CallerPc}
      (hp : p = .waitForStart wait ∨ (∃ b, p = .returned (.startThread wait) b) ∨
        ∃ r, p = .startCatch wait r) :
    CallerMoves s c (.startSection c created) (.startSection wait) p
  | startCatch {wait : Bool} {r : Nat} : CallerMoves s c (.startCatch c) (.startCatch wait r)
      (.returned (.startThread wait) false)
  | waitForStart {wait b : Bool} : CallerMoves s c (.waitForStart c) (.waitForStart wait)
      (.returned (.startThread wait) b)
  | stopSection {k : Call} : CallerMoves s c (.stopSection c) (.stopSection k)
      (if s.mState.shouldTriggerStop then .stopTriggered k else k.afterRequestStop)
  | stopTriggeredEnd {k : Call} : CallerMoves s c (.stopTriggeredEnd c) (.stopTriggered k)
      k.afterRequestStop
  | waitForStopped {k : Call} {p : CallerPc} (hp : p = .joinFinished k ∨ p = k.afterTimeout) :
    CallerMoves s c (.waitForStopped c) (.waitForStopped k) p
  | joinThread {k : Call} {p : CallerPc} (hp : (∃ r, p = .joining k r) ∨ p = k.afterJoin) :
    CallerMoves s c (.joinThread c) (.joinThread k) p
  | joined {k : Call} {r : Nat} : CallerMoves s c (.joined c) (.joining k r) k.afterJoin

theorem callerMoves_of_acting (h : s.step a = some t) (hact : actingCaller a = some c) :
    CallerMoves s c a (s.caller c) (t.caller c) := by
  cases a with
  | call d k =>
    obtain rfl : d = c := by simpa [actingCaller] using hact
    obtain ⟨hfree, rfl⟩ := step_call.mp h
    rw [setCaller_caller, Function.update_self]
    exact .call hfree
  | joinFinished d =>
    obtain rfl : d = c := by simpa [actingCaller] using hact
    obtain ⟨k, hc, rfl⟩ := step_joinFinished.mp h
    rw [hc]
    refine .joinFinished ?_
    unfold joinFinishedThread
    split
    · split <;> simp
    · simp
  | startSection d created =>
    obtain rfl : d = c := by simpa [actingCaller] using hact
    obtain ⟨wait, hc, rfl⟩ := step_startSection.mp h
    rw [hc]
    refine .startSection ?_
    unfold BaseWorker.startSection
    cases s.mayStart <;> cases created <;> cases wait <;> simp
  | startCatch d =>
    obtain rfl : d = c := by simpa [actingCaller] using hact
    obtain ⟨wait, r, hc, rfl⟩ := step_startCatch.mp h
    rw [hc, setCaller_caller, Function.update_self]
    exact .startCatch
  | waitForStart d =>
    obtain rfl : d = c := by simpa [actingCaller] using hact
    obtain ⟨wait, hc, rfl⟩ := step_waitForStart.mp h
    rw [hc, setCaller_caller, Function.update_self]
    exact .waitForStart
  | stopSection d =>
    obtain rfl : d = c := by simpa [actingCaller] using hact
    obtain ⟨k, hc, rfl⟩ := step_stopSection.mp h
    rw [hc, requestStopSection, setCaller_caller, Function.update_self]
    exact .stopSection
  | stopTriggeredEnd d =>
    obtain rfl : d = c := by simpa [actingCaller] using hact
    obtain ⟨k, hc, rfl⟩ := step_stopTriggeredEnd.mp h
    rw [hc, setCaller_caller, Function.update_self]
    exact .stopTriggeredEnd
  | waitForStopped d =>
    obtain rfl : d = c := by simpa [actingCaller] using hact
    obtain ⟨k, hc, rfl⟩ := step_waitForStopped.mp h
    rw [hc, setCaller_caller, Function.update_self]
    refine .waitForStopped ?_
    split
    · exact .inl rfl
    · exact .inr rfl
  | joinThread d =>
    obtain rfl : d = c := by simpa [actingCaller] using hact
    obtain ⟨k, hc, rfl⟩ := step_joinThread.mp h
    rw [hc]
    refine .joinThread ?_
    unfold BaseWorker.joinThread
    split <;> simp
  | joined d =>
    obtain rfl : d = c := by simpa [actingCaller] using hact
    obtain ⟨k, r, hc, -, rfl⟩ := step_joined.mp h
    rw [hc, setCaller_caller, Function.update_self]
    exact .joined
  | _ => simp [actingCaller] at hact

theorem after_ne_stopTriggered (k k' : Call) : k.entry ≠ .stopTriggered k' ∧
    k.afterJoin ≠ .stopTriggered k' ∧ k.afterTimeout ≠ .stopTriggered k' ∧
    k.afterRequestStop ≠ .stopTriggered k' := by
  cases k with
  | startThread wait | stopThread wait | stopThreadAndJoin wait =>
    cases wait <;> simp [Call.entry, Call.afterJoin, Call.afterTimeout, Call.afterRequestStop]
  | requestStop | destructor =>
    simp [Call.entry, Call.afterJoin, Call.afterTimeout, Call.afterRequestStop]

theorem after_ne_idle (k : Call) : k.entry ≠ .idle ∧ k.afterJoin ≠ .idle ∧
    k.afterTimeout ≠ .idle ∧ k.afterRequestStop ≠ .idle := by
  cases k with
  | startThread wait | stopThread wait | stopThreadAndJoin wait =>
    cases wait <;> simp [Call.entry, Call.afterJoin, Call.afterTimeout, Call.afterRequestStop]
  | requestStop | destructor =>
    simp [Call.entry, Call.afterJoin, Call.afterTimeout, Call.afterRequestStop]

/-- The stop hook is entered by the locked section of `requestStop` only. -/
theorem stopTriggered_of_step {k : Call} (h : s.step a = some t)
    (hc : t.caller c = .stopTriggered k) :
    (a ≠ .stopTriggeredEnd c ∧ s.caller c = .stopTriggered k) ∨
      (a = .stopSection c ∧ s.mState.shouldTriggerStop = true) := by
  by_cases hact : actingCaller a = some c
  · right
    have hmoves := callerMoves_of_acting h hact
    generalize s.caller c = p at hmoves
    generalize t.caller c = q at hmoves hc
    cases hmoves with
    | @call k' _ => exact absurd hc (after_ne_stopTriggered k' k).1
    | @joinFinished k' _ hp | @joinThread k' _ hp =>
      rcases hp with ⟨r, rfl⟩ | rfl
      · cases hc
      · exact absurd hc (after_ne_stopTriggered k' k).2.1
    | startSection hp => rcases hp with rfl | ⟨b, rfl⟩ | ⟨r, rfl⟩ <;> cases hc
    | startCatch | waitForStart => cases hc
    | @stopSection k' =>
      refine ⟨rfl, ?_⟩
      by_contra hnot
      rw [if_neg hnot] at hc
      exact (after_ne_stopTriggered k' k).2.2.2 hc
    | @stopTriggeredEnd k' => exact absurd hc (after_ne_stopTriggered k' k).2.2.2
    | @waitForStopped k' _ hp =>
      rcases hp with rfl | rfl
      · cases hc
      · exact absurd hc (after_ne_stopTriggered k' k).2.2.1
    | @joined k' _ => exact absurd hc (after_ne_stopTriggered k' k).2.1
  · left
    rw [caller_frame h hact] at hc
    refine ⟨?_, hc⟩
    rintro rfl
    exact hact rfl

/-- A thread that has called a member function does not stand before its first call again. -/
theorem called_of_step (h : s.step a = some t) (hc : s.caller c ≠ .idle) :
    t.caller c ≠ .idle := by
  by_cases hact : actingCaller a = some c
  · have hmoves := callerMoves_of_acting h hact
    generalize s.caller c = p at hmoves
    generalize t.caller c = q at hmoves ⊢
    cases hmoves with
    | @call k _ => exact (after_ne_idle k).1
    | @joinFinished k _ hp | @joinThread k _ hp =>
      rcases hp with ⟨r, rfl⟩ | rfl
      · simp
      · exact (after_ne_idle k).2.1
    | startSection hp => rcases hp with rfl | ⟨b, rfl⟩ | ⟨r, rfl⟩ <;> simp
    | startCatch | waitForStart => simp
    | @stopSection k =>
      split
      · simp
      · exact (after_ne_idle k).2.2.2
    | @stopTriggeredEnd k => exact (after_ne_idle k).2.2.2
    | @waitForStopped k _ hp =>
      rcases hp with rfl | rfl
      · simp
      · exact (after_ne_idle k).2.2.1
    | @joined k _ => exact (after_ne_idle k).2.1
  · rwa [caller_frame h hact]

/-! ## Behind a stop -/

/-- A stop is requested, and nobody is about to launch a run. -/
structure Stopping (s : BaseWorker C) : Prop where
  requested : s.stopRequested = true
  starters : ∀ c, (s.caller c).starting = false

theorem Stopping.not_startSection (hx : Stopping s) {created : Bool}
    (h : s.step (.startSection c created) = some t) : False := by
  obtain ⟨wait, hc, -⟩ := step_startSection.mp h
  have hcalm := hx.starters c
  rw [hc] at hcalm
  cases hcalm

/-- Who has no run to launch does not come to launch one inside the same call. -/
theorem Stopping.starting (hx : Stopping s) (ha : ∀ k, a = .call c k → k.isStart = false)
    (h : s.step a = some t) : (t.caller c).starting = false := by
  have hcalm := hx.starters c
  by_cases hact : actingCaller a = some c
  · have hmoves := callerMoves_of_acting h hact
    generalize s.caller c = p at hcalm hmoves
    generalize t.caller c = q at hmoves ⊢
    cases hmoves with
    | @call k _ => exact (Call.starting_entry k).trans (ha k rfl)
    | @joinFinished k _ hp | @joinThread k _ hp =>
      rcases hp with ⟨r, rfl⟩ | rfl
      · exact hcalm
      · exact k.starting_afterJoin.trans hcalm
    | startSection => cases hcalm
    | startCatch | waitForStart => rfl
    | @stopSection k =>
      split
      · exact hcalm
      · exact Call.starting_afterRequestStop hcalm
    | stopTriggeredEnd => exact Call.starting_afterRequestStop hcalm
    | waitForStopped hp =>
      rcases hp with rfl | rfl
      · exact hcalm
      · exact Call.starting_afterTimeout _
    | @joined k => exact k.starting_afterJoin.trans hcalm
  · rw [caller_frame h hact]
    exact hcalm

theorem Stopping.step (hx : Stopping s) (ha : ∀ c k, a = .call c k → k.isStart = false)
    (h : s.step a = some t) : Stopping t where
  requested := by
    by_contra hnot
    have hno : ∀ c created, a = .startSection c created → s.mayStart = false := by
      rintro c created rfl
      exact (hx.not_startSection h).elim
    have hflag := flag_of_step h hno (by simpa using hnot)
    rw [hx.requested] at hflag
    cases hflag
  starters c := hx.starting (ha c) h

theorem Settling.call {k : Call} (hs : Settling busy s) (hc : c ∈ busy)
    (h : s.step (.call c k) = some t) : Settling busy t where
  single := hs.single.effect (step_effect h)
  unborn := hs.unborn.step h
  joinable := hs.joinable.step h
  idle := by
    intro d hout
    have hne : c ≠ d := by
      rintro rfl
      exact hout hc
    rw [caller_frame h (by simpa [actingCaller] using hne)]
    exact hs.idle d hout

theorem rank_call {k : Call} (hc : c ∈ busy) (h : s.step (.call c k) = some t) :
    rank busy t ≤ rank busy s + 14 := by
  have hcurrent : t.current = s.current := current_of_other h rfl (by simp)
  have hsum := sum_add_of_frame (f := fun d => (s.caller d).rank)
    (g := fun d => (t.caller d).rank) hc fun d hd => by
      rw [caller_frame h (by simpa [actingCaller] using hd.symm)]
  obtain ⟨-, rfl⟩ := step_call.mp h
  have hentry := k.rank_entry
  simp only [setCaller_caller, Function.update_self] at hsum
  unfold rank
  rw [hcurrent, setCaller_caller]
  omega

/-! ## Outside of the hooks -/

theorem apart_of_thread {r : Nat} (hlive : (s.thread r).live)
    (hhome : (s.thread r).hookHome = none) :
    ∃ a : BaseAction C, a.apart = true ∧ s.step a ≠ none := by
  cases hpc : s.thread r with
  | absent => exact absurd hpc hlive.1
  | exited => exact absurd hpc hlive.2
  | preRun | run =>
    rw [hpc] at hhome
    cases hhome
  | entry => exact ⟨.preRunBegin r, rfl, by simp [BaseWorker.step, hpc]⟩
  | checkStop => exact ⟨.checkStop r, rfl, by simp [BaseWorker.step, hpc]⟩
  | setRunning => exact ⟨.setRunning r, rfl, by simp [BaseWorker.step, hpc]⟩
  | catching e => exact ⟨.catchException r, rfl, by simp [BaseWorker.step, hpc]⟩
  | setStopped => exact ⟨.setStopped r, rfl, by simp [BaseWorker.step, hpc]⟩

/-- A caller outside of the stop hook waits for the thread that it joins. -/
theorem apart_of_caller (hbusy : (s.caller c).free = false)
    (houtside : ∀ k, s.caller c ≠ .stopTriggered k)
    (hjoin : ∀ k r, s.caller c = .joining k r → s.thread r = .exited) :
    ∃ a : BaseAction C, a.apart = true ∧ s.step a ≠ none := by
  cases hc : s.caller c with
  | idle | returned k b =>
    rw [hc] at hbusy
    cases hbusy
  | stopTriggered k => exact absurd hc (houtside k)
  | joinFinished k => exact ⟨.joinFinished c, rfl, by simp [BaseWorker.step, hc]⟩
  | startSection wait => exact ⟨.startSection c true, rfl, by simp [BaseWorker.step, hc]⟩
  | startCatch wait r => exact ⟨.startCatch c, rfl, by simp [BaseWorker.step, hc]⟩
  | waitForStart wait => exact ⟨.waitForStart c, rfl, by simp [BaseWorker.step, hc]⟩
  | stopSection k => exact ⟨.stopSection c, rfl, by simp [BaseWorker.step, hc]⟩
  | waitForStopped k => exact ⟨.waitForStopped c, rfl, by simp [BaseWorker.step, hc]⟩
  | joinThread k => exact ⟨.joinThread c, rfl, by simp [BaseWorker.step, hc]⟩
  | joining k r => exact ⟨.joined c, rfl, by simp [BaseWorker.step, hc, hjoin k r hc]⟩

/-- A thread that makes no call but `requestStop` does not wait outside of the stop hook. -/
theorem apart_of_stopsItself (hp : StopsItself (s.caller c)) (hbusy : (s.caller c).free = false)
    (houtside : ∀ k, s.caller c ≠ .stopTriggered k) :
    ∃ a : BaseAction C, a.apart = true ∧ s.step a ≠ none := by
  apply apart_of_caller hbusy houtside
  intro k r hc
  rw [hc] at hp
  obtain hp | hp | hp | ⟨b, hp⟩ := hp <;> cases hp

/-- A worker whose threads are in no hook, and that cannot go on by itself, is at rest. -/
theorem atRest_of_apart (hi : SingleBody s) (hj : Joinable s) (hhome : s.current.hookHome = none)
    (houtside : ∀ c k, s.caller c ≠ .stopTriggered k)
    (hstill : ∀ a : BaseAction C, a.apart = true → s.step a = none) : AtRest s := by
  have hthreads : ∀ r, ¬ (s.thread r).live := by
    intro r hlive
    have hcurrent : s.current = s.thread r := by
      have hlatest := hi.latest (runLive_of_thread hlive)
      unfold current
      rw [show s.runs - 1 = r by omega]
    obtain ⟨a, ha, hne⟩ := apart_of_thread hlive (hcurrent ▸ hhome)
    exact hne (hstill a ha)
  refine atRest_of_quiet hi (fun c => ?_) hthreads
  by_contra hbusy
  have hjoin : ∀ k r, s.caller c = .joining k r → s.thread r = .exited := by
    intro k r hc
    exact exited_of_not_live (hj.joining c k r hc) (hthreads r)
  obtain ⟨a, ha, hne⟩ := apart_of_caller (by simpa using hbusy) (houtside c) hjoin
  exact hne (hstill a ha)

end BaseWorker

namespace Derived
variable {C O A : Type} [DecidableEq C] {D : Derived C O A} {x y : Object C O}
  {ok : Object C O → ObjectAction C A → Prop} {c : C}

/-! ## Threads of a derived class -/

/-- If the locked section of `requestStop` leads into the stop hook of the class and the end of
the worker's hook out of it, a thread is in the one exactly while it is in the other. -/
theorem inStop_iff_of_reachable (inStop : O → C → Prop) (hinit : ∀ c, ¬ inStop D.init c)
    (henters : ∀ {s c o o'}, D.sync s (.stopSection c) o = some o' →
      (inStop o' c ↔ s.mState.shouldTriggerStop = true ∨ inStop o c))
    (hleaves : ∀ {s c o o'}, D.sync s (.stopTriggeredEnd c) o = some o' → ¬ inStop o' c)
    (hsync : ∀ {s a c o o'}, D.sync s a o = some o' → a ≠ .stopSection c →
      a ≠ .stopTriggeredEnd c → (inStop o' c ↔ inStop o c))
    (hown : ∀ {s o a o' c}, D.own s o a = some o' → (inStop o' c ↔ inStop o c))
    (hr : D.system.ReachableBy ok x) (c : C) :
    inStop x.ext c ↔ ∃ k, x.base.caller c = .stopTriggered k := by
  have hstep : ∀ {s a c o o'}, D.sync s a o = some o' → (inStop o' c ↔
      (a ≠ .stopTriggeredEnd c ∧ inStop o c) ∨
        (a = .stopSection c ∧ s.mState.shouldTriggerStop = true)) := by
    intro s a c o o' hy
    by_cases hend : a = .stopTriggeredEnd c
    · subst hend
      simp [hleaves hy]
    · by_cases hsection : a = .stopSection c
      · subst hsection
        rw [henters hy]
        simp [or_comm]
      · rw [hsync hy hsection hend]
        simp [hend, hsection]
  constructor
  · exact stopTriggered_of_reachable inStop hinit (fun hy => (hstep hy).mp)
      (fun hy => (hown hy).mp) hr
  · rintro ⟨k, hk⟩
    refine ReachableBy.invariant
      (P := fun x => ∀ c k, x.base.caller c = .stopTriggered k → inStop x.ext c)
      (fun c k hc => by cases hc) (fun x a y _ hx _ hs c k hc => ?_) hr c k hk
    cases a with
    | own a =>
      obtain ⟨hb, hy⟩ := step_own.mp hs
      rw [hb] at hc
      exact (hown hy).mpr (hx c k hc)
    | base a =>
      obtain ⟨hb, hy⟩ := step_base.mp hs
      apply (hstep hy).mpr
      rcases BaseWorker.stopTriggered_of_step hb hc with ⟨hne, hold⟩ | hentered
      · exact .inl ⟨hne, hx c k hold⟩
      · exact .inr hentered

theorem called_of_reachable (waiting : O → Prop) (hinit : ¬ waiting D.init)
    (hsync : ∀ {s a o o'}, D.sync s a o = some o' → waiting o' →
      waiting o ∨ ∃ k, a = .call c k)
    (hown : ∀ {s o a o'}, D.own s o a = some o' → waiting o' → waiting o)
    (hr : D.system.ReachableBy ok x) (hw : waiting x.ext) : x.base.caller c ≠ .idle := by
  refine ReachableBy.invariant (P := fun x => waiting x.ext → x.base.caller c ≠ .idle)
    (fun hw => absurd hw hinit) (fun x a y _ hx _ hs hw => ?_) hr hw
  cases a with
  | own a =>
    obtain ⟨hb, hy⟩ := step_own.mp hs
    rw [hb]
    exact hx (hown hy hw)
  | base a =>
    obtain ⟨hb, hy⟩ := step_base.mp hs
    rcases hsync hy hw with hold | ⟨k, rfl⟩
    · exact BaseWorker.called_of_step hb (hx hold)
    · rw [(BaseWorker.step_call.mp hb).2, BaseWorker.setCaller_caller, Function.update_self]
      exact (BaseWorker.after_ne_idle k).1

theorem stopsItself_of_reachable
    (hcall : ∀ {s k o o'}, D.sync s (.call c k) o = some o' → k = .requestStop)
    (hr : D.system.ReachableBy ok x) : StopsItself (x.base.caller c) := by
  refine ReachableBy.invariant (P := fun x : Object C O => StopsItself (x.base.caller c))
    (.inl rfl) (fun x a y _ hx _ hs => ?_) hr
  cases a with
  | own a => exact (step_own.mp hs).1 ▸ hx
  | base a =>
    obtain ⟨hb, hy⟩ := step_base.mp hs
    by_cases hact : BaseWorker.actingCaller a = some c
    · have hmoves := BaseWorker.callerMoves_of_acting hb hact
      generalize x.base.caller c = p at hx hmoves
      generalize y.base.caller c = q at hmoves ⊢
      cases hmoves with
      | @call k _ =>
        obtain rfl := hcall hy
        exact .inr (.inl rfl)
      | @stopSection k =>
        obtain hp | hp | hp | ⟨b, hp⟩ := hx <;> cases hp
        split
        · exact .inr (.inr (.inl rfl))
        · exact .inr (.inr (.inr ⟨true, rfl⟩))
      | @stopTriggeredEnd k =>
        obtain hp | hp | hp | ⟨b, hp⟩ := hx <;> cases hp
        exact .inr (.inr (.inr ⟨true, rfl⟩))
      | joinFinished | startSection | startCatch | waitForStart | waitForStopped | joinThread
      | joined => obtain hp | hp | hp | ⟨b, hp⟩ := hx <;> cases hp
    · rw [BaseWorker.caller_frame hb hact]
      exact hx

/-! ## Steps that are possible -/

theorem enabled_of_base {a : BaseAction C} (hok : ok x (.base a)) (hb : x.base.step a ≠ none)
    (hy : D.sync x.base a x.ext ≠ none) : D.system.Enabled ok x := by
  refine ⟨.base a, hok, ?_⟩
  obtain ⟨b, hb⟩ := Option.ne_none_iff_exists'.mp hb
  obtain ⟨o, hy⟩ := Option.ne_none_iff_exists'.mp hy
  simp [system, step, hb, hy]

theorem enabled_of_own {a : A} (hok : ok x (.own a)) (ho : D.own x.base x.ext a ≠ none) :
    D.system.Enabled ok x := by
  refine ⟨.own a, hok, ?_⟩
  obtain ⟨o, ho⟩ := Option.ne_none_iff_exists'.mp ho
  simp [system, step, ho]

theorem enabled_of_preRun {b : Bool} (hpc : x.base.current = .preRun)
    (hok : ok x (.base (.preRunEnd (x.base.runs - 1) (.value b))))
    (hy : D.sync x.base (.preRunEnd (x.base.runs - 1) (.value b)) x.ext ≠ none) :
    D.system.Enabled ok x := by
  refine enabled_of_base hok ?_ hy
  unfold BaseWorker.current at hpc
  cases b <;> simp [BaseWorker.step, hpc]

theorem enabled_of_run {e : HookEnd} (hpc : x.base.current = .run)
    (hok : ok x (.base (.runEnd (x.base.runs - 1) e)))
    (hy : D.sync x.base (.runEnd (x.base.runs - 1) e) x.ext ≠ none) : D.system.Enabled ok x := by
  refine enabled_of_base hok ?_ hy
  unfold BaseWorker.current at hpc
  cases e <;> simp [BaseWorker.step, hpc]

variable (D) (ok) in
/-- The steps that the class has no part in are allowed wherever the worker can take them. -/
def Permits (x : Object C O) : Prop :=
  ∀ a : BaseAction C, a.apart = true → ok x (.base a) ∧ D.sync x.base a x.ext ≠ none

namespace Permits

theorem enabled (hp : D.Permits ok x)
    (h : ∃ a : BaseAction C, a.apart = true ∧ x.base.step a ≠ none) : D.system.Enabled ok x := by
  obtain ⟨a, ha, hb⟩ := h
  exact enabled_of_base (hp a ha).1 hb (hp a ha).2

/-- A thread that calls `requestStop` only waits for nobody outside of the stop hook. -/
theorem enabled_of_stopsItself (hp : D.Permits ok x) (hself : StopsItself (x.base.caller c))
    (houtside : ∀ k, x.base.caller c ≠ .stopTriggered k)
    (hbusy : (x.base.caller c).free = false) : D.system.Enabled ok x :=
  hp.enabled (BaseWorker.apart_of_stopsItself hself hbusy houtside)

/-- Where nobody is in a hook, only the worker's own steps are left to its threads. -/
theorem atRest (hp : D.Permits ok x) (hr : D.system.Reachable x)
    (hhome : x.base.current.hookHome = none) (houtside : ∀ c k, x.base.caller c ≠ .stopTriggered k)
    (hnot : ¬ D.system.Enabled ok x) : x.base.AtRest := by
  refine BaseWorker.atRest_of_apart (inherits hr).1
    (BaseWorker.joinable_of_reachable (base_reachable hr)) hhome houtside fun a ha => ?_
  by_contra hne
  exact hnot (hp.enabled ⟨a, ha, hne⟩)

end Permits

/-! ## Runs behind a stop -/

variable (D) in
/-- What holds behind a stop, while the members of `busy` are the only threads inside member
functions. -/
structure ShuttingDown (busy : Finset C) (x : Object C O) : Prop where
  reachable : D.system.Reachable x
  stopping : BaseWorker.Stopping x.base
  settling : BaseWorker.Settling busy x.base

/-- Calls are only made by threads that are counted, and launch no run. -/
theorem ShuttingDown.step {busy : Finset C} {a : ObjectAction C A} (hx : D.ShuttingDown busy x)
    (hcall : ∀ c k, a = .base (.call c k) → c ∈ busy ∧ k.isStart = false)
    (h : D.system.step x a = some y) : D.ShuttingDown busy y := by
  have hreach : D.system.Reachable y := hx.reachable.step trivial h
  cases a with
  | own a =>
    have hb := (step_own.mp h).1
    exact ⟨hreach, hb ▸ hx.stopping, hb ▸ hx.settling⟩
  | base a =>
    have hb := (step_base.mp h).1
    have hstopping : y.base.Stopping := by
      apply hx.stopping.step _ hb
      intro c k hact
      exact (hcall c k (congrArg _ hact)).2
    refine ⟨hreach, hstopping, ?_⟩
    cases hact : a.isCall with
    | false => exact hx.settling.step hact hb
    | true =>
      obtain ⟨c, k, rfl⟩ : ∃ c k, a = .call c k := by
        cases a <;> first | exact ⟨_, _, rfl⟩ | cases hact
      exact hx.settling.call (hcall c k rfl).1 hb

theorem ShuttingDown.busy_of_stopTriggered {busy : Finset C} {k : Call}
    (hx : D.ShuttingDown busy x) (hc : x.base.caller c = .stopTriggered k) : c ∈ busy := by
  by_contra hout
  have hfree := hx.settling.idle c hout
  rw [hc] at hfree
  cases hfree

theorem shuttingDown_of_stopping (hr : D.system.Reachable x) (hstop : x.base.Stopping)
    (own : Finset C) : ∃ busy, own ⊆ busy ∧ D.ShuttingDown busy x := by
  obtain ⟨busy, hs⟩ := BaseWorker.settling_of_reachable (base_reachable hr)
  refine ⟨own ∪ busy, Finset.subset_union_left, hr, hstop, { hs with idle := fun c hout => ?_ }⟩
  apply hs.idle c
  intro hmem
  exact hout (Finset.mem_union_right _ hmem)

end Derived

end ThreadComponent
