import ThreadComponent.DerivedWorker

/-!
# The hook that the worker's thread is in

A derived class keeps the place that its hooks have reached. Each such place belongs to
`preRun` or to `run`, or to no hook at all, and it agrees with the place of the worker's
thread in `threadRunner` at all times.
-/

set_option autoImplicit false
set_option linter.unusedSectionVars false

namespace ThreadComponent

open Transitions System

def RunnerPc.hookHome : RunnerPc → Option RunnerPc
  | .preRun => some .preRun
  | .run => some .run
  | _ => none

theorem RunnerPc.hookHome_of_not_live {p : RunnerPc} (h : ¬ p.live) : p.hookHome = none := by
  cases p <;> first | rfl | exact absurd (by decide) h

theorem RunnerPc.hookHome_ne_entry (p : RunnerPc) : p.hookHome ≠ some .entry := by
  cases p <;> simp [hookHome]

theorem RunnerPc.of_hookHome {p q : RunnerPc} (h : p.hookHome = some q) : p = q := by
  cases p <;> simp_all [hookHome]

/-- What a step of the worker does to the hook its thread is in. -/
def BaseAction.hookHome {C : Type} (a : BaseAction C) (home : Option RunnerPc) :
    Option RunnerPc :=
  match a with
  | .preRunBegin _ => some .preRun
  | .setRunning _ => some .run
  | .preRunEnd _ _ | .runEnd _ _ => none
  | _ => home

variable {C O A : Type} [DecidableEq C] {s t : BaseWorker C}

theorem BaseAction.hookHome_of_rest {a : BaseAction C} {home : Option RunnerPc}
    (h : BaseWorker.actingRun a = none) : a.hookHome home = home := by
  cases a <;> first | rfl | cases h

theorem BaseWorker.Moves.hookHome {a : BaseAction C} (h : BaseWorker.Moves s a t) :
    a.hookHome s.current.hookHome = t.current.hookHome := by
  cases h with
  | rest hact _ hcur => rw [BaseAction.hookHome_of_rest hact, hcur]
  | launch c created _ hfrom _ hto =>
    rw [BaseAction.hookHome_of_rest rfl, RunnerPc.hookHome_of_not_live hfrom, hto]
    cases created <;> rfl
  | preRunBegin r _ hto => rw [hto]; rfl
  | preRunEnd r e _ hto =>
    rw [hto]
    rcases e with ⟨_ | _⟩ | _ <;> rfl
  | checkStop r hfrom hto =>
    rw [hfrom, hto]
    cases s.stopRequested <;> rfl
  | setRunning r _ hto => rw [hto]; rfl
  | runEnd r e _ hto =>
    rw [hto]
    cases e <;> rfl
  | catchException r e hfrom hto => rw [hfrom, hto]; rfl
  | setStopped r hfrom hto => rw [hfrom, hto]; rfl

/-- A class whose places move with the hooks has them in agreement with the worker. -/
theorem Derived.hookHome_of_reachable {D : Derived C O A} (home : O → Option RunnerPc)
    (hinit : home D.init = none)
    (hsync : ∀ {s a o o'}, D.sync s a o = some o' → home o' = a.hookHome (home o))
    (hown : ∀ {s o a o'}, D.own s o a = some o' → home o' = home o)
    {ok : Object C O → ObjectAction C A → Prop} {s : Object C O}
    (hr : D.system.ReachableBy ok s) : home s.ext = s.base.current.hookHome := by
  refine ReachableBy.invariant (P := fun s => home s.ext = s.base.current.hookHome) hinit
    (fun s a t hr hat _ hs => ?_) hr
  cases a with
  | base a =>
    obtain ⟨hb, hy⟩ := Derived.step_base.mp hs
    obtain ⟨hi, hu⟩ := Derived.inherits hr
    rw [hsync hy, hat]
    exact (BaseWorker.moves_of_step hi hu hb).hookHome
  | own a =>
    obtain ⟨hb, hy⟩ := Derived.step_own.mp hs
    rw [hown hy, hat, hb]

/-- A class whose stop hook is entered by the locked section of `requestStop` and left with
the hook of the worker has a thread in it only where the worker has it there. -/
theorem Derived.stopTriggered_of_reachable {D : Derived C O A} (inStop : O → C → Prop)
    (hinit : ∀ c, ¬ inStop D.init c)
    (hsync : ∀ {s a o o' c}, D.sync s a o = some o' → inStop o' c →
      (a ≠ .stopTriggeredEnd c ∧ inStop o c) ∨
        (a = .stopSection c ∧ s.mState.shouldTriggerStop = true))
    (hown : ∀ {s o a o' c}, D.own s o a = some o' → inStop o' c → inStop o c)
    {ok : Object C O → ObjectAction C A → Prop} {s : Object C O}
    (hr : D.system.ReachableBy ok s) {c : C} (hc : inStop s.ext c) :
    ∃ k, s.base.caller c = .stopTriggered k := by
  refine ReachableBy.invariant
    (P := fun s => ∀ c, inStop s.ext c → ∃ k, s.base.caller c = .stopTriggered k)
    (fun c hc => absurd hc (hinit c)) (fun s a t _ hx _ hs c hc => ?_) hr c hc
  cases a with
  | own a =>
    obtain ⟨hb, hy⟩ := Derived.step_own.mp hs
    rw [hb]
    exact hx c (hown hy hc)
  | base a =>
    obtain ⟨hb, hy⟩ := Derived.step_base.mp hs
    rcases hsync hy hc with ⟨hne, hold⟩ | ⟨rfl, htrigger⟩
    · obtain ⟨k, hk⟩ := hx c hold
      exact ⟨k, BaseWorker.caller_stopTriggered hb hk hne⟩
    · exact BaseWorker.caller_of_stopSection hb htrigger

end ThreadComponent
