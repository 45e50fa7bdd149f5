import ThreadComponent.DerivedHooks

/-!
# The destructor of a derived class waits for its worker

The destructor body calls `stopThread`, which waits for the worker's thread but gives up when
its time is over. The worker is out of its hooks behind the wait if the thread has left them
for good when the wait ends.
-/

set_option autoImplicit false
set_option linter.unusedSectionVars false

namespace ThreadComponent

open Transitions System BaseWorker

/-- The thread of a run whose stop flag is set calls no hook from there on. -/
def RunnerPc.pastHooks : RunnerPc → Bool
  | .absent | .checkStop | .catching _ | .setStopped | .exited => true
  | _ => false

def RunnerPc.inHook : RunnerPc → Bool
  | .preRun | .run => true
  | _ => false

theorem RunnerPc.hookHome_of_pastHooks {p : RunnerPc} (h : p.pastHooks = true) :
    p.hookHome = none := by
  cases p <;> first | rfl | cases h

theorem RunnerPc.inHook_of_pastHooks {p : RunnerPc} (h : p.pastHooks = true) :
    p.inHook = false := by
  cases p <;> first | rfl | cases h

variable {T O A : Type} [DecidableEq T]

/-- Only the stop check leads on to a hook, and not where the flag is set. -/
theorem BaseWorker.Moves.pastHooks {s t : BaseWorker T} {a : BaseAction T} (h : Moves s a t)
    (hlaunch : ∀ c created, a = .startSection c created → s.mayStart = false)
    (hflag : s.stopRequested = true) (hpast : s.current.pastHooks = true) :
    t.current.pastHooks = true := by
  cases h with
  | rest _ _ hcur => rw [hcur]; exact hpast
  | launch c created hmay =>
    rw [hlaunch c created rfl] at hmay
    cases hmay
  | preRunBegin r hfrom => rw [hfrom] at hpast; cases hpast
  | preRunEnd r e hfrom => rw [hfrom] at hpast; cases hpast
  | checkStop r _ hto => rw [hto, hflag]; rfl
  | setRunning r hfrom => rw [hfrom] at hpast; cases hpast
  | runEnd r e hfrom => rw [hfrom] at hpast; cases hpast
  | catchException r e _ hto => rw [hto]; rfl
  | setStopped r _ hto => rw [hto]; rfl

inductive DestructorStage where
  | idle
  | stopThread
  | behind
  deriving DecidableEq, Repr

structure Destroyed (T O A : Type) [DecidableEq T] where
  derived : Derived T O A
  /-- The thread that destroys the object. -/
  destructor : T
  stage : O → DestructorStage
  init : stage derived.init = .idle
  sync : ∀ {s a o o'}, derived.sync s a o = some o' → stage o' = stage o ∨
    (stage o = .idle ∧ a = .call destructor (.stopThread true) ∧ stage o' = .stopThread)
  called : ∀ {s o o' k}, derived.sync s (.call destructor k) o = some o' →
    stage o ≠ .stopThread
  own : ∀ {s o a o'}, derived.own s o a = some o' → stage o' = stage o ∨
    (stage o = .stopThread ∧ (∃ k b, s.caller destructor = .returned k b) ∧ stage o' = .behind)

namespace Destroyed
variable {V : Destroyed T O A} {past : Object T O → Bool} {s t : Object T O}

/-- Nobody launches a run once the destructor has begun, and the wait of its `stopThread`
ends with the worker where it is to be. -/
def WaitsUntil (V : Destroyed T O A) (past : Object T O → Bool) (s : Object T O) :
    ObjectAction T A → Prop
  | .base (.startSection _ _) => V.stage s.ext = .idle ∨ s.base.mayStart = false
  | .base (.waitForStopped c) =>
    c = V.destructor → V.stage s.ext = .stopThread → past s = true
  | _ => True

instance (s : Object T O) (a : ObjectAction T A) : Decidable (V.WaitsUntil past s a) := by
  induction a using ObjectAction.casesOn with
  | base a => induction a using BaseAction.casesOn <;> (unfold WaitsUntil; infer_instance)
  | own a => unfold WaitsUntil; infer_instance

inductive Waiting (V : Destroyed T O A) (past : Object T O → Bool) (s : Object T O) : Prop where
  | idle (hstage : V.stage s.ext = .idle)
  | asking (hstage : V.stage s.ext = .stopThread)
      (hcaller : s.base.caller V.destructor = .stopSection (.stopThread true))
  | waiting (hstage : V.stage s.ext = .stopThread)
      (hcaller : s.base.caller V.destructor = .stopTriggered (.stopThread true) ∨
        s.base.caller V.destructor = .waitForStopped (.stopThread true))
      (hflag : s.base.stopRequested = true)
  | waited (hstage : V.stage s.ext ≠ .idle) (hflag : s.base.stopRequested = true)
      (hpast : past s = true)

/-- Where the worker has come to, it stays while the flag is set and nobody launches a run. -/
def Keeps (V : Destroyed T O A) (past : Object T O → Bool) (s : Object T O)
    (a : ObjectAction T A) : Prop :=
  ∀ t, V.derived.step s a = some t → past s = true → s.base.stopRequested = true →
    (∀ c created, a = .base (.startSection c created) → s.base.mayStart = false) →
    past t = true

theorem mayStart_of_waits {a : ObjectAction T A} (hok : V.WaitsUntil past s a)
    (hstage : V.stage s.ext ≠ .idle) :
    ∀ c created, a = .base (.startSection c created) → s.base.mayStart = false := by
  rintro c created rfl
  exact hok.resolve_left hstage

theorem stage_of_sync {a : BaseAction T} {o o' : O} {b : BaseWorker T}
    (h : V.derived.sync b a o = some o') (hstage : V.stage o ≠ .idle) :
    V.stage o' = V.stage o := by
  rcases V.sync h with hsame | ⟨hidle, -, -⟩
  · exact hsame
  · exact absurd hidle hstage

theorem Waiting.own {a : A} (hx : V.Waiting past s) (hkeep : V.Keeps past s (.own a))
    (h : V.derived.step s (.own a) = some t) : V.Waiting past t := by
  obtain ⟨hb, hy⟩ := Derived.step_own.mp h
  cases hx with
  | idle hstage =>
    rcases V.own hy with hsame | ⟨hstop, -, -⟩
    · exact .idle (hsame.trans hstage)
    · rw [hstage] at hstop
      cases hstop
  | asking hstage hcaller =>
    rcases V.own hy with hsame | ⟨-, ⟨k, r, hreturned⟩, -⟩
    · exact .asking (hsame.trans hstage) (hb ▸ hcaller)
    · rw [hcaller] at hreturned
      cases hreturned
  | waiting hstage hcaller hflag =>
    rcases V.own hy with hsame | ⟨-, ⟨k, r, hreturned⟩, -⟩
    · exact .waiting (hsame.trans hstage) (hb ▸ hcaller) (hb ▸ hflag)
    · rw [hreturned] at hcaller
      rcases hcaller with hc | hc <;> cases hc
  | waited hstage hflag hpast =>
    refine .waited ?_ (hb ▸ hflag) (hkeep t h hpast hflag (by simp))
    rcases V.own hy with hsame | ⟨-, -, hbehind⟩
    · rwa [hsame]
    · simp [hbehind]

theorem flag_kept {a : BaseAction T} (hok : V.WaitsUntil past s (.base a))
    (hstage : V.stage s.ext ≠ .idle) (hb : s.base.step a = some t.base)
    (hflag : s.base.stopRequested = true) : t.base.stopRequested = true := by
  by_contra hne
  have hclear := flag_of_step hb
    (fun c created ha => mayStart_of_waits hok hstage c created (congrArg _ ha))
    (by simpa using hne)
  rw [hflag] at hclear
  cases hclear

theorem Waiting.base {a : BaseAction T} (hx : V.Waiting past s)
    (hkeep : V.Keeps past s (.base a)) (hok : V.WaitsUntil past s (.base a))
    (h : V.derived.step s (.base a) = some t) : V.Waiting past t := by
  obtain ⟨hb, hy⟩ := Derived.step_base.mp h
  cases hx with
  | idle hstage =>
    rcases V.sync hy with hsame | ⟨-, rfl, hstop⟩
    · exact .idle (hsame.trans hstage)
    · refine .asking hstop ?_
      obtain ⟨-, ht⟩ := step_call.mp hb
      simp [ht, Call.entry]
  | asking hstage hcaller =>
    have hne : V.stage s.ext ≠ .idle := by simp [hstage]
    have hstage' := (stage_of_sync hy hne).trans hstage
    by_cases ha : a = .stopSection V.destructor
    · subst ha
      obtain ⟨k, hk, ht⟩ := step_stopSection.mp hb
      obtain rfl : k = .stopThread true := by
        rw [hcaller] at hk
        exact (CallerPc.stopSection.inj hk).symm
      refine .waiting hstage' ?_ (by rw [ht]; rfl)
      rw [ht]
      cases htrigger : s.base.mState.shouldTriggerStop
      · exact .inr (by simp [requestStopSection, htrigger, Call.afterRequestStop])
      · exact .inl (by simp [requestStopSection, htrigger])
    · exact .asking hstage' (caller_stopSection hb hcaller ha)
  | waiting hstage hcaller hflag =>
    have hne : V.stage s.ext ≠ .idle := by simp [hstage]
    have hstage' := (stage_of_sync hy hne).trans hstage
    have hflag' := flag_kept hok hne hb hflag
    by_cases hact : actingCaller a = some V.destructor
    · rcases hcaller with hcaller | hcaller
      · obtain rfl := stopTriggeredEnd_of_acting hb hcaller hact
        obtain ⟨k, hk, ht⟩ := step_stopTriggeredEnd.mp hb
        obtain rfl : k = .stopThread true := by
          rw [hcaller] at hk
          exact (CallerPc.stopTriggered.inj hk).symm
        exact .waiting hstage' (.inr (by simp [ht, Call.afterRequestStop])) hflag'
      · obtain rfl := waitForStopped_of_acting hb hcaller hact
        refine .waited (by simp [hstage']) hflag' ?_
        exact hkeep t h (hok rfl hstage) hflag (by simp)
    · have hsame := caller_frame hb hact
      exact .waiting hstage' (by rwa [hsame]) hflag'
  | waited hstage hflag hpast =>
    refine .waited ?_ (flag_kept hok hstage hb hflag)
      (hkeep t h hpast hflag (mayStart_of_waits hok hstage))
    rwa [stage_of_sync hy hstage]

variable {ok : Object T O → ObjectAction T A → Prop}

theorem waiting_of_reachable (hok : ∀ s a, ok s a → V.WaitsUntil past s a)
    (hkeep : ∀ s a, V.derived.system.ReachableBy ok s → ok s a → V.Keeps past s a)
    (hr : V.derived.system.ReachableBy ok s) : V.Waiting past s := by
  refine ReachableBy.invariant (P := V.Waiting past) (.idle V.init)
    (fun s a t hr hx ha hs => ?_) hr
  cases a with
  | own a => exact hx.own (hkeep s _ hr ha) hs
  | base a => exact hx.base (hkeep s _ hr ha) (hok s _ ha) hs

theorem past_of_behind (hok : ∀ s a, ok s a → V.WaitsUntil past s a)
    (hkeep : ∀ s a, V.derived.system.ReachableBy ok s → ok s a → V.Keeps past s a)
    (hr : V.derived.system.ReachableBy ok s) (hstage : V.stage s.ext = .behind) :
    past s = true := by
  cases waiting_of_reachable hok hkeep hr with
  | idle h => rw [hstage] at h; cases h
  | asking h => rw [hstage] at h; cases h
  | waiting h => rw [hstage] at h; cases h
  | waited _ _ hpast => exact hpast

/-! ## Past the hooks -/

/-- The wait of the destructor's `stopThread` ends with the worker's thread past its hooks. -/
def WaitsForWorker (V : Destroyed T O A) : Object T O → ObjectAction T A → Prop :=
  V.WaitsUntil fun s => s.base.current.pastHooks

instance (s : Object T O) (a : ObjectAction T A) : Decidable (V.WaitsForWorker s a) :=
  inferInstanceAs (Decidable (V.WaitsUntil _ s a))

theorem keeps_pastHooks {a : ObjectAction T A} (hr : V.derived.system.ReachableBy ok s) :
    V.Keeps (fun s => s.base.current.pastHooks) s a := by
  intro t hs hpast hflag hlaunch
  cases a with
  | own a =>
    change t.base.current.pastHooks = true
    rw [(Derived.step_own.mp hs).1]
    exact hpast
  | base a =>
    obtain ⟨hi, hu⟩ := Derived.inherits hr
    have hm := moves_of_step hi hu (Derived.step_base.mp hs).1
    exact hm.pastHooks (fun c created ha => hlaunch c created (congrArg _ ha)) hflag hpast

/-- Behind the `stopThread` of the destructor the worker is out of its hooks for good. -/
theorem pastHooks_of_behind (hr : V.derived.system.ReachableBy V.WaitsForWorker s)
    (hstage : V.stage s.ext = .behind) : s.base.current.pastHooks = true := by
  have hkeep : ∀ s a, V.derived.system.ReachableBy V.WaitsForWorker s → V.WaitsForWorker s a →
      V.Keeps (fun s => s.base.current.pastHooks) s a := fun _ _ hr _ => keeps_pastHooks hr
  exact past_of_behind (fun _ _ h => h) hkeep hr hstage

end Destroyed

end ThreadComponent
