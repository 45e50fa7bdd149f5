import ThreadComponent.DerivedHooks
import ThreadComponent.HttpStartSafety

/-!
# Who resolves a launched start

The hooks resolve the start on every way out of `preRun` and `run`, but `threadRunner` has an
exit between the two that passes them all, and a stop hook has to do it there. A class is
described by who is still going to resolve the start; what follows for its runs is said once.
-/

set_option autoImplicit false
set_option linter.unusedSectionVars false

namespace ThreadComponent

open Transitions System

/-- What a class says of its hooks: `settled` once the worker's hook has resolved the start,
`pending` as long as the stop hook of a thread still will. -/
structure StartResolver {C X A : Type} [DecidableEq C] (B : HttpBody C X A) where
  home : X → Option RunnerPc
  home_init : home B.init = none
  home_sync : ∀ {s a x x'}, B.sync s a x = some x' → home x' = a.hookHome (home x)
  home_own : ∀ {s x a x' e}, B.own s x a = some (x', e) → home x' = home x
  inStop : X → C → Prop
  inStop_init : ∀ c, ¬ inStop B.init c
  inStop_sync : ∀ {s a x x' c}, B.sync s a x = some x' → inStop x' c →
    (a ≠ .stopTriggeredEnd c ∧ inStop x c) ∨
      (a = .stopSection c ∧ s.mState.shouldTriggerStop = true)
  inStop_own : ∀ {s x a x' e c}, B.own s x a = some (x', e) → inStop x' c → inStop x c
  pending : X → C → Prop
  pending_inStop : ∀ {x c}, pending x c → inStop x c
  settled : X → Prop
  settled_home : ∀ {x}, settled x → home x ≠ none
  own : ∀ {s x a x' e}, B.own s x a = some (x', e) → ¬ settled x →
    (∃ success port message, e = some (.resolveStartIfPending success port message)) ∨
      (¬ settled x' ∧ ∀ c, pending x c → pending x' c)
  sync : ∀ {s a x x'}, B.sync s a x = some x' → ¬ settled x →
    ¬ settled x' ∧ ∀ c, a ≠ .stopSection c → pending x c → pending x' c
  preRunEnd : ∀ {s r e x x'}, B.sync s (.preRunEnd r e) x = some x' → ¬ settled x →
    e = .value true
  runEnd : ∀ {s r e x x'}, B.sync s (.runEnd r e) x = some x' → settled x

theorem StartState.resolved_of_event {x : StartState} (success : Bool) (port : Nat)
    (message : String) :
    (x.apply (some (.resolveStartIfPending success port message))).startResolved = true := by
  cases hx : x.startResolved with
  | true => exact (apply_of_resolved hx _).1
  | false => simp [apply, resolveStartIfPending, hx]

namespace HttpBody
variable {C X A : Type} [DecidableEq C] {B : HttpBody C X A} {o o' : HttpServer C X}

theorem sync_of_derived {s : BaseWorker C} {a : BaseAction C}
    (h : B.derived.sync s a o = some o') : B.sync s a o.body = some o'.body := by
  simp only [derived, Option.bind_eq_some_iff, Option.map_eq_some_iff] at h
  obtain ⟨o₁, -, x, hx, rfl⟩ := h
  exact hx

theorem own_of_derived {s : BaseWorker C} {a : HttpAction C A}
    (h : B.derived.own s o a = some o') :
    o'.body = o.body ∨ ∃ b e, B.own s o.body b = some (o'.body, e) := by
  cases a with
  | body b =>
    simp only [derived, Option.map_eq_some_iff] at h
    obtain ⟨⟨x, e⟩, hx, rfl⟩ := h
    exact .inr ⟨b, e, by simpa [HttpServer.apply] using hx⟩
  | _ =>
    refine .inl ?_
    simp only [derived] at h
    grind -linarith [HttpServer.setStarter]

end HttpBody

def RunnerPc.over : RunnerPc → Bool
  | .catching _ | .setStopped | .exited | .absent => true
  | _ => false

namespace StartResolver
variable {C X A : Type} [DecidableEq C] {B : HttpBody C X A} (R : StartResolver B)
  {s t u : Object C (HttpServer C X)}

/-- No other `startThread` resets the start state. -/
def OnlyStart (_ : Object C (HttpServer C X)) : ObjectAction C (HttpAction C A) → Prop
  | .own (.startThread _ _) => False
  | _ => True

instance (s : Object C (HttpServer C X)) (a : ObjectAction C (HttpAction C A)) :
    Decidable (OnlyStart s a) := by
  induction a using ObjectAction.casesOn with
  | base a => induction a using BaseAction.casesOn <;> (unfold OnlyStart; infer_instance)
  | own a => induction a using HttpAction.casesOn <;> (unfold OnlyStart; infer_instance)

/-- And where `threadRunner` leaves on a stop request behind `preRun`, the start is resolved
or a stop hook still will do it. -/
def ExitsResolved (s : Object C (HttpServer C X)) : ObjectAction C (HttpAction C A) → Prop
  | .own (.startThread _ _) => False
  | .base (.checkStop _) => s.base.stopRequested = true →
      s.ext.start.startResolved = true ∨ ∃ c, R.pending s.ext.body c
  | _ => True

/-- As long as the start is unresolved the hooks have yet to come to it, and once they are
left a stop hook is about to. -/
def Attempt (s : Object C (HttpServer C X)) : Prop :=
  s.ext.start.startResolved = true ∨
    (¬ R.settled s.ext.body ∧
      (s.base.current.over = true → ∃ c, R.pending s.ext.body c))

variable {R}

theorem hookHome_of_reachable {ok : Object C (HttpServer C X) →
      ObjectAction C (HttpAction C A) → Prop} (hr : B.derived.system.ReachableBy ok s) :
    R.home s.ext.body = s.base.current.hookHome := by
  refine Derived.hookHome_of_reachable (fun o : HttpServer C X => R.home o.body) R.home_init
    (fun h => R.home_sync (HttpBody.sync_of_derived h)) (fun h => ?_) hr
  rcases HttpBody.own_of_derived h with hsame | ⟨b, e, hb⟩
  · rw [hsame]
  · exact R.home_own hb

theorem stopTriggered_of_pending {ok : Object C (HttpServer C X) →
      ObjectAction C (HttpAction C A) → Prop} (hr : B.derived.system.ReachableBy ok s) {c : C}
    (hc : R.pending s.ext.body c) : ∃ k, s.base.caller c = .stopTriggered k := by
  refine Derived.stopTriggered_of_reachable (fun (o : HttpServer C X) c => R.inStop o.body c)
    R.inStop_init (fun h hc => R.inStop_sync (HttpBody.sync_of_derived h) hc)
    (fun h hc => ?_) hr (R.pending_inStop hc)
  rcases HttpBody.own_of_derived h with hsame | ⟨b, e, hb⟩
  · rwa [hsame] at hc
  · exact R.inStop_own hb hc

/-- A start that is resolved stays so until a `startThread` resets it. -/
theorem resolved_of_step {a : ObjectAction C (HttpAction C A)} (hok : OnlyStart s a)
    (h : B.derived.step s a = some t) (hres : s.ext.start.startResolved = true) :
    t.ext.start.startResolved = true := by
  cases HttpBody.bodyStep_of_step h with
  | base _ _ hstart => rwa [hstart]
  | @own a e _ _ hext =>
    have happ : t.ext.start = s.ext.start.apply e := congrArg HttpServer.start hext
    rw [happ]
    exact (StartState.apply_of_resolved hres e).1
  | caller _ _ _ _ hstart =>
    rcases hstart with ⟨-, hsame⟩ | ⟨c, wait, rfl, -⟩
    · rwa [hsame]
    · exact absurd hok id

theorem kept_of_step {a : ObjectAction C (HttpAction C A)} (hr : B.derived.system.Reachable s)
    (h : B.derived.step s a = some t) (hnew : t.ext.start.startResolved = false)
    (hold : ¬ R.settled s.ext.body) :
    ¬ R.settled t.ext.body ∧ ∀ c, R.pending s.ext.body c → R.pending t.ext.body c := by
  cases HttpBody.bodyStep_of_step h with
  | @base a hb hx _ =>
    obtain ⟨hset, hpend⟩ := R.sync hx hold
    refine ⟨hset, fun c hc => hpend c ?_ hc⟩
    -- a thread that has its hook before it is not at the locked section
    rintro rfl
    obtain ⟨k, hk⟩ := stopTriggered_of_pending hr hc
    obtain ⟨k', hk', -⟩ := BaseWorker.step_stopSection.mp hb
    rw [hk] at hk'
    cases hk'
  | @own a e _ hx hext =>
    rcases R.own hx hold with ⟨success, port, message, rfl⟩ | hkept
    · have happ : t.ext.start = s.ext.start.apply
          (some (.resolveStartIfPending success port message)) := congrArg HttpServer.start hext
      rw [happ, StartState.resolved_of_event] at hnew
      cases hnew
    · exact hkept
  | caller _ hx _ _ _ => exact ⟨by rwa [hx], fun c hc => by rwa [hx]⟩

theorem onlyStart_of_exitsResolved {a : ObjectAction C (HttpAction C A)}
    (hok : R.ExitsResolved s a) : OnlyStart s a := by
  cases a with
  | base a => trivial
  | own a =>
    cases a with
    | startThread c wait => exact hok
    | _ => trivial

theorem over_of_not_live {p : RunnerPc} (h : ¬ p.live) : p.over = true := by
  cases p <;> first | rfl | exact absurd (by decide) h

theorem Attempt.step {a : ObjectAction C (HttpAction C A)} (hr : B.derived.system.Reachable s)
    (hx : R.Attempt s) (hok : R.ExitsResolved s a) (h : B.derived.step s a = some t) :
    R.Attempt t := by
  by_cases hnew : t.ext.start.startResolved = true
  · exact .inl hnew
  have hold : s.ext.start.startResolved ≠ true := fun hres =>
    hnew (resolved_of_step (onlyStart_of_exitsResolved hok) h hres)
  obtain ⟨hset, hp⟩ := hx.resolve_left hold
  obtain ⟨hset', hpend⟩ := kept_of_step hr h (by simpa using hnew) hset
  have hover : s.base.current.over = true → ∃ c, R.pending t.ext.body c := fun hov =>
    (hp hov).imp fun c hc => hpend c hc
  refine .inr ⟨hset', ?_⟩
  cases a with
  | own a =>
    rw [(Derived.step_own.mp h).1]
    exact hover
  | base a =>
    obtain ⟨hb, hy⟩ := Derived.step_base.mp h
    have hsync := HttpBody.sync_of_derived hy
    obtain ⟨hi, hu⟩ := Derived.inherits hr
    cases BaseWorker.moves_of_step hi hu hb with
    | rest _ _ hcur => rwa [hcur]
    | launch c created _ hfrom _ _ => exact fun _ => hover (over_of_not_live hfrom)
    | preRunBegin r _ hto => exact fun hov => by rw [hto] at hov; cases hov
    | preRunEnd r e _ hto =>
      obtain rfl := R.preRunEnd hsync hset
      exact fun hov => by rw [hto] at hov; cases hov
    | checkStop r _ hto =>
      intro hov
      cases hflag : s.base.stopRequested with
      | false =>
        rw [hto, hflag] at hov
        cases hov
      | true =>
        obtain ⟨c, hc⟩ := (hok hflag).resolve_left hold
        exact ⟨c, hpend c hc⟩
    | setRunning r _ hto => exact fun hov => by rw [hto] at hov; cases hov
    | runEnd r e _ _ => exact absurd (R.runEnd hsync) hset
    | catchException r e hfrom _ => exact fun _ => hover (by rw [hfrom]; rfl)
    | setStopped r hfrom _ => exact fun _ => hover (by rw [hfrom]; rfl)

/-- The run is over, and every call of `requestStop` made so far has returned. -/
def Quiet (s : BaseWorker C) : Prop :=
  s.mState = .stopped ∧ ∀ c k, s.caller c ≠ .stopSection k ∧ s.caller c ≠ .stopTriggered k

/-- At a launch the hooks have yet to come to the start. -/
theorem attempt_of_launch {c : C} (hr : B.derived.system.Reachable s)
    (hmay : s.base.mayStart = true)
    (h : B.derived.step s (.base (.startSection c true)) = some t) :
    R.Attempt t ∧ t.base.stopRequested = false := by
  obtain ⟨hb, hy⟩ := Derived.step_base.mp h
  obtain ⟨hi, hu⟩ := Derived.inherits hr
  cases BaseWorker.moves_of_step hi hu hb with
  | rest _ hstart _ =>
    rw [hstart c true rfl] at hmay
    cases hmay
  | launch _ _ _ hfrom hflag hto =>
    refine ⟨.inr ⟨fun hset => ?_, fun hov => by rw [hto] at hov; cases hov⟩, hflag⟩
    refine R.settled_home hset ?_
    rw [R.home_sync (HttpBody.sync_of_derived hy), hookHome_of_reachable hr,
      RunnerPc.hookHome_of_not_live hfrom]
    rfl

theorem Attempt.resolved (hr : B.derived.system.Reachable s) (hx : R.Attempt s)
    (hquiet : Quiet s.base) : s.ext.start.startResolved = true := by
  rcases hx with hres | ⟨-, hp⟩
  · exact hres
  · have hlive := BaseWorker.current_not_live (Derived.inherits hr).1 hquiet.1
    obtain ⟨c, hc⟩ := hp (over_of_not_live hlive)
    obtain ⟨k, hk⟩ := stopTriggered_of_pending hr hc
    exact absurd hk (hquiet.2 c k).2

/-- In every run behind a launch in which no other `startThread` resets the start state and
the early exits are resolved, the start is resolved once all is quiet. -/
theorem resolved_of_quiet {c : C} (hr : B.derived.system.Reachable s)
    (hmay : s.base.mayStart = true)
    (h : B.derived.step s (.base (.startSection c true)) = some t)
    (hu : B.derived.system.Reaches R.ExitsResolved t u) (hquiet : Quiet u.base) :
    u.ext.start.startResolved = true := by
  have ht : B.derived.system.Reachable t := .tail (a := .base (.startSection c true)) hr trivial h
  have hboth : B.derived.system.Reachable u ∧ R.Attempt u :=
    hu.keeps (P := fun u => B.derived.system.Reachable u ∧ R.Attempt u)
      (fun _ _ _ hx hok hs => ⟨.tail hx.1 trivial hs, hx.2.step hx.1 hok hs⟩)
      ⟨ht, (attempt_of_launch hr hmay h).1⟩
  exact hboth.2.resolved hboth.1 hquiet

/-! ## Classes whose stop hook always resolves the start -/

/-- The flag is set only where a stop hook has resolved the start or still will. -/
def Requested (R : StartResolver B) (s : Object C (HttpServer C X)) : Prop :=
  s.ext.start.startResolved = true ∨
    (s.base.stopRequested = true → ∃ c, R.pending s.ext.body c)

theorem exitsResolved_of_requested {a : ObjectAction C (HttpAction C A)} (hok : OnlyStart s a)
    (hx : Requested R s) : R.ExitsResolved s a := by
  cases a with
  | own a =>
    cases a with
    | startThread c wait => exact hok
    | _ => trivial
  | base a =>
    cases a with
    | checkStop r =>
      intro hflag
      exact hx.imp id fun hp => hp hflag
    | _ => trivial

theorem Requested.step {a : ObjectAction C (HttpAction C A)}
    (starts : ∀ {s c x x'}, B.sync s (.stopSection c) x = some x' →
      s.mState.shouldTriggerStop = true → R.pending x' c)
    (hr : B.derived.system.Reachable s) (hx : Requested R s) (hatt : R.Attempt s)
    (hok : OnlyStart s a) (h : B.derived.step s a = some t) : Requested R t := by
  by_cases hnew : t.ext.start.startResolved = true
  · exact .inl hnew
  have hold : s.ext.start.startResolved ≠ true := fun hres => hnew (resolved_of_step hok h hres)
  have hp := hx.resolve_left hold
  obtain ⟨hset, hover⟩ := hatt.resolve_left hold
  have hpend := (kept_of_step hr h (by simpa using hnew) hset).2
  refine .inr fun hflag => ?_
  cases a with
  | own a =>
    rw [(Derived.step_own.mp h).1] at hflag
    exact (hp hflag).imp fun c hc => hpend c hc
  | base a =>
    obtain ⟨hb, hy⟩ := Derived.step_base.mp h
    have hsame : t.base.mStopRequested = s.base.mStopRequested → ∃ c, R.pending t.ext.body c :=
      fun hsame => (hp (hsame.symm.trans hflag)).imp fun c hc => hpend c hc
    cases BaseWorker.step_effect hb with
    | launch _ _ _ _ _ _ _ hclear => exact absurd hflag (by simp [BaseWorker.stopRequested, hclear])
    | stop c hact =>
      subst hact
      by_cases htrigger : s.base.mState.shouldTriggerStop = true
      · exact ⟨c, starts (HttpBody.sync_of_derived hy) htrigger⟩
      · -- no hook is called for a run that is over
        have hlive : ¬ s.base.current.live := fun hlive =>
          htrigger (BaseWorker.shouldTriggerStop_of_live (Derived.inherits hr).1
            (BaseWorker.known_of_reachable (Derived.base_reachable hr)) hlive)
        exact (hover (over_of_not_live hlive)).imp fun c hc => hpend c hc
    | running _ _ _ hsame' => exact hsame hsame'
    | finish _ _ _ _ hsame' => exact hsame hsame'
    | quiet _ hsame' => exact hsame hsame'

/-- Where every stop hook resolves the start from its beginning, the start state need only be
left alone. -/
theorem resolved_of_starts
    (starts : ∀ {s c x x'}, B.sync s (.stopSection c) x = some x' →
      s.mState.shouldTriggerStop = true → R.pending x' c)
    {c : C} (hr : B.derived.system.Reachable s) (hmay : s.base.mayStart = true)
    (h : B.derived.step s (.base (.startSection c true)) = some t)
    (hu : B.derived.system.Reaches OnlyStart t u) (hquiet : Quiet u.base) :
    u.ext.start.startResolved = true := by
  have ht : B.derived.system.Reachable t := .tail (a := .base (.startSection c true)) hr trivial h
  obtain ⟨hatt, hflag⟩ := attempt_of_launch (R := R) hr hmay h
  have hall : B.derived.system.Reachable u ∧ Requested R u ∧ R.Attempt u :=
    hu.keeps (P := fun u => B.derived.system.Reachable u ∧ Requested R u ∧ R.Attempt u)
      (fun _ _ _ hx hok hs => ⟨.tail hx.1 trivial hs, hx.2.1.step starts hx.1 hx.2.2 hok hs,
        hx.2.2.step hx.1 (exitsResolved_of_requested hok hx.2.1) hs⟩)
      ⟨ht, .inr fun hset => absurd hset (by simp [hflag]), hatt⟩
  exact hall.2.2.resolved hall.1 hquiet

end StartResolver

end ThreadComponent
