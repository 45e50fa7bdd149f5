import ThreadComponent.HttpStartResolver
import ThreadComponent.HttpOnError

/-!
# Every launched start is resolved

The stop hook of the V1 classes always resolves the start. That of the V2 classes returns
before it does where it finds no io_context.
-/

set_option autoImplicit false
set_option linter.unusedSectionVars false

namespace ThreadComponent

open Transitions System

namespace ServerV1
variable {C : Type} [DecidableEq C]

/-- The part of `threadRunner` that a place belongs to. `preRun` does not throw. -/
def hookHome : ServerHook → Option RunnerPc
  | .idle => none
  | .preRun | .makeServer | .addResources | .resetFailed | .preRunDone (.value _) => some .preRun
  | .preRunDone (.threw _) => some .entry
  | _ => some .run

def Settled : ServerHook → Bool
  | .resetFailed | .preRunDone (.value false) | .preRunDone (.threw _) | .resetServer
  | .runDone _ => true
  | _ => false

def Resolving : ServerStop → Bool
  | .getServer | .stopServer _ | .resolveStart => true
  | _ => false

theorem hookHome_of_settled {p : ServerHook} (h : Settled p = true) : hookHome p ≠ none := by
  cases p with
  | preRunDone e => rcases e with ⟨_ | _⟩ | _ <;> simp [hookHome]
  | _ => simp_all [Settled, hookHome]

theorem stop_setStop {x : ServerV1 C} {c d : C} {p : ServerStop} :
    (x.setStop c p).stop d = if d = c then p else x.stop d :=
  Function.update_apply _ _ _ _

theorem sync_stop {s : BaseWorker C} {a : BaseAction C} {x x' : ServerV1 C} {c : C}
    (h : sync s a x = some x') (hne : a ≠ .stopSection c) :
    x'.stop c = x.stop c ∨ x.stop c = .done := by
  cases a with
  | preRunBegin r => obtain rfl := Option.some.inj h; exact .inl rfl
  | setRunning r => obtain rfl := Option.some.inj h; exact .inl rfl
  | _ => simp only [sync] at h; grind -linarith [stop_setStop]

theorem sync_home {s : BaseWorker C} {a : BaseAction C} {x x' : ServerV1 C}
    (h : sync s a x = some x') : hookHome x'.hook = a.hookHome (hookHome x.hook) := by
  cases a <;> simp only [sync] at h <;> grind -linarith [BaseAction.hookHome, hookHome, setStop]

theorem sync_settled {s : BaseWorker C} {a : BaseAction C} {x x' : ServerV1 C}
    (h : sync s a x = some x') (hset : ¬ Settled x.hook = true) :
    ¬ Settled x'.hook = true := by
  cases a <;> simp only [sync] at h <;> grind -linarith [Settled, setStop]

theorem sync_inStop {s : BaseWorker C} {a : BaseAction C} {x x' : ServerV1 C} {c : C}
    (h : sync s a x = some x') (hc : x'.stop c ≠ .idle) :
    (a ≠ .stopTriggeredEnd c ∧ x.stop c ≠ .idle) ∨
      (a = .stopSection c ∧ s.mState.shouldTriggerStop = true) := by
  cases a <;> simp only [sync] at h <;> grind -linarith [stop_setStop]

theorem own_home {kind : HttpKind} {s : BaseWorker C} {a : ServerAction C} {x x' : ServerV1 C}
    {e : Option StartEvent} (h : own kind s x a = some (x', e)) :
    hookHome x'.hook = hookHome x.hook := by
  cases a <;> simp only [own] at h <;>
    grind -linarith [hookHome, setStop, preRunFailed, resolveFailure]

theorem own_inStop {kind : HttpKind} {s : BaseWorker C} {a : ServerAction C}
    {x x' : ServerV1 C} {e : Option StartEvent} {c : C} (h : own kind s x a = some (x', e))
    (hc : x'.stop c ≠ .idle) : x.stop c ≠ .idle := by
  cases a <;> simp only [own] at h <;> grind -linarith [stop_setStop, preRunFailed, resolveFailure]

/-- A step that moves a hook past its resolvers resolves the start itself. -/
theorem own_resolves {kind : HttpKind} {s : BaseWorker C} {a : ServerAction C}
    {x x' : ServerV1 C} {e : Option StartEvent} (h : own kind s x a = some (x', e))
    (hset : ¬ Settled x.hook = true) :
    (∃ success port message, e = some (.resolveStartIfPending success port message)) ∨
      (¬ Settled x'.hook = true ∧
        ∀ c, Resolving (x.stop c) = true → Resolving (x'.stop c) = true) := by
  cases a <;> simp only [own] at h <;>
    grind -linarith [Settled, Resolving, setStop, stop_setStop, preRunFailed, resolveFailure]

theorem sync_resolving {s : BaseWorker C} {a : BaseAction C} {x x' : ServerV1 C} {c : C}
    (h : sync s a x = some x') (hne : a ≠ .stopSection c)
    (hc : Resolving (x.stop c) = true) : Resolving (x'.stop c) = true := by
  rcases sync_stop h hne with hsame | hdone
  · rwa [hsame]
  · rw [hdone] at hc
    cases hc

theorem preRunEnd_value {s : BaseWorker C} {r : Nat} {e : HookEnd} {x x' : ServerV1 C}
    (h : sync s (.preRunEnd r e) x = some x') (hset : ¬ Settled x.hook = true) :
    e = .value true := by
  simp only [sync, Option.ite_none_right_eq_some] at h
  rw [h.1] at hset
  rcases e with ⟨_ | _⟩ | _
  · exact absurd rfl hset
  · rfl
  · exact absurd rfl hset

theorem runEnd_settled {s : BaseWorker C} {r : Nat} {e : HookEnd} {x x' : ServerV1 C}
    (h : sync s (.runEnd r e) x = some x') : Settled x.hook = true := by
  simp only [sync, Option.ite_none_right_eq_some] at h
  rw [h.1]
  rfl

def resolver (kind : HttpKind) : StartResolver (body (C := C) kind) where
  home x := hookHome x.hook
  home_init := rfl
  home_sync := sync_home
  home_own := own_home
  inStop x c := x.stop c ≠ .idle
  inStop_init c h := h rfl
  inStop_sync := sync_inStop
  inStop_own := own_inStop
  pending x c := Resolving (x.stop c) = true
  pending_inStop {x c} h hidle := by rw [hidle] at h; cases h
  settled x := Settled x.hook = true
  settled_home h := hookHome_of_settled h
  own := own_resolves
  sync h hset := ⟨sync_settled h hset, fun _ hne hc => sync_resolving h hne hc⟩
  preRunEnd {s r _ _ _} h hset := preRunEnd_value (s := s) (r := r) h hset
  runEnd {s r _ _ _} h := runEnd_settled (s := s) (r := r) h

/-- Every way through the stop hook resolves the start. -/
theorem resolver_starts (kind : HttpKind) {s : BaseWorker C} {c : C} {x x' : ServerV1 C}
    (h : (body kind).sync s (.stopSection c) x = some x')
    (htrigger : s.mState.shouldTriggerStop = true) : (resolver kind).pending x' c := by
  simp only [body, sync, htrigger, if_true] at h
  obtain rfl := Option.some.inj h
  simp [resolver, stop_setStop, Resolving]

end ServerV1

namespace ServerV2
variable {C H : Type} [DecidableEq C]

/-- The part of `threadRunner` that a place belongs to. `preRun` does not throw. -/
def hookHome : ServerHookV2 → Option RunnerPc
  | .idle => none
  | .preRun | .preRunDone (.value _) => some .preRun
  | .preRunDone (.threw _) => some .entry
  | _ => some .run

def Settled : ServerHookV2 → Bool
  | .preRunDone (.value false) | .preRunDone (.threw _) | .cleanUp | .runDone _ => true
  | _ => false

theorem hookHome_of_settled {p : ServerHookV2} (h : Settled p = true) : hookHome p ≠ none := by
  cases p with
  | preRunDone e => rcases e with ⟨_ | _⟩ | _ <;> simp [hookHome]
  | _ => simp_all [Settled, hookHome]

/-- A stop hook that has found an io_context, or still will, resolves the start. -/
def Resolving (x : ServerV2 C H) (c : HttpCaller C) : Prop :=
  x.stop c = .resolveStart ∨ (x.stop c = .getIo ∧ x.mIo ≠ none)

theorem stop_setStop {x : ServerV2 C H} {c d : HttpCaller C} {p : ServerStopV2} :
    (x.setStop c p).stop d = if d = c then p else x.stop d :=
  Function.update_apply _ _ _ _

theorem sync_stop {s : BaseWorker (HttpCaller C)} {a : BaseAction (HttpCaller C)}
    {x x' : ServerV2 C H} {c : HttpCaller C} (h : sync s a x = some x')
    (hne : a ≠ .stopSection c) :
    (x'.stop c = x.stop c ∨ x.stop c = .done) ∧ x'.mIo = x.mIo := by
  cases a with
  | call d k =>
    cases d <;> simp only [sync] at h <;> grind -linarith [setIo]
  | preRunBegin r => obtain rfl := Option.some.inj h; exact ⟨.inl rfl, rfl⟩
  | setRunning r => obtain rfl := Option.some.inj h; exact ⟨.inl rfl, rfl⟩
  | _ => simp only [sync] at h; grind -linarith [stop_setStop, setStop, setHook]

def OfStop : ServerActionV2 C → Prop
  | .stopGetIo _ | .stopServer _ | .stopResolve _ => True
  | _ => False

theorem own_of_not_ofStop {kind : HttpKind} {s : BaseWorker (HttpCaller C)}
    {a : ServerActionV2 C} {x x' : ServerV2 C H} {e : Option StartEvent} (ha : ¬ OfStop a)
    (h : own kind s x a = some (x', e)) :
    x'.stop = x.stop ∧ (x'.mIo = none → x.mIo = none ∨ Settled x.hook = true) := by
  cases a <;> simp only [own, OfStop, not_true_eq_false] at h ha <;>
    grind -linarith [setHook, setIo, install, cleanUp, spawn, createThreads, runFails, Settled]

theorem own_of_ofStop {kind : HttpKind} {s : BaseWorker (HttpCaller C)}
    {a : ServerActionV2 C} {x x' : ServerV2 C H} {e : Option StartEvent} (ha : OfStop a)
    (h : own kind s x a = some (x', e)) :
    x'.hook = x.hook ∧ x'.mIo = x.mIo ∧ ∃ d p, x' = x.setStop d p ∧ x.stop d ≠ .idle ∧
      ((∃ success port message, e = some (.resolveStartIfPending success port message)) ∨
        p = .resolveStart ∨ (x.stop d = .getIo ∧ x.mIo = none) ∨ x.stop d = .stopServer) := by
  cases a with
  | stopGetIo c =>
    simp only [own, Option.ite_none_right_eq_some, Option.some.injEq, Prod.mk.injEq] at h
    obtain ⟨hc, rfl, -⟩ := h
    refine ⟨rfl, rfl, c, _, rfl, by simp [hc], .inr ?_⟩
    by_cases hio : x.mIo = none <;> simp [hc, hio]
  | stopServer c =>
    simp only [own, Option.ite_none_right_eq_some, Option.some.injEq, Prod.mk.injEq] at h
    obtain ⟨hc, rfl, -⟩ := h
    exact ⟨rfl, rfl, c, _, rfl, by simp [hc], .inr (.inr (.inr hc))⟩
  | stopResolve c =>
    simp only [own, Option.ite_none_right_eq_some, Option.some.injEq, Prod.mk.injEq] at h
    obtain ⟨hc, rfl, rfl⟩ := h
    exact ⟨rfl, rfl, c, _, rfl, by simp [hc], .inl ⟨_, _, _, rfl⟩⟩
  | _ => exact absurd ha id

/-- A step that moves the hook past its resolvers resolves the start itself. -/
theorem own_settled {kind : HttpKind} {s : BaseWorker (HttpCaller C)}
    {a : ServerActionV2 C} {x x' : ServerV2 C H} {e : Option StartEvent}
    (h : own kind s x a = some (x', e)) (hset : ¬ Settled x.hook = true) :
    (∃ success port message, e = some (.resolveStartIfPending success port message)) ∨
      ¬ Settled x'.hook = true := by
  cases a <;> simp only [own] at h <;>
    grind -linarith [Settled, setHook, setIo, setStop, install, cleanUp, spawn, createThreads,
      runFails]

theorem sync_home {s : BaseWorker (HttpCaller C)} {a : BaseAction (HttpCaller C)}
    {x x' : ServerV2 C H} (h : sync s a x = some x') :
    hookHome x'.hook = a.hookHome (hookHome x.hook) := by
  cases a with
  | call d k => cases d <;> simp only [sync] at h <;> grind -linarith [BaseAction.hookHome, setIo]
  | _ => simp only [sync] at h; grind -linarith [BaseAction.hookHome, hookHome, setStop, setHook]

theorem own_home {kind : HttpKind} {s : BaseWorker (HttpCaller C)} {a : ServerActionV2 C}
    {x x' : ServerV2 C H} {e : Option StartEvent} (h : own kind s x a = some (x', e)) :
    hookHome x'.hook = hookHome x.hook := by
  cases a <;> simp only [own] at h <;>
    grind -linarith [hookHome, setStop, setHook, setIo, install, cleanUp, spawn, createThreads,
      runFails]

theorem sync_settled {s : BaseWorker (HttpCaller C)} {a : BaseAction (HttpCaller C)}
    {x x' : ServerV2 C H} (h : sync s a x = some x') (hset : ¬ Settled x.hook = true) :
    ¬ Settled x'.hook = true := by
  cases a with
  | call d k => cases d <;> simp only [sync] at h <;> grind -linarith [setIo]
  | _ => simp only [sync] at h; grind -linarith [Settled, setStop, setHook]

theorem sync_inStop {s : BaseWorker (HttpCaller C)} {a : BaseAction (HttpCaller C)}
    {x x' : ServerV2 C H} {c : HttpCaller C} (h : sync s a x = some x')
    (hc : x'.stop c ≠ .idle) :
    (a ≠ .stopTriggeredEnd c ∧ x.stop c ≠ .idle) ∨
      (a = .stopSection c ∧ s.mState.shouldTriggerStop = true) := by
  by_cases hne : a = .stopSection c
  · subst hne
    simp only [sync] at h
    grind -linarith
  · have hlive : x.stop c ≠ .idle := by
      rcases sync_stop h hne with ⟨hsame | hdone, -⟩
      · rwa [hsame] at hc
      · simp [hdone]
    refine .inl ⟨?_, hlive⟩
    rintro rfl
    simp only [sync] at h
    grind -linarith [stop_setStop]

theorem own_inStop {kind : HttpKind} {s : BaseWorker (HttpCaller C)} {a : ServerActionV2 C}
    {x x' : ServerV2 C H} {e : Option StartEvent} {c : HttpCaller C}
    (h : own kind s x a = some (x', e)) (hc : x'.stop c ≠ .idle) : x.stop c ≠ .idle := by
  by_cases ha : OfStop a
  · obtain ⟨-, -, d, p, rfl, hd, -⟩ := own_of_ofStop ha h
    by_cases hcd : c = d
    · rwa [hcd]
    · rwa [stop_setStop, if_neg hcd] at hc
  · rwa [(own_of_not_ofStop ha h).1] at hc

theorem own_resolves {kind : HttpKind} {s : BaseWorker (HttpCaller C)} {a : ServerActionV2 C}
    {x x' : ServerV2 C H} {e : Option StartEvent} (h : own kind s x a = some (x', e))
    (hset : ¬ Settled x.hook = true) :
    (∃ success port message, e = some (.resolveStartIfPending success port message)) ∨
      (¬ Settled x'.hook = true ∧ ∀ c, Resolving x c → Resolving x' c) := by
  rcases own_settled h hset with hres | hset'
  · exact .inl hres
  · by_cases ha : OfStop a
    · obtain ⟨-, hio, d, p, rfl, -, hres | hp⟩ := own_of_ofStop ha h
      · exact .inl hres
      · refine .inr ⟨hset', fun c hc => ?_⟩
        unfold Resolving at hc ⊢
        rw [stop_setStop, hio]
        grind -linarith
    · obtain ⟨hstop, hio⟩ := own_of_not_ofStop ha h
      refine .inr ⟨hset', fun c hc => ?_⟩
      unfold Resolving at hc ⊢
      rw [hstop]
      exact hc.imp id fun hc => ⟨hc.1, fun hnone => (hio hnone).elim hc.2 hset⟩

theorem sync_resolving {s : BaseWorker (HttpCaller C)} {a : BaseAction (HttpCaller C)}
    {x x' : ServerV2 C H} {c : HttpCaller C} (h : sync s a x = some x')
    (hne : a ≠ .stopSection c) (hc : Resolving x c) : Resolving x' c := by
  obtain ⟨hsame | hdone, hio⟩ := sync_stop h hne
  · unfold Resolving
    rwa [hsame, hio]
  · rcases hc with hc | ⟨hc, -⟩ <;> rw [hdone] at hc <;> cases hc

theorem preRunEnd_value {s : BaseWorker (HttpCaller C)} {r : Nat} {e : HookEnd}
    {x x' : ServerV2 C H} (h : sync s (.preRunEnd r e) x = some x')
    (hset : ¬ Settled x.hook = true) : e = .value true := by
  simp only [sync, Option.ite_none_right_eq_some] at h
  rw [h.1] at hset
  rcases e with ⟨_ | _⟩ | _
  · exact absurd rfl hset
  · rfl
  · exact absurd rfl hset

theorem runEnd_settled {s : BaseWorker (HttpCaller C)} {r : Nat} {e : HookEnd}
    {x x' : ServerV2 C H} (h : sync s (.runEnd r e) x = some x') : Settled x.hook = true := by
  simp only [sync, Option.ite_none_right_eq_some] at h
  rw [h.1]
  rfl

def resolver (kind : HttpKind) (h : Option H) : StartResolver (body (C := C) kind h) where
  home x := hookHome x.hook
  home_init := rfl
  home_sync := sync_home
  home_own := own_home
  inStop x c := x.stop c ≠ .idle
  inStop_init c h := h rfl
  inStop_sync := sync_inStop
  inStop_own := own_inStop
  pending x c := Resolving x c
  pending_inStop {x c} h hidle := by
    rcases h with h | ⟨h, -⟩ <;> rw [hidle] at h <;> cases h
  settled x := Settled x.hook = true
  settled_home h := hookHome_of_settled h
  own := own_resolves
  sync h hset := ⟨sync_settled h hset, fun _ hne hc => sync_resolving h hne hc⟩
  preRunEnd {s r _ _ _} h hset := preRunEnd_value (s := s) (r := r) h hset
  runEnd {s r _ _ _} h := runEnd_settled (s := s) (r := r) h

/-- No other `startThread` resets the start state. Where `threadRunner` leaves on a stop request
behind `preRun` the start is resolved, or a stop hook has still to read `m_io` or to resolve. -/
def ExitsResolved (s : Object (HttpCaller C) (HttpServer (HttpCaller C) (ServerV2 C H))) :
    ObjectAction (HttpCaller C) (HttpAction (HttpCaller C) (ServerActionV2 C)) → Prop
  | .own (.startThread _ _) => False
  | .base (.checkStop _) => s.base.stopRequested = true →
      s.ext.start.startResolved = true ∨ ∃ c, Resolving s.ext.body c
  | _ => True

theorem resolver_exitsResolved {kind : HttpKind} {h : Option H}
    {s : Object (HttpCaller C) (HttpServer (HttpCaller C) (ServerV2 C H))}
    {a : ObjectAction (HttpCaller C) (HttpAction (HttpCaller C) (ServerActionV2 C))}
    (hok : ExitsResolved s a) : (resolver kind h).ExitsResolved s a := by
  cases a with
  | own a =>
    cases a with
    | startThread c wait => exact hok
    | _ => trivial
  | base a =>
    cases a with
    | checkStop r => exact hok
    | _ => trivial

end ServerV2

/-- Behind every launch and a run whose steps meet `ok`: where the worker is Stopped and every
call of `requestStop` made so far has returned, the start is resolved. -/
def ResolvesStart {C X A : Type} [DecidableEq C]
    (D : Derived C (HttpServer C X) (HttpAction C A))
    (ok : Object C (HttpServer C X) → ObjectAction C (HttpAction C A) → Prop) : Prop :=
  ∀ s t u c, D.system.Reachable s → s.base.mayStart = true →
    D.step s (.base (.startSection c true)) = some t → D.system.Reaches ok t u →
    u.base.mState = .stopped →
    (∀ d k, u.base.caller d ≠ .stopSection k ∧ u.base.caller d ≠ .stopTriggered k) →
    u.ext.start.startResolved = true

theorem every_launched_start_is_resolved (C H : Type) [DecidableEq C] :
    ResolvesStart (cHTTPServer C) StartResolver.OnlyStart ∧
    ResolvesStart (cHTTPSServer C) StartResolver.OnlyStart ∧
    ∀ h : Option H, ResolvesStart (cHTTPServer_V2 C h) ServerV2.ExitsResolved ∧
      ResolvesStart (cHTTPSServer_V2 C h) ServerV2.ExitsResolved := by
  have hv1 : ∀ kind, ResolvesStart (ServerV1.body (C := C) kind).derived StartResolver.OnlyStart :=
    fun kind s t u c hr hmay h hu hstate hcalls =>
      StartResolver.resolved_of_starts (R := ServerV1.resolver kind)
        (ServerV1.resolver_starts kind) hr hmay h hu ⟨hstate, hcalls⟩
  have hv2 : ∀ kind h, ResolvesStart (ServerV2.body (C := C) (H := H) kind h).derived
      ServerV2.ExitsResolved :=
    fun kind h s t u c hr hmay hs hu hstate hcalls =>
      StartResolver.resolved_of_quiet (R := ServerV2.resolver kind h) hr hmay hs
        (hu.mono fun _ _ => ServerV2.resolver_exitsResolved) ⟨hstate, hcalls⟩
  exact ⟨hv1 .http, hv1 .https, fun h => ⟨hv2 .http h, hv2 .https h⟩⟩

theorem CallerPc.not_stopping_of_free {p : CallerPc} (h : p.free = true) (k : Call) :
    p ≠ .stopSection k ∧ p ≠ .stopTriggered k := by
  constructor <;> rintro rfl <;> cases h

namespace ServerV2
variable {C H : Type} [DecidableEq C]

abbrev AttemptSchedule :=
  List (ObjectAction (HttpCaller Bool) (HttpAction (HttpCaller Bool) (ServerActionV2 Bool)))

def callSchedule : AttemptSchedule :=
  [.own (.startThread (.user false) true), .base (.call (.user false) (.startThread false)),
    .base (.joinFinished (.user false))]

/-- Thread `true` calls `requestStop` to the end, before there is an io_context. -/
def earlyStopSchedule : AttemptSchedule :=
  [.base (.call (.user true) .requestStop), .base (.stopSection (.user true)),
    .own (.body (.stopGetIo (.user true))), .own (.body (.stopServer (.user true))),
    .base (.stopTriggeredEnd (.user true))]

def preparedSchedule : AttemptSchedule :=
  [.base (.preRunBegin 0), .own (.body .preRun), .base (.preRunEnd 0 (.value true)),
    .base (.checkStop 0)]

def thrownSchedule : AttemptSchedule :=
  [.base (.setRunning 0), .own (.body (.startThrows ⟨1, some "bind"⟩)),
    .base (.runEnd 0 (.threw 1)), .base (.catchException 0), .base (.setStopped 0),
    .own (.waitUntilListening (.user false))]

/-- The start state is left alone, and nobody asks for a stop before the run is published. -/
def Unstopped (s : Object (HttpCaller C) (HttpServer (HttpCaller C) (ServerV2 C H))) :
    ObjectAction (HttpCaller C) (HttpAction (HttpCaller C) (ServerActionV2 C)) → Prop
  | .own (.startThread _ _) => False
  | .base (.checkStop _) => s.base.stopRequested = false
  | _ => True

instance (s : Object (HttpCaller C) (HttpServer (HttpCaller C) (ServerV2 C H)))
    (a : ObjectAction (HttpCaller C) (HttpAction (HttpCaller C) (ServerActionV2 C))) :
    Decidable (Unstopped s a) := by
  induction a using ObjectAction.casesOn with
  | base a => induction a using BaseAction.casesOn <;> (unfold Unstopped; infer_instance)
  | own a => induction a using HttpAction.casesOn <;> (unfold Unstopped; infer_instance)

theorem exitsResolved_of_unstopped
    {s : Object (HttpCaller C) (HttpServer (HttpCaller C) (ServerV2 C H))}
    {a : ObjectAction (HttpCaller C) (HttpAction (HttpCaller C) (ServerActionV2 C))}
    (hok : Unstopped s a) : ExitsResolved s a := by
  cases a with
  | own a =>
    cases a with
    | startThread c wait => exact hok
    | _ => trivial
  | base a =>
    cases a with
    | checkStop r =>
      have hclear : s.base.stopRequested = false := hok
      exact fun hset => by rw [hclear] at hset; cases hset
    | _ => trivial

theorem every_launched_start_is_resolved_thrown :
    let D := cHTTPServer_V2 Bool (some 7)
    let s := D.system.after Free D.system.init callSchedule
    let t := D.system.after Free s [.base (.startSection (.user false) true)]
    let u := D.system.after Unstopped t
      (.own (.startReturned (.user false)) :: (preparedSchedule ++ thrownSchedule))
    u.ext.starter (.user false) = .returned false ∧ u.ext.start.startResolved = true := by
  intro D s t u
  refine ⟨by decide, ((every_launched_start_is_resolved Bool Nat).2.2 (some 7)).1 s t u
    (.user false) (reaches_after (by decide)) (by decide) rfl
    ((reaches_after (by decide)).mono fun _ _ => exitsResolved_of_unstopped) (by decide)
    fun c => CallerPc.not_stopping_of_free ?_⟩
  rcases c with (_ | _) | i <;> rfl

/-- A stop hook that finds no io_context leaves the start unresolved, and behind `preRun` the
run ends without coming to `run`. -/
theorem early_stop_leaves_start_pending :
    ¬ ResolvesStart (cHTTPServer_V2 Bool (none : Option Nat)) StartResolver.OnlyStart := by
  intro hclaim
  let S := (cHTTPServer_V2 Bool (none : Option Nat)).system
  let s := S.after Free S.init callSchedule
  let t := S.after Free s [.base (.startSection (.user false) true)]
  have h := hclaim s t (S.after StartResolver.OnlyStart t (earlyStopSchedule ++
    preparedSchedule.concat (.base (.setStopped 0)))) (.user false) (reaches_after (by decide))
    (by decide) rfl (reaches_after (by decide)) (by decide)
    fun c => CallerPc.not_stopping_of_free (by rcases c with (_ | _) | i <;> rfl)
  revert h
  decide

end ServerV2

end ThreadComponent
