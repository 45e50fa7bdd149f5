import Mathlib.Data.Fintype.Basic
import ThreadComponent.HttpStartResolved

/-!
# The server object behind a stop of cHTTPServer and cHTTPSServer

`stopTriggered` takes a raw pointer to the server object under the mutex and calls `stop()`
behind it. The pointer stays good if `start()` comes back behind every such call, and no stop
hook reads the pointer on the worker's way from there to its reset.
-/

set_option autoImplicit false
set_option linter.unusedSectionVars false

namespace ThreadComponent

open Transitions System

/-- From the read of the pointer to the return of `stop()`. -/
def ServerStop.pending : ServerStop → Bool
  | .stopServer _ => true
  | _ => false

/-- Is the worker's thread on its way to reset the pointer there? -/
def ServerHook.leaving : ServerHook → Bool
  | .resetFailed | .serverReturned | .resetServer => true
  | _ => false

namespace ServerV1
variable {C : Type} [DecidableEq C] {kind : HttpKind} {s t : BaseWorker C} {x y : ServerV1 C}

/-- Every `stop()` that waits or runs is on the object that `m_impl->server` owns. -/
structure Guarded (x : ServerV1 C) : Prop where
  live : ∀ c i, x.stop c = .stopServer i → x.server = some i
  leaving : x.hook.leaving = true → ∀ c, (x.stop c).pending = false

/-- `start()` returns, `addResources` fails and `preRun` replaces the server only with no
`stop()` pending or in progress, and no stop hook gets a server that is about to be reset. -/
def StopsReturnFirst (s : Object C (HttpServer C (ServerV1 C))) :
    ObjectAction C (HttpAction C (ServerAction C)) → Prop
  | .own (.body (.makeServer _)) => ∀ c, (s.ext.body.stop c).pending = false
  | .own (.body (.addResources (some _))) => ∀ c, (s.ext.body.stop c).pending = false
  | .own (.body .startReturns) => ∀ c, (s.ext.body.stop c).pending = false
  | .own (.body (.stopGetServer _)) =>
    s.ext.body.hook.leaving = true → s.ext.body.server = none
  | _ => True

instance [Fintype C] (s : Object C (HttpServer C (ServerV1 C)))
    (a : ObjectAction C (HttpAction C (ServerAction C))) : Decidable (StopsReturnFirst s a) := by
  induction a using ObjectAction.casesOn with
  | base a => induction a using BaseAction.casesOn <;> (unfold StopsReturnFirst; infer_instance)
  | own a =>
    induction a using HttpAction.casesOn with
    | body a =>
      induction a using ServerAction.casesOn with
      | addResources failure =>
        induction failure using Option.casesOn <;> (unfold StopsReturnFirst; infer_instance)
      | _ => unfold StopsReturnFirst; infer_instance
    | _ => unfold StopsReturnFirst; infer_instance

/-- The worker's thread goes on with the server object in place. -/
theorem Guarded.of_same (hx : Guarded x) (hserver : y.server = x.server)
    (hstop : ∀ c i, y.stop c = .stopServer i → x.stop c = .stopServer i)
    (hhook : y.hook.leaving = true → x.hook.leaving = true) : Guarded y where
  live c i hc := hserver.trans (hx.live c i (hstop c i hc))
  leaving hl c := by
    have hnone := hx.leaving (hhook hl) c
    cases hc : y.stop c with
    | stopServer i =>
      rw [hstop c i hc] at hnone
      cases hnone
    | _ => rfl

theorem Guarded.of_none (hnone : ∀ c, (y.stop c).pending = false) : Guarded y where
  live c i hc := by
    have hpending := hnone c
    rw [hc] at hpending
    cases hpending
  leaving _ := hnone

theorem Guarded.setStop {c : C} {p : ServerStop} (hx : Guarded x) (hp : p.pending = false) :
    Guarded (x.setStop c p) := by
  refine hx.of_same rfl (fun d i hd => ?_) id
  by_cases hdc : d = c
  · subst hdc
    rw [show (x.setStop d p).stop d = p from Function.update_self ..] at hd
    rw [hd] at hp
    cases hp
  · rwa [show (x.setStop c p).stop d = x.stop d from Function.update_of_ne hdc ..] at hd

theorem Guarded.sync {a : BaseAction C} (hx : Guarded x) (h : sync s a x = some y) :
    Guarded y := by
  cases a with
  | preRunBegin r | setRunning r =>
    obtain rfl := Option.some.inj h
    exact hx.of_same rfl (fun _ _ => id) (fun hl => by cases hl)
  | preRunEnd r e | runEnd r e =>
    simp only [ServerV1.sync, Option.ite_none_right_eq_some, Option.some.injEq] at h
    obtain ⟨-, rfl⟩ := h
    exact hx.of_same rfl (fun _ _ => id) (fun hl => by cases hl)
  | stopSection c =>
    obtain rfl := Option.some.inj h
    split
    · exact hx.setStop rfl
    · exact hx
  | stopTriggeredEnd c =>
    simp only [ServerV1.sync, Option.ite_none_right_eq_some, Option.some.injEq] at h
    obtain ⟨-, rfl⟩ := h
    exact hx.setStop rfl
  | _ =>
    obtain rfl := Option.some.inj h
    exact hx

theorem Guarded.stopGetServer {c : C} (hx : Guarded x)
    (hok : x.hook.leaving = true → x.server = none) :
    Guarded (x.setStop c (match x.server with
      | some i => .stopServer i
      | none => .resolveStart)) := by
  cases hserver : x.server with
  | none => exact hx.setStop rfl
  | some j =>
    have hstay : x.hook.leaving = false := by
      by_contra hl
      rw [hok (by simpa using hl)] at hserver
      cases hserver
    constructor
    · intro d i hd
      by_cases hdc : d = c
      · subst hdc
        rw [show (x.setStop d (.stopServer j)).stop d = .stopServer j
          from Function.update_self ..] at hd
        obtain rfl : j = i := ServerStop.stopServer.inj hd
        exact hserver
      · rw [show (x.setStop c (.stopServer j)).stop d = x.stop d
          from Function.update_of_ne hdc ..] at hd
        exact hx.live d i hd
    · intro hl
      rw [show (x.setStop c (.stopServer j)).hook = x.hook from rfl, hstay] at hl
      cases hl

theorem Guarded.own {a : ServerAction C} {e : Option StartEvent} {o : HttpServer C (ServerV1 C)}
    (hx : Guarded o.body) (hok : StopsReturnFirst ⟨s, o⟩ (.own (.body a)))
    (h : own kind s o.body a = some (y, e)) : Guarded y := by
  have hold : ∀ c i, o.body.stop c = .stopServer i → o.body.stop c = .stopServer i :=
    fun _ _ => id
  cases a with
  | makeServer failure =>
    -- whether a new server replaces the old one or `preRun` fails
    refine .of_none fun c => ?_
    have hnone : (o.body.stop c).pending = false := hok c
    simp only [ServerV1.own] at h
    grind -linarith [preRunFailed]
  | addResources failure =>
    cases failure with
    | none =>
      simp only [ServerV1.own, Option.ite_none_right_eq_some, Option.some.injEq] at h
      obtain ⟨-, h⟩ := h
      obtain ⟨rfl, -⟩ := Prod.mk.inj h
      exact hx.of_same rfl hold (fun hl => by cases hl)
    | some f =>
      refine .of_none fun c => ?_
      have hnone : (o.body.stop c).pending = false := hok c
      simp only [ServerV1.own] at h
      grind -linarith [preRunFailed]
  | startReturns =>
    refine .of_none fun c => ?_
    have hnone : (o.body.stop c).pending = false := hok c
    simp only [ServerV1.own] at h
    grind -linarith
  | resetFailed =>
    simp only [ServerV1.own, Option.ite_none_right_eq_some, Option.some.injEq] at h
    obtain ⟨hhook, h⟩ := h
    obtain ⟨rfl, -⟩ := Prod.mk.inj h
    exact .of_none (hx.leaving (by rw [hhook]; rfl))
  | resetServer =>
    simp only [ServerV1.own, Option.ite_none_right_eq_some, Option.some.injEq] at h
    obtain ⟨hhook, h⟩ := h
    obtain ⟨rfl, -⟩ := Prod.mk.inj h
    exact .of_none (hx.leaving (by rw [hhook]; rfl))
  | resolveExited =>
    simp only [ServerV1.own, Option.ite_none_right_eq_some, Option.some.injEq] at h
    obtain ⟨hhook, h⟩ := h
    obtain ⟨rfl, -⟩ := Prod.mk.inj h
    exact hx.of_same rfl hold (fun _ => by rw [hhook]; rfl)
  | stopGetServer c =>
    simp only [ServerV1.own, Option.ite_none_right_eq_some, Option.some.injEq] at h
    obtain ⟨-, h⟩ := h
    obtain ⟨rfl, -⟩ := Prod.mk.inj h
    exact hx.stopGetServer hok
  | stopServer c =>
    simp only [ServerV1.own] at h
    split at h
    · obtain ⟨rfl, -⟩ := Prod.mk.inj (Option.some.inj h)
      exact hx.setStop rfl
    · cases h
  | stopResolve c =>
    simp only [ServerV1.own, Option.ite_none_right_eq_some, Option.some.injEq] at h
    obtain ⟨-, h⟩ := h
    obtain ⟨rfl, -⟩ := Prod.mk.inj h
    exact hx.setStop rfl
  | _ =>
    have hframe : y.server = o.body.server ∧ y.stop = o.body.stop ∧
        (y.hook.leaving = true → o.body.hook.leaving = true) := by
      simp only [ServerV1.own] at h
      grind -linarith [resolveFailure, ServerHook.leaving]
    obtain ⟨hserver, hstop, hhook⟩ := hframe
    exact hx.of_same hserver (fun c i hc => hstop ▸ hc) hhook

theorem guarded_of_reachable {s : Object C (HttpServer C (ServerV1 C))}
    (hr : (ServerV1.body kind).derived.system.ReachableBy StopsReturnFirst s) :
    Guarded s.ext.body := by
  refine ReachableBy.invariant (P := fun s => Guarded s.ext.body) ?_ ?_ hr
  · exact .of_none fun _ => rfl
  · intro s a t _ hx hok hs
    cases HttpBody.bodyStep_of_step hs with
    | base _ hy => exact hx.sync hy
    | own _ hy => exact hx.own hok hy
    | caller _ hsame =>
      rw [hsame]
      exact hx

theorem step_body {s : Object C (HttpServer C (ServerV1 C))} {a : ServerAction C}
    {e : Option StartEvent} (h : own kind s.base s.ext.body a = some (x, e)) :
    (ServerV1.body kind).derived.system.step s (.own (.body a)) =
      some ⟨s.base, { s.ext with body := x }.apply e⟩ := by
  simp [Derived.system, Derived.step, HttpBody.derived, ServerV1.body, h]

/-- Where `start()` has returned under a pending `stop()` the worker goes on to destroy the
server under it. -/
theorem server_lost_under_stop {s : Object C (HttpServer C (ServerV1 C))} {c : C} {i : Nat}
    (hhook : s.ext.body.hook = .serverReturned) (hstop : s.ext.body.stop c = .stopServer i) :
    ∃ t, (ServerV1.body kind).derived.system.Reaches Free s t ∧
      t.ext.body.stop c = .stopServer i ∧ t.ext.body.server = none := by
  let x : ServerV1 C := { s.ext.body with hook := .resetServer }
  let y : ServerV1 C := { x with server := none, hook := .runDone (.value true) }
  have hexited : ∃ e, own kind s.base s.ext.body .resolveExited = some (x, some e) :=
    ⟨_, by simp only [ServerV1.own, hhook, if_pos]; rfl⟩
  have hreset : own kind s.base x .resetServer = some (y, none) := rfl
  obtain ⟨e, he⟩ := hexited
  have hfirst : (ServerV1.body kind).derived.system.Reaches Free s _ :=
    .single trivial (step_body (s := s) he)
  exact ⟨_, hfirst.tail trivial (step_body hreset), hstop, rfl⟩

end ServerV1

/-- If `start()` comes back only behind every `stop()`, then no server object is destroyed
while a `stop()` on it is pending or in progress. -/
theorem server_outlives_stop (C : Type) [DecidableEq C] :
    (∀ s, (cHTTPServer C).system.ReachableBy ServerV1.StopsReturnFirst s →
      ∀ c i, s.ext.body.stop c = .stopServer i → s.ext.body.server = some i) ∧
    (∀ s, (cHTTPSServer C).system.ReachableBy ServerV1.StopsReturnFirst s →
      ∀ c i, s.ext.body.stop c = .stopServer i → s.ext.body.server = some i) :=
  ⟨fun _ hr => (ServerV1.guarded_of_reachable hr).live,
    fun _ hr => (ServerV1.guarded_of_reachable hr).live⟩

namespace ServerV1

abbrev StopSchedule := List (ObjectAction Bool (HttpAction Bool (ServerAction Bool)))

/-- Thread `false` starts a server, which gets as far as `server->start`. -/
def servingSchedule : StopSchedule :=
  [.own (.startThread false true), .base (.call false (.startThread false)),
    .base (.joinFinished false), .base (.startSection false true), .own (.startReturned false),
    .base (.preRunBegin 0), .own (.body .readConfiguration), .own (.body (.makeServer none)),
    .own (.body (.addResources none)), .base (.preRunEnd 0 (.value true)),
    .base (.checkStop 0), .base (.setRunning 0), .own (.body .getServer),
    .own (.body (.listening 8080)), .own (.waitUntilListening false)]

def pointerSchedule (c : Bool) : StopSchedule :=
  [.base (.call c .requestStop), .base (.stopSection c), .own (.body (.stopGetServer c))]

def returnedSchedule : StopSchedule :=
  [.own (.body .startReturns), .own (.body .resolveExited), .own (.body .resetServer)]

/-- A stop is pending on a server that is there. -/
theorem server_outlives_stop_serving :
    let S := (cHTTPServer Bool).system
    let T := (cHTTPSServer Bool).system
    let s := S.after StopsReturnFirst S.init (servingSchedule ++ pointerSchedule true)
    let t := T.after StopsReturnFirst T.init (.own (.body (.setCertificateFiles "c" "k")) ::
      (servingSchedule ++ pointerSchedule true))
    s.ext.body.server = some 0 ∧ t.ext.body.server = some 0 := by
  intro S T s t
  exact ⟨(server_outlives_stop Bool).1 s (reaches_after (by decide)) true 0 (by decide),
    (server_outlives_stop Bool).2 t (reaches_after (by decide)) true 0 (by decide)⟩

/-- Two threads stop the server; it returns from `start()` behind the `stop()` of the one, and
the other one is left with a pointer to a destroyed object. -/
theorem server_destroyed_under_stop :
    ¬ ∀ s, (cHTTPServer Bool).system.Reachable s → ∀ c i,
      s.ext.body.stop c = .stopServer i → s.ext.body.server = some i := by
  intro hclaim
  let S := (cHTTPServer Bool).system
  have h := hclaim (S.after Free S.init (servingSchedule ++ pointerSchedule true ++
    pointerSchedule false ++ [.own (.body (.stopServer false))] ++ returnedSchedule))
    (reaches_after (by decide)) true 0 (by decide)
  revert h
  decide

end ServerV1

end ThreadComponent
