import ThreadComponent.HttpServerV2

/-!
# What a rejected start does to a running server

`startThread` of the four HTTP servers resets the start state before cBaseWorker_V2 says
whether it starts. A call that is then refused has already wiped what the live run has
reported, unless there was nothing to wipe.
-/

set_option autoImplicit false
set_option linter.unusedSectionVars false

namespace ThreadComponent

open Transitions System

namespace StartState

theorem resetStartState_eq_iff {x : StartState} : x.resetStartState = x ↔ x = {} :=
  eq_comm

/-- A resolved start keeps its port, whatever the hooks and handlers report later. -/
theorem apply_of_resolved {x : StartState} (hx : x.startResolved = true)
    (e : Option StartEvent) :
    (x.apply e).startResolved = true ∧ (x.apply e).listeningPort = x.listeningPort := by
  rcases e with _ | ⟨success, port, errorMessage⟩ | errorMessage
  · exact ⟨hx, rfl⟩
  · simp only [apply, resolveStartIfPending, hx, if_true]
    split <;> simp [hx]
  · exact ⟨hx, rfl⟩

end StartState

namespace HttpBody
variable {C X A : Type} [DecidableEq C] {B : HttpBody C X A}

/-- A `startThread` that begins while a run is live finds nothing to wipe. -/
def QuietStarts (s : Object C (HttpServer C X)) :
    ObjectAction C (HttpAction C A) → Prop
  | .own (.startThread _ _) => s.base.mState ≠ .stopped → s.ext.start = {}
  | _ => True

instance (s : Object C (HttpServer C X)) (a : ObjectAction C (HttpAction C A)) :
    Decidable (QuietStarts s a) := by
  induction a using ObjectAction.casesOn with
  | base a => induction a using BaseAction.casesOn <;> (unfold QuietStarts; infer_instance)
  | own a => induction a using HttpAction.casesOn <;> (unfold QuietStarts; infer_instance)

def Reported (s : Object C (HttpServer C X)) : Prop :=
  s.base.mState ≠ .stopped → ∀ port, s.ext.reported = some port →
    s.ext.start.startResolved = true ∧ s.ext.start.listeningPort = port

theorem live_of_step {s t : BaseWorker C} {a : BaseAction C} (h : s.step a = some t)
    (hi : BaseWorker.SingleBody s) (hlive : t.mState ≠ .stopped) :
    s.mState ≠ .stopped ∨ ∃ c created, a = .startSection c created ∧ s.mayStart = true := by
  cases BaseWorker.step_effect h with
  | launch c created hact _ hstate hthread =>
    exact .inr ⟨c, created, hact, by simp [BaseWorker.mayStart, hstate, hthread]⟩
  | stop _ _ hstate' =>
    refine .inl fun hs => hlive ?_
    rw [hstate', hs]
    rfl
  | running r hpc =>
    exact .inl (hi.live_iff.mp ⟨r, BaseWorker.runLive_of_thread (by rw [hpc]; decide)⟩)
  | finish _ _ _ hstate' => exact absurd hstate' hlive
  | quiet hstate' => exact .inl (hstate' ▸ hlive)

theorem reported_apply {o : HttpServer C X} {e : Option StartEvent} {port : Nat}
    (hold : o.reported = some port →
      o.start.startResolved = true ∧ o.start.listeningPort = port)
    (h : (o.apply e).reported = some port) :
    (o.apply e).start.startResolved = true ∧ (o.apply e).start.listeningPort = port := by
  have hkept : o.reported = some port → (o.apply e).start.startResolved = true ∧
      (o.apply e).start.listeningPort = port := by
    intro hr
    obtain ⟨hres, hport⟩ := hold hr
    have happly := StartState.apply_of_resolved hres e
    exact ⟨happly.1, happly.2.trans hport⟩
  rcases e with _ | ⟨success, port', errorMessage⟩ | errorMessage
  · exact hkept h
  · cases success with
    | false => exact hkept h
    | true =>
      cases hres : o.start.startResolved with
      | true => exact hkept (by simpa [HttpServer.apply, hres] using h)
      | false =>
        obtain rfl : port' = port := by simpa [HttpServer.apply, hres] using h
        simp [HttpServer.apply, StartState.apply, StartState.resolveStartIfPending, hres]
  · exact hkept h

theorem Reported.step {s t : Object C (HttpServer C X)}
    {a : ObjectAction C (HttpAction C A)} (hi : BaseWorker.SingleBody s.base)
    (hx : Reported s) (hok : QuietStarts s a) (hs : B.derived.step s a = some t) :
    Reported t := by
  intro hlive port hport
  cases bodyStep_of_step hs with
  | base hb _ hstart hreported =>
    rw [hstart]
    rcases hreported with ⟨_, _, _, _, hnone⟩ | ⟨hkeep, hsame⟩
    · rw [hnone] at hport
      cases hport
    · rcases live_of_step hb hi hlive with hold | ⟨c, created, rfl, hmay⟩
      · exact hx hold port (hsame ▸ hport)
      · rw [hkeep c created rfl] at hmay
        cases hmay
  | @own a e hb _ hext =>
    rw [hb] at hlive
    rw [hext] at hport ⊢
    exact reported_apply (o := { s.ext with body := t.ext.body }) (hx hlive port) hport
  | caller hb _ _ hreported hstart =>
    rw [hb] at hlive
    rw [hreported] at hport
    have hold := hx hlive port hport
    rcases hstart with ⟨-, hsame⟩ | ⟨c, wait, rfl, -⟩
    · rw [hsame]
      exact hold
    · have hclear := hok hlive
      rw [hclear] at hold
      cases hold.1

theorem reported_of_reachable {s : Object C (HttpServer C X)}
    (hr : B.derived.system.ReachableBy QuietStarts s) : Reported s :=
  ReachableBy.invariant (fun hlive => absurd rfl hlive)
    (fun _ _ _ hr hx hok hs => hx.step (Derived.inherits hr).1 hok hs) hr

end HttpBody

/-- A `startThread` that begins while a run is live leaves the start state as it was if
and only if that was clear. Where every such call finds it clear, no step of any
`startThread` changes the start state of a live run, and the port that the run has
reported is `listeningPort()` until the run ends. -/
def KeepsStartState {C X A : Type} [DecidableEq C]
    (D : Derived C (HttpServer C X) (HttpAction C A)) : Prop :=
  (∀ s t c wait, D.step s (.own (.startThread c wait)) = some t →
    s.base.mState ≠ .stopped → (t.ext.start = s.ext.start ↔ s.ext.start = {})) ∧
  ∀ s, D.system.ReachableBy HttpBody.QuietStarts s → s.base.mState ≠ .stopped →
    (∀ port, s.ext.reported = some port → s.ext.start.listeningPort = port) ∧
    ∀ t a, HttpBody.QuietStarts s a → D.step s a = some t → (∀ b, a ≠ .own (.body b)) →
      t.ext.start = s.ext.start

theorem HttpBody.keepsStartState {C X A : Type} [DecidableEq C] (B : HttpBody C X A) :
    KeepsStartState B.derived := by
  refine ⟨fun s t c wait hs _ => ?_, fun s hr hlive => ⟨fun port hport => ?_, ?_⟩⟩
  · cases bodyStep_of_step hs with
    | caller _ _ _ _ hstart =>
      rcases hstart with ⟨hne, -⟩ | ⟨_, _, _, hreset⟩
      · exact absurd rfl (hne c wait)
      · rw [hreset]
        exact StartState.resetStartState_eq_iff
  · exact (reported_of_reachable hr hlive port hport).2
  · intro t a hok hs hbody
    cases bodyStep_of_step hs with
    | base _ _ hstart => exact hstart
    | @own b => exact absurd rfl (hbody b)
    | caller _ _ _ _ hstart =>
      rcases hstart with ⟨-, hsame⟩ | ⟨c, wait, rfl, hreset⟩
      · exact hsame
      · rw [hreset]
        exact StartState.resetStartState_eq_iff.mpr (hok hlive)

theorem rejected_start_is_harmless (C H : Type) [DecidableEq C] :
    KeepsStartState (cHTTPServer C) ∧ KeepsStartState (cHTTPSServer C) ∧
      ∀ h : Option H, KeepsStartState (cHTTPServer_V2 C h) ∧
        KeepsStartState (cHTTPSServer_V2 C h) :=
  ⟨HttpBody.keepsStartState _, HttpBody.keepsStartState _,
    fun _ => ⟨HttpBody.keepsStartState _, HttpBody.keepsStartState _⟩⟩

namespace HttpServer

abbrev Schedule := List (ObjectAction Nat (HttpAction Nat (ServerAction Nat)))

/-- Thread 0 starts a server, which gets as far as `server->start`. -/
def startedSchedule : Schedule :=
  [.own (.startThread 0 true), .base (.call 0 (.startThread false)), .base (.joinFinished 0),
    .base (.startSection 0 true), .own (.startReturned 0), .base (.preRunBegin 0),
    .own (.body .readConfiguration), .own (.body (.makeServer none)),
    .own (.body (.addResources none)), .base (.preRunEnd 0 (.value true)),
    .base (.checkStop 0), .base (.setRunning 0), .own (.body .getServer)]

/-- Thread 1 calls `startThread` and is told that the worker is running. -/
def rejectedSchedule : Schedule :=
  [.own (.startThread 1 true), .base (.call 1 (.startThread false)), .base (.joinFinished 1),
    .base (.startSection 1 true), .own (.startReturned 1)]

def listeningSchedule : Schedule := [.own (.body (.listening 8080))]

/-- Thread 1 comes before the server has its port. -/
theorem rejected_start_is_harmless_early :
    let S := (cHTTPServer Nat).system
    let s := S.after HttpBody.QuietStarts S.init
      (startedSchedule ++ rejectedSchedule ++ listeningSchedule)
    s.ext.starter 1 = .returned false ∧ s.ext.start.listeningPort = 8080 := by
  intro S s
  have h := (rejected_start_is_harmless Nat Nat).1.2 s (reaches_after (by decide)) (by decide)
  exact ⟨by decide, h.1 8080 (by decide)⟩

/-- Thread 1 comes later: the server is up on port 8080 and `listeningPort()` is 0. -/
theorem rejected_start_forgets_port :
    ¬ ∀ s port, (cHTTPServer Nat).system.Reachable s → s.base.mState ≠ .stopped →
      s.ext.reported = some port → s.ext.start.listeningPort = port := by
  intro hclaim
  have h := hclaim ((cHTTPServer Nat).system.after Free (cHTTPServer Nat).system.init
    (startedSchedule ++ listeningSchedule ++ rejectedSchedule)) 8080
    (reaches_after (by decide)) (by decide) (by decide)
  revert h
  decide

end HttpServer

end ThreadComponent
