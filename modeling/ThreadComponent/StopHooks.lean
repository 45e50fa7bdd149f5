import ThreadComponent.TcpServerSocket

/-!
# Which run a stop hook reaches

`requestStop` decides under the lock whether the hook is due and calls it behind the lock.
Nothing keeps the run that it was meant for from ending in between, and another thread from
launching the next one.
-/

set_option autoImplicit false
set_option linter.unusedSectionVars false

namespace ThreadComponent

open Transitions System BaseWorker

namespace Derived
variable {C O A : Type} [DecidableEq C] {D : Derived C O A} {s t u v : Object C O} {c : C}

/-- The hook that `c` has to call, or is in, is not over yet. -/
def HookPending (c : C) (_ : Object C O) : ObjectAction C A → Prop
  | .base (.stopTriggeredEnd d) => d ≠ c
  | _ => True

/-- Nor does anybody launch a run meanwhile. -/
def HookSpares (c : C) (s : Object C O) : ObjectAction C A → Prop
  | .base (.stopTriggeredEnd d) => d ≠ c
  | .base (.startSection _ _) => s.base.mayStart = false
  | _ => True

instance (c : C) (s : Object C O) (a : ObjectAction C A) : Decidable (HookPending c s a) := by
  induction a using ObjectAction.casesOn with
  | base a => induction a using BaseAction.casesOn <;> (unfold HookPending; infer_instance)
  | own a => unfold HookPending; infer_instance

instance (c : C) (s : Object C O) (a : ObjectAction C A) : Decidable (HookSpares c s a) := by
  induction a using ObjectAction.casesOn with
  | base a => induction a using BaseAction.casesOn <;> (unfold HookSpares; infer_instance)
  | own a => unfold HookSpares; infer_instance

theorem runs_of_spares {a : ObjectAction C A} (hok : HookSpares c s a)
    (h : D.step s a = some t) : t.base.runs = s.base.runs := by
  cases a with
  | own a => rw [(step_own.mp h).1]
  | base a =>
    cases step_effect (step_base.mp h).1 with
    | launch d created hact _ hstate hthread =>
      subst hact
      simp [HookSpares, mayStart, hstate, hthread] at hok
    | stop _ _ _ _ hruns => exact hruns
    | running _ _ _ _ hruns => exact hruns
    | finish _ _ _ _ _ hruns => exact hruns
    | quiet _ _ hruns => exact hruns

theorem runs_le_of_step {a : ObjectAction C A} (h : D.step s a = some t) :
    s.base.runs ≤ t.base.runs := by
  cases a with
  | own a => exact Nat.le_of_eq (congrArg BaseWorker.runs (step_own.mp h).1.symm)
  | base a => exact runs_le (step_base.mp h).1

theorem caller_of_pending {a : ObjectAction C A} {k : Call} (hok : HookPending c s a)
    (h : D.step s a = some t) (hc : s.base.caller c = .stopTriggered k) :
    t.base.caller c = .stopTriggered k := by
  cases a with
  | own a => rw [(step_own.mp h).1, hc]
  | base a =>
    refine caller_stopTriggered (step_base.mp h).1 hc ?_
    rintro rfl
    exact hok rfl

theorem runLive_of_launch {d : C} {created : Bool} (hmay : s.base.mayStart = true)
    (h : D.step s (.base (.startSection d created)) = some t) : t.base.RunLive s.base.runs := by
  obtain ⟨wait, -, ht⟩ := step_startSection.mp (step_base.mp h).1
  rw [ht]
  have hm : s.base.mState = .stopped ∧ s.base.mThread = none := by simpa [mayStart] using hmay
  cases created with
  | true =>
    rw [startSection_launched hm]
    exact runLive_of_thread (by simp [RunnerPc.live])
  | false =>
    rw [startSection_failed hm]
    exact ⟨.starter d, wait, by simp⟩

/-- The hook of a `requestStop` whose locked section finds run `n` live is over before a later
run is live, if nobody launches a run while it is pending. A launch while it is pending makes
it the hook of a later run. -/
theorem stop_hook_hits_own_run (D : Derived C O A) {s t : Object C O} {c : C} {n : Nat}
    (hs : D.system.Reachable s) (hlive : s.base.RunLive n)
    (hstop : D.step s (.base (.stopSection c)) = some t) :
    (∀ u, D.system.Reaches (HookSpares c) t u → ∀ m, u.base.RunLive m → m ≤ n) ∧
    ∀ u v d created, D.system.Reaches (HookPending c) t u → u.base.mayStart = true →
      D.step u (.base (.startSection d created)) = some v →
      (∃ k, v.base.caller c = .stopTriggered k) ∧ ∃ m, n < m ∧ v.base.RunLive m := by
  have hi := (inherits hs).1
  have hlatest := hi.latest hlive
  have hbase := (step_base.mp hstop).1
  have hstep : D.system.step s (.base (.stopSection c)) = some t := hstop
  have hruns : t.base.runs = s.base.runs :=
    runs_of_spares (c := c) (a := .base (.stopSection c)) trivial hstop
  refine ⟨fun u hu m hm => ?_, fun u v d created hu hmay hlaunch => ⟨?_, ?_⟩⟩
  · have hreach : D.system.Reachable u :=
      (Reaches.tail hs trivial hstep).trans hu.free
    have hsame : u.base.runs = n + 1 := hu.keeps (P := fun u => u.base.runs = n + 1)
      (fun _ _ _ hx hok h => (runs_of_spares hok h).trans hx) (hruns.trans hlatest.symm)
    have := (inherits hreach).1.latest hm
    omega
  · have htrigger : s.base.mState.shouldTriggerStop = true := by
      have hne := hi.live_iff.mp ⟨n, hlive⟩
      have hknown := known_of_reachable (base_reachable hs)
      cases hm : s.base.mState <;> simp_all [EnmState.shouldTriggerStop]
    obtain ⟨k, hk⟩ := caller_of_stopSection hbase htrigger
    have hku : u.base.caller c = .stopTriggered k :=
      hu.keeps (P := fun u => u.base.caller c = .stopTriggered k)
        (fun _ _ _ hx hok h => caller_of_pending hok h hx) hk
    exact ⟨k, caller_of_pending (a := .base (.startSection d created)) trivial hlaunch hku⟩
  · have hle : n + 1 ≤ u.base.runs := hu.keeps (P := fun u => n + 1 ≤ u.base.runs)
      (fun _ _ _ hx _ h => Nat.le_trans hx (runs_le_of_step h)) (by omega)
    exact ⟨u.base.runs, by omega, runLive_of_launch hmay hlaunch⟩

end Derived

namespace TcpServer

/-- Thread `false` starts the server, and thread `true` asks it to stop. -/
def requestedSchedule : List (ObjectAction (TcpServerCaller Bool) (TcpServerAction Bool)) :=
  [.base (.call (.user false) (.startThread false)), .base (.joinFinished (.user false)),
    .base (.startSection (.user false) true), .base (.call (.user true) .requestStop)]

/-- The hook of thread `true`. -/
def hookSchedule : List (ObjectAction (TcpServerCaller Bool) (TcpServerAction Bool)) :=
  [.own (.stopExchange (.user true)), .own (.stopClose (.user true))]

/-- The run fails, and thread `false` starts the next one, which opens its socket. -/
def restartedSchedule : List (ObjectAction (TcpServerCaller Bool) (TcpServerAction Bool)) :=
  [.base (.preRunBegin 0), .own (.openSocket false), .base (.preRunEnd 0 (.value false)),
    .base (.setStopped 0), .base (.call (.user false) (.startThread false)),
    .base (.joinFinished (.user false)), .base (.joined (.user false)),
    .base (.startSection (.user false) true), .base (.preRunBegin 1), .own (.openSocket true),
    .own .storeSocket]

theorem stop_hook_hits_own_run_server :
    let D := TCPServer_V2 Bool
    let s := D.system.after Free D.system.init requestedSchedule
    let t := D.system.after Free s [.base (.stopSection (.user true))]
    let u := D.system.after (Derived.HookSpares (.user true)) t hookSchedule
    (∃ k, u.base.caller (.user true) = .stopTriggered k) ∧ ∀ m, u.base.RunLive m → m ≤ 0 := by
  intro D s t u
  have h := Derived.stop_hook_hits_own_run D (s := s) (t := t) (c := .user true) (n := 0)
    (reaches_after (by decide)) (runLive_of_thread (by decide)) rfl
  exact ⟨⟨.requestStop, by decide⟩, h.1 u (reaches_after (by decide))⟩

/-- The hook of a request that was meant for run 0 closes the socket of run 1. -/
theorem stop_hook_closes_later_socket :
    ¬ ∀ (s t u : Object (TcpServerCaller Bool) (TcpServer Bool)) (n : Nat),
      (TCPServer_V2 Bool).system.Reachable s → s.base.RunLive n →
      (TCPServer_V2 Bool).step s (.base (.stopSection (.user true))) = some t →
      (TCPServer_V2 Bool).system.Reaches (Derived.HookPending (.user true)) t u →
      ∀ m, u.base.RunLive m → m ≤ n := by
  intro hclaim
  let S := (TCPServer_V2 Bool).system
  let s := S.after Free S.init requestedSchedule
  let t := S.after Free s [.base (.stopSection (.user true))]
  have h := hclaim s t (S.after (Derived.HookPending (.user true)) t
    (restartedSchedule ++ hookSchedule)) 0 (reaches_after (by decide))
    (runLive_of_thread (by decide)) rfl (reaches_after (by decide)) 1
    (runLive_of_thread (by decide))
  exact absurd h (by decide)

end TcpServer

end ThreadComponent
