import ThreadComponent.HttpServerV2

/-!
# The error handler across runs

`preRun` of the V2 servers saves `on_error` and installs a closure that reads the saved
handler through the object; only the normal end of `run` puts it back. A run that ends in
another way leaves the closure in place, and the next `preRun` saves the closure itself.
-/

set_option autoImplicit false
set_option linter.unusedSectionVars false

namespace ThreadComponent

open Transitions System

namespace ServerV2
variable {C H : Type} [DecidableEq C]

/-- The calls of user handlers that a call of `f` makes, with the error's message; `none`
where it has not returned after `fuel` nested calls. -/
def callHandler (x : ServerV2 C H) (message : String) :
    Nat → ErrorHandler H → Option (List (H × String))
  | 0, _ => none
  | _ + 1, .empty => some []
  | _ + 1, .user h => some [(h, message)]
  | fuel + 1, .wrapper => x.callHandler message fuel x.mUserOnError

/-- A call of `on_error` returns and has called `h` once, or nothing if there is no `h`. -/
def CallsOnce (x : ServerV2 C H) (h : Option H) : Prop :=
  ∀ message, ∃ fuel,
    x.callHandler message fuel x.onError = some (h.toList.map fun u => (u, message))

/-- A hook is entered where the worker's thread says so, and has not thrown. -/
def HookAt : RunnerPc → ServerHookV2 → Prop
  | .preRun, hook => hook = .preRun ∨ ∃ b, hook = .preRunDone (.value b)
  | .run, hook => hook ≠ .idle ∧ hook ≠ .preRun ∧ (∀ e, hook ≠ .preRunDone e) ∧
      ∀ e, hook ≠ .runDone (.threw e)
  | _, hook => hook = .idle

def installed : RunnerPc → ServerHookV2 → Bool
  | .preRun, .preRunDone (.value true) => true
  | .checkStop, _ | .setRunning, _ => true
  | .run, .runDone _ => false
  | .run, _ => true
  | _, _ => false

/-- No run leaves `threadRunner` on a stop request once its `preRun` has succeeded, and
none ends with an exception out of `start` or out of the creation of a thread. -/
def EndsNormally {X : Type} (s : Object (HttpCaller C) X) :
    ObjectAction (HttpCaller C) (HttpAction (HttpCaller C) (ServerActionV2 C)) → Prop
  | .base (.checkStop _) => s.base.stopRequested = false
  | .own (.body (.startThrows _)) => False
  | .own (.body (.createThreadsFails _ _)) => False
  | _ => True

structure Restored (h : Option H) (p : RunnerPc) (x : ServerV2 C H) : Prop where
  hookAt : HookAt p x.hook
  inside : installed p x.hook = true → x.onError = .wrapper ∧ x.mUserOnError = .stored h
  outside : installed p x.hook = false → x.onError = .stored h

variable {h : Option H} {p : RunnerPc} {x y : ServerV2 C H}

theorem Restored.carry {q : RunnerPc} (hx : Restored h p x) (hat : HookAt q y.hook)
    (hin : installed q y.hook = installed p x.hook) (hon : y.onError = x.onError)
    (huser : y.mUserOnError = x.mUserOnError) : Restored h q y where
  hookAt := hat
  inside hi := by rw [hon, huser]; exact hx.inside (hin ▸ hi)
  outside ho := by rw [hon]; exact hx.outside (hin ▸ ho)

theorem Restored.of_same (hx : Restored h p x) (hhook : y.hook = x.hook)
    (hon : y.onError = x.onError) (huser : y.mUserOnError = x.mUserOnError) :
    Restored h p y :=
  hx.carry (hhook ▸ hx.hookAt) (by rw [hhook]) hon huser

def Working : ServerHookV2 → Bool
  | .run | .processWork | .createThreads _ | .runIo _ | .joining _ | .resolveExited
  | .cleanUp => true
  | _ => false

theorem HookAt.of_working {hook : ServerHookV2} (hp : HookAt p hook)
    (hw : Working hook = true) : p = .run := by
  cases p <;> cases hook <;> simp_all [HookAt, Working]

theorem hookAt_of_working {hook : ServerHookV2} (hw : Working hook = true) :
    HookAt .run hook ∧ installed .run hook = true := by
  cases hook <;> simp_all [HookAt, Working, installed]

theorem Restored.of_working (hx : Restored h p x) (hold : Working x.hook = true)
    (hnew : Working y.hook = true) (hon : y.onError = x.onError)
    (huser : y.mUserOnError = x.mUserOnError) : Restored h p y := by
  obtain rfl := HookAt.of_working hx.hookAt hold
  obtain ⟨hat, hin⟩ := hookAt_of_working hnew
  exact hx.carry hat (hin.trans (hookAt_of_working hold).2.symm) hon huser

theorem HookAt.eq_preRun (hp : HookAt p .preRun) : p = .preRun := by
  cases p <;> simp_all [HookAt]

def Notable : ServerActionV2 C → Prop
  | .preRun | .preRunFails _ _ | .cleanUp | .startThrows _ | .createThreadsFails _ _ => True
  | _ => False

theorem own_of_not_notable {kind : HttpKind} {s : BaseWorker (HttpCaller C)}
    {a : ServerActionV2 C} {e : Option StartEvent} (ha : ¬ Notable a)
    (hs : ServerV2.own kind s x a = some (y, e)) :
    y.onError = x.onError ∧ y.mUserOnError = x.mUserOnError ∧
      (y.hook = x.hook ∨ (Working x.hook = true ∧ Working y.hook = true)) := by
  cases a <;> simp only [ServerV2.own, Notable, not_true_eq_false] at hs ha <;>
    grind -linarith [Working, setHook, setIo, setStop, spawn, ServerV2.createThreads]

theorem Restored.own {kind : HttpKind} {s : BaseWorker (HttpCaller C)}
    {a : ServerActionV2 C} {e : Option StartEvent} (hx : Restored h p x)
    (hthrow : ∀ f, a ≠ .startThrows f) (hfail : ∀ n f, a ≠ .createThreadsFails n f)
    (hs : ServerV2.own kind s x a = some (y, e)) : Restored h p y := by
  by_cases ha : Notable a
  · cases a with
    | startThrows f => exact absurd rfl (hthrow f)
    | createThreadsFails n f => exact absurd rfl (hfail n f)
    | preRun =>
      simp only [ServerV2.own, Option.ite_none_right_eq_some, Option.some.injEq,
        Prod.mk.injEq] at hs
      obtain ⟨hpre, rfl, -⟩ := hs
      obtain rfl := HookAt.eq_preRun (hpre ▸ hx.hookAt)
      have hout := hx.outside (by rw [hpre]; rfl)
      exact ⟨.inr ⟨true, rfl⟩, fun _ => ⟨rfl, hout⟩,
        fun ho => by simp [install, installed] at ho⟩
    | preRunFails stored f =>
      simp only [ServerV2.own, Option.ite_none_right_eq_some, Option.some.injEq,
        Prod.mk.injEq] at hs
      obtain ⟨hpre, rfl, -⟩ := hs
      obtain rfl := HookAt.eq_preRun (hpre ▸ hx.hookAt)
      have hout := hx.outside (by rw [hpre]; rfl)
      exact ⟨.inr ⟨false, rfl⟩, fun hi => by simp [installed] at hi, fun _ => hout⟩
    | cleanUp =>
      simp only [ServerV2.own, Option.ite_none_right_eq_some, Option.some.injEq,
        Prod.mk.injEq] at hs
      obtain ⟨hclean, rfl, -⟩ := hs
      obtain rfl := HookAt.of_working hx.hookAt (by rw [hclean]; rfl)
      have hin := (hx.inside (by rw [hclean]; rfl)).2
      exact ⟨by simp [HookAt, ServerV2.cleanUp],
        fun hi => by simp [ServerV2.cleanUp, installed] at hi, fun _ => hin⟩
    | _ => exact absurd ha id
  · obtain ⟨hon, huser, hhook | ⟨hold, hnew⟩⟩ := own_of_not_notable ha hs
    · exact hx.of_same hhook hon huser
    · exact hx.of_working hold hnew hon huser

/-- The steps of the worker reach the handlers through the hooks only. -/
theorem sync_handlers {s : BaseWorker (HttpCaller C)} {a : BaseAction (HttpCaller C)}
    (hy : ServerV2.sync s a x = some y) :
    y.onError = x.onError ∧ y.mUserOnError = x.mUserOnError ∧
      (BaseWorker.actingRun a = none → y.hook = x.hook) := by
  cases a <;> simp only [ServerV2.sync, BaseWorker.actingRun] at hy ⊢ <;>
    grind -linarith [setHook, setIo, setStop]

theorem Restored.sync {s t : BaseWorker (HttpCaller C)} {a : BaseAction (HttpCaller C)}
    (hok : ∀ r, a = .checkStop r → s.stopRequested = false) (hs : BaseWorker.Moves s a t)
    (hx : Restored h s.current x) (hy : ServerV2.sync s a x = some y) :
    Restored h t.current y := by
  obtain ⟨hon, huser, hhook⟩ := sync_handlers hy
  have hat := hx.hookAt
  cases hs with
  | rest hact _ hcur =>
    rw [hcur]
    exact hx.of_same (hhook hact) hon huser
  | launch c created _ hfrom _ hto =>
    -- between two runs the hook is idle and nothing is installed
    have hidle : HookAt .entry x.hook ∧ installed s.current x.hook = false := by
      revert hfrom hat
      cases s.current <;> simp [RunnerPc.live, HookAt, installed]
    refine hx.carry ?_ ?_ hon huser
    · rw [hto, hhook rfl]
      cases created <;> exact hidle.1
    · rw [hto, hidle.2]
      cases created <;> rfl
  | preRunBegin r hfrom hto =>
    obtain rfl := Option.some.inj hy
    rw [hfrom] at hx
    rw [hto]
    exact hx.carry (.inl rfl) rfl rfl rfl
  | preRunEnd r e hfrom hto =>
    simp only [ServerV2.sync, Option.ite_none_right_eq_some, Option.some.injEq] at hy
    obtain ⟨hdone, rfl⟩ := hy
    rw [hfrom] at hx
    obtain ⟨b, hb⟩ : ∃ b, x.hook = .preRunDone (.value b) := by
      simpa [hdone, HookAt] using hx.hookAt
    obtain rfl : e = .value b := by simpa [hdone] using hb
    rw [hto]
    refine hx.carry ?_ ?_ rfl rfl
    · cases b <;> rfl
    · rw [hdone]
      cases b <;> rfl
  | checkStop r hfrom hto =>
    obtain rfl := Option.some.inj hy
    rw [hok r rfl] at hto
    rw [hfrom] at hx
    rw [hto]
    exact hx.carry hx.hookAt rfl rfl rfl
  | setRunning r hfrom hto =>
    obtain rfl := Option.some.inj hy
    rw [hfrom] at hx
    rw [hto]
    exact hx.carry (by simp [HookAt, setHook]) rfl rfl rfl
  | runEnd r e hfrom hto =>
    simp only [ServerV2.sync, Option.ite_none_right_eq_some, Option.some.injEq] at hy
    obtain ⟨hdone, rfl⟩ := hy
    rw [hfrom] at hx
    cases e with
    | threw n => exact absurd hdone (hx.hookAt.2.2.2 n)
    | value b =>
      rw [hto]
      exact hx.carry rfl (by rw [hdone]; rfl) rfl rfl
  | catchException r e hfrom hto =>
    obtain rfl := Option.some.inj hy
    rw [hfrom] at hx
    rw [hto]
    exact hx.carry hx.hookAt rfl rfl rfl
  | setStopped r hfrom hto =>
    obtain rfl := Option.some.inj hy
    rw [hfrom] at hx
    rw [hto]
    exact hx.carry hx.hookAt rfl rfl rfl

theorem restored_of_reachable {kind : HttpKind}
    {s : Object (HttpCaller C) (HttpServer (HttpCaller C) (ServerV2 C H))}
    (hr : (body kind h).derived.system.ReachableBy EndsNormally s) :
    Restored h s.base.current s.ext.body := by
  refine ReachableBy.invariant (P := fun s => Restored h s.base.current s.ext.body)
    ?_ (fun s a t hr hx hok hs => ?_) hr
  · exact { hookAt := rfl, inside := fun hi => (by cases hi), outside := fun _ => rfl }
  · obtain ⟨hi, hu⟩ := Derived.inherits hr
    cases HttpBody.bodyStep_of_step hs with
    | base hb hy =>
      exact hx.sync (fun r he => by subst he; exact hok) (BaseWorker.moves_of_step hi hu hb) hy
    | own hb hy =>
      rw [hb]
      refine hx.own (fun f he => ?_) (fun n f he => ?_) hy
      · subst he; exact hok
      · subst he; exact hok
    | caller hb hy =>
      rw [hb, hy]
      exact hx

/-- Where the closure is installed it calls the user's handler and nothing else. -/
theorem callsOnce_of_installed (hon : x.onError = .wrapper) (huser : x.mUserOnError = .stored h) :
    x.CallsOnce h := fun message => by
  refine ⟨2, ?_⟩
  rw [hon]
  cases h <;> simp [callHandler, huser, ErrorHandler.stored]

theorem not_installed_of_stopped {s : BaseWorker (HttpCaller C)}
    (hi : BaseWorker.SingleBody s) (hstate : s.mState = .stopped)
    (hook : ServerHookV2) : installed s.current hook = false := by
  have hlive := BaseWorker.current_not_live hi hstate
  revert hlive
  cases s.current <;> simp [RunnerPc.live, installed]

/-- Where every run ends normally, `on_error` is the user's handler whenever the worker is
stopped, and every call of the closure that a run installs returns and calls that handler
once. -/
theorem user_error_handler_survives {kind : HttpKind}
    {s : Object (HttpCaller C) (HttpServer (HttpCaller C) (ServerV2 C H))}
    (hr : (body kind h).derived.system.ReachableBy EndsNormally s) :
    (s.base.mState = .stopped → s.ext.body.onError = .stored h) ∧
      (s.ext.body.onError = .wrapper → s.ext.body.CallsOnce h) := by
  have hx := restored_of_reachable hr
  refine ⟨fun hstate => ?_, fun hon => ?_⟩
  · exact hx.outside (not_installed_of_stopped (Derived.inherits hr).1 hstate _)
  · cases hin : installed s.base.current s.ext.body.hook with
    | true => exact callsOnce_of_installed hon (hx.inside hin).2
    | false =>
      have hstored := hx.outside hin
      rw [hon] at hstored
      cases h <;> cases hstored

abbrev Schedule :=
  List (ObjectAction (HttpCaller Nat) (HttpAction (HttpCaller Nat) (ServerActionV2 Nat)))

/-- Thread `c` calls `startThread`, and joins the thread of the run before `r` if there
is one. -/
def joinedSchedule (c r : Nat) : Schedule :=
  .own (.startThread (.user c) false) :: .base (.call (.user c) (.startThread false)) ::
    .base (.joinFinished (.user c)) :: if r = 0 then [] else [.base (.joined (.user c))]

def preRunSchedule (c r : Nat) : Schedule :=
  [.base (.startSection (.user c) true), .own (.startReturned (.user c)),
    .base (.preRunBegin r), .own (.body .preRun), .base (.preRunEnd r (.value true))]

def startedSchedule (c r : Nat) : Schedule :=
  joinedSchedule c r ++ preRunSchedule c r

def listeningSchedule (r : Nat) : Schedule :=
  [.base (.checkStop r), .base (.setRunning r), .own (.body (.serverStarts 8080)),
    .own (.body .getIo), .own (.body .createThreads), .own (.body (.listening r))]

def endedSchedule (r : Nat) : Schedule :=
  [.own (.body (.ioReturns r)), .own (.body .swapThreads), .own (.body .joinThread),
    .own (.body .resolveExited), .own (.body .cleanUp), .base (.runEnd r (.value true)),
    .base (.setStopped r)]

/-- Thread 1 stops a run that is about to be published, which ends it. -/
def stoppedSchedule : Schedule :=
  [.base (.call (.user 1) .requestStop), .base (.stopSection (.user 1)),
    .own (.body (.stopGetIo (.user 1))), .own (.body (.stopResolve (.user 1))),
    .base (.stopTriggeredEnd (.user 1)), .base (.checkStop 0), .base (.setStopped 0)]

instance {X : Type} (s : Object (HttpCaller C) X)
    (a : ObjectAction (HttpCaller C) (HttpAction (HttpCaller C) (ServerActionV2 C))) :
    Decidable (EndsNormally s a) := by
  induction a using ObjectAction.casesOn with
  | base a => induction a using BaseAction.casesOn <;> (unfold EndsNormally; infer_instance)
  | own a =>
    induction a using HttpAction.casesOn with
    | body a => induction a using ServerActionV2.casesOn <;> (unfold EndsNormally; infer_instance)
    | _ => unfold EndsNormally; infer_instance

/-- Two runs that serve and end on their own. -/
theorem user_error_handler_survives_run :
    let S := (cHTTPServer_V2 Nat (some 7)).system
    let served := fun c r => startedSchedule c r ++ listeningSchedule r ++ endedSchedule r
    let s := S.after EndsNormally S.init (served 0 0 ++ startedSchedule 2 1 ++ listeningSchedule 1)
    let t := S.after EndsNormally S.init (served 0 0 ++ served 2 1)
    s.ext.body.CallsOnce (some 7) ∧ t.ext.body.onError = .user 7 := by
  intro S served s t
  have hrs : S.ReachableBy EndsNormally s := reaches_after (by decide)
  have hrt : S.ReachableBy EndsNormally t := reaches_after (by decide)
  have hs := user_error_handler_survives hrs
  have ht := user_error_handler_survives hrt
  exact ⟨hs.2 (by decide), ht.1 (by decide)⟩

/-- A closure that has been saved as the user's handler calls itself. -/
theorem saved_wrapper_never_returns (hx : x.mUserOnError = .wrapper) (message : String)
    (fuel : Nat) : x.callHandler message fuel .wrapper = none := by
  induction fuel with
  | zero => rfl
  | succ fuel ih => rw [callHandler, hx, ih]

/-- A stop that arrives during `preRun` leaves the closure installed, and in the next run
a call of `on_error` does not return. -/
theorem early_stop_leaves_wrapper :
    let S := (cHTTPServer_V2 Nat (some 7)).system
    (¬ ∀ s, S.Reachable s → s.base.mState = .stopped → s.ext.body.onError = .user 7) ∧
      ¬ ∀ s, S.Reachable s → s.ext.body.onError = .wrapper → s.ext.body.CallsOnce (some 7) := by
  intro S
  refine ⟨fun hclaim => ?_, fun hclaim => ?_⟩
  · have h := hclaim (S.after Free S.init (startedSchedule 0 0 ++ stoppedSchedule))
      (reaches_after (by decide)) (by decide)
    revert h
    decide
  · let s := S.after Free S.init (startedSchedule 0 0 ++ stoppedSchedule ++ startedSchedule 2 1)
    have hon : s.ext.body.onError = .wrapper := by decide
    obtain ⟨fuel, hret⟩ := hclaim s (reaches_after (by decide)) hon "bad request"
    rw [hon, saved_wrapper_never_returns (by decide)] at hret
    cases hret

end ServerV2

end ThreadComponent
