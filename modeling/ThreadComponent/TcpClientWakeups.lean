import ThreadComponent.TcpDestructors

/-!
# The writer of TCPClient_V2 does not sleep through a stop

The stop flag is set and the condition variable is notified without `m_outboundMutex`, but the
stop hook clears the queue under it in between. A writer that has tested its condition before
the flag was set is therefore asleep when the notification comes.
-/

set_option autoImplicit false
set_option linter.unusedSectionVars false

namespace ThreadComponent

open Transitions System

def ClientStop.clearing : ClientStop → Bool
  | .exchange | .close | .clearQueue => true
  | _ => false

def ClientStop.notifying : ClientStop → Bool
  | .exchange | .close | .clearQueue | .notify => true
  | _ => false

namespace TcpClient
variable {C : Type} [DecidableEq C] {s t : BaseWorker (ClientCaller C)} {o o' : TcpClient C}

/-- Where the stop flag is set, a writer on its way to sleep holds up a stop hook, and one
that is asleep has a notification to come. -/
structure Awaited (s : BaseWorker (ClientCaller C)) (o : TcpClient C) : Prop where
  sleep : s.stopRequested = true → o.writer = .sleep → ∃ c, (o.stop c).clearing = true
  asleep : s.stopRequested = true → o.writer = .asleep → ∃ c, (o.stop c).notifying = true

theorem notifying_of_clearing {p : ClientStop} (h : p.clearing = true) : p.notifying = true := by
  cases p <;> first | rfl | cases h

/-- The writer does not go to sleep, and no stop hook comes behind its notification. -/
theorem Awaited.of_same (hx : Awaited s o)
    (hflag : t.stopRequested = true → s.stopRequested = true)
    (hwriter : o'.writer = o.writer ∨ (o'.writer ≠ .sleep ∧ o'.writer ≠ .asleep))
    (hstop : ∀ c, (o.stop c).notifying = true → o'.stop c = o.stop c) : Awaited t o' := by
  constructor
  · intro hf hw
    have hold : o.writer = .sleep := by
      rcases hwriter with hsame | ⟨hne, -⟩
      · exact hsame ▸ hw
      · exact absurd hw hne
    obtain ⟨c, hc⟩ := hx.sleep (hflag hf) hold
    exact ⟨c, by rw [hstop c (notifying_of_clearing hc)]; exact hc⟩
  · intro hf hw
    have hold : o.writer = .asleep := by
      rcases hwriter with hsame | ⟨-, hne⟩
      · exact hsame ▸ hw
      · exact absurd hw hne
    obtain ⟨c, hc⟩ := hx.asleep (hflag hf) hold
    exact ⟨c, by rw [hstop c hc]; exact hc⟩

/-! ## Steps of the class -/

theorem notify_writer (o : TcpClient C) : o.notify.writer ≠ .asleep ∧
    (o.notify.writer = o.writer ∨ (o.notify.writer ≠ .sleep ∧ o.notify.writer ≠ .asleep)) := by
  unfold notify
  split
  · exact ⟨by simp, .inr (by simp)⟩
  · exact ⟨by assumption, .inl rfl⟩

theorem Awaited.writeLoop {a : ClientAction C} (hx : Awaited s o)
    (h : writeLoop s o a = some o') : Awaited s o' := by
  have hstop := (writeLoop_same h).2.2.1
  cases a with
  | writerEvaluate =>
    simp only [TcpClient.writeLoop, Option.ite_none_right_eq_some, Option.some.injEq] at h
    obtain ⟨-, rfl⟩ := h
    -- the writer goes to sleep only where it has found the flag clear
    constructor
    · intro hflag hw
      simp [hflag] at hw
    · intro hflag hw
      simp [hflag] at hw
  | writerSleep =>
    simp only [TcpClient.writeLoop, Option.ite_none_right_eq_some, Option.some.injEq] at h
    obtain ⟨hfrom, rfl⟩ := h
    refine ⟨fun _ hw => (by cases hw), fun hflag _ => ?_⟩
    obtain ⟨c, hc⟩ := hx.sleep hflag hfrom
    exact ⟨c, notifying_of_clearing hc⟩
  | _ =>
    refine hx.of_same id (.inr ?_) (fun c _ => by rw [hstop])
    simp only [TcpClient.writeLoop, writerLoad, writerSend] at h
    grind -linarith

theorem Awaited.stopTriggered {a : ClientAction C} (hx : Awaited s o)
    (h : o.stopTriggered a = some o') : Awaited s o' := by
  -- the stop hook of `c` goes on to `p`
  have hnext : ∀ (c : ClientCaller C) (p : ClientStop), o'.writer = o.writer →
      o'.stop = Function.update o.stop c p →
      (o.writer = .sleep → (o.stop c).clearing = true → p.clearing = true) →
      p.notifying = true → Awaited s o' := by
    intro c p hwriter hstop hclearing hnotifying
    constructor
    · intro hflag hw
      rw [hwriter] at hw
      obtain ⟨d, hd⟩ := hx.sleep hflag hw
      refine ⟨d, ?_⟩
      rw [hstop]
      by_cases hdc : d = c
      · subst hdc
        rw [Function.update_self]
        exact hclearing hw hd
      · rwa [Function.update_of_ne hdc]
    · intro _ _
      exact ⟨c, by rw [hstop, Function.update_self]; exact hnotifying⟩
  cases a with
  | stopExchange c =>
    simp only [TcpClient.stopTriggered, Option.ite_none_right_eq_some, Option.some.injEq] at h
    obtain ⟨-, rfl⟩ := h
    exact hnext c .close rfl rfl (fun _ _ => rfl) rfl
  | stopClose c =>
    simp only [TcpClient.stopTriggered, Option.ite_none_right_eq_some, Option.some.injEq] at h
    obtain ⟨-, rfl⟩ := h
    exact hnext c .clearQueue rfl rfl (fun _ _ => rfl) rfl
  | stopClear c =>
    simp only [TcpClient.stopTriggered, clearOutboundQueue, Option.ite_none_right_eq_some] at h
    obtain ⟨-, h⟩ := h
    split at h
    · cases h
    · rename_i hfree
      obtain rfl := Option.some.inj h
      -- the mutex is free, so the writer is not on its way to sleep
      exact hnext c .notify rfl rfl (fun hw => by rw [hw] at hfree; exact absurd rfl hfree) rfl
  | stopNotify c =>
    simp only [TcpClient.stopTriggered, Option.ite_none_right_eq_some, Option.some.injEq] at h
    obtain ⟨hfrom, rfl⟩ := h
    have hstop := (notify_same o).2.2.1
    obtain ⟨hawake, hwriter⟩ := notify_writer o
    refine ⟨fun hflag hw => ?_, fun _ hw => absurd hw hawake⟩
    have hold : o.writer = .sleep := by
      rcases hwriter with hsame | ⟨hne, -⟩
      · exact hsame ▸ hw
      · exact absurd hw hne
    obtain ⟨d, hd⟩ := hx.sleep hflag hold
    refine ⟨d, ?_⟩
    have hdc : d ≠ c := by
      rintro rfl
      rw [hfrom] at hd
      cases hd
    simpa [setStop, hdc, hstop] using hd
  | _ => cases h

theorem Awaited.own {a : ClientAction C} (hx : Awaited s o) (h : own s o a = some o') :
    Awaited s o' := by
  obtain ⟨-, h | h | h | h | h | h⟩ := own_cases h
  · have hframe : o'.writer = o.writer ∨ (o'.writer ≠ .sleep ∧ o'.writer ≠ .asleep) := by
      rcases worker_writer h with hsame | ⟨-, hnew⟩ | ⟨-, hnew⟩
      · exact .inl hsame
      · exact .inr ⟨by simp [hnew], by simp [hnew]⟩
      · exact .inr ⟨by simp [hnew], by simp [hnew]⟩
    exact hx.of_same id hframe (fun c _ => by rw [(worker_same h).1])
  · have hframe : o'.writer = o.writer := by
      cases a <;> simp only [readLoop] at h <;> grind -linarith
    exact hx.of_same id (.inl hframe) (fun c _ => by rw [(readLoop_same h).2.2.1])
  · exact hx.writeLoop h
  · exact hx.stopTriggered h
  · have hframe : o'.writer = o.writer ∨ (o'.writer ≠ .sleep ∧ o'.writer ≠ .asleep) := by
      cases a <;> simp only [send, notify] at h <;> grind -linarith [setSender]
    exact hx.of_same id hframe (fun c _ => by rw [(send_same h).2.2.1])
  · have hframe : o'.writer = o.writer ∧ o'.stop = o.stop := by
      cases a <;> simp only [destroy, clearOutboundQueue] at h <;> grind -linarith
    exact hx.of_same id (.inl hframe.1) (fun c _ => by rw [hframe.2])

/-! ## Steps of the worker -/

theorem shouldTriggerStop_of_working (hx : Attended o) (hat : HookAt s.current o.hook)
    (hi : BaseWorker.SingleBody s) (hk : s.mState ≠ .unknown) (hw : o.writer.working = true) :
    s.mState.shouldTriggerStop = true := by
  refine BaseWorker.shouldTriggerStop_of_live hi hk ?_
  have hwriting := hx.2 hw
  have hhome : o.hook.home = some .run := by
    revert hwriting
    cases o.hook <;> simp [ClientHook.writing, ClientHook.home]
  rw [hat.of_run hhome]
  decide

theorem Awaited.stopSection {c : ClientCaller C} (hattended : Attended o)
    (hat : HookAt s.current o.hook) (hi : BaseWorker.SingleBody s) (hk : s.mState ≠ .unknown)
    (hmembers : o.destructor ≠ .inBase) (h : syncHooks s (.stopSection c) o = some o') :
    Awaited t o' := by
  obtain rfl := Option.some.inj h
  cases htrigger : s.mState.shouldTriggerStop with
  | true =>
    rw [if_pos rfl, if_neg (fun hbase => hmembers hbase.2)]
    have hc : (o.setStop c .exchange).stop c = .exchange := by simp [setStop]
    exact ⟨fun _ _ => ⟨c, by rw [hc]; rfl⟩, fun _ _ => ⟨c, by rw [hc]; rfl⟩⟩
  | false =>
    -- the worker is Stopped, and there is no writer
    have hidle : o.writer.working = false := by
      by_contra hne
      have hlive := shouldTriggerStop_of_working hattended hat hi hk (by simpa using hne)
      rw [htrigger] at hlive
      cases hlive
    constructor
    · intro _ hw
      rw [show o.writer = .sleep from hw] at hidle
      cases hidle
    · intro _ hw
      rw [show o.writer = .asleep from hw] at hidle
      cases hidle

theorem Awaited.sync {a : BaseAction (ClientCaller C)} (hx : Awaited s o)
    (hattended : Attended o) (hat : HookAt s.current o.hook) (hi : BaseWorker.SingleBody s)
    (hk : s.mState ≠ .unknown) (hmembers : o.destructor ≠ .inBase) (hs : s.step a = some t)
    (h : sync s a o = some o') : Awaited t o' := by
  have h := syncHooks_of_sync h
  by_cases hstop : ∃ c, a = .stopSection c
  · obtain ⟨c, rfl⟩ := hstop
    exact Awaited.stopSection hattended hat hi hk hmembers h
  · have hflag : t.stopRequested = true → s.stopRequested = true := fun hf =>
      (BaseWorker.stopSection_of_flag hs hf).resolve_right hstop
    cases a with
    | call c k =>
      have hframe : (o'.writer = o.writer ∨ (o'.writer ≠ .sleep ∧ o'.writer ≠ .asleep)) ∧
          o'.stop = o.stop := by
        simp only [syncHooks] at h
        cases c <;> simp only [calls] at h <;> grind -linarith [setHook]
      exact hx.of_same hflag hframe.1 (fun c _ => by rw [hframe.2])
    | stopSection c => exact absurd ⟨c, rfl⟩ hstop
    | stopTriggeredEnd c =>
      simp only [syncHooks, Option.ite_none_right_eq_some, Option.some.injEq] at h
      obtain ⟨hdone, rfl⟩ := h
      refine hx.of_same hflag (.inl rfl) fun d hd => ?_
      have hdc : d ≠ c := by
        rintro rfl
        rw [hdone] at hd
        cases hd
      simp [setStop, hdc]
    | _ =>
      have hframe : o'.writer = o.writer ∧ o'.stop = o.stop := by
        simp only [syncHooks] at h
        grind -linarith [setHook, launch]
      exact hx.of_same hflag (.inl hframe.1) (fun c _ => by rw [hframe.2])

/-! ## Runs -/

/-- The members outlive every step but the call of the base class's destructor. -/
theorem members_of_step {s t : Object (ClientCaller C) (TcpClient C)}
    {a : ObjectAction (ClientCaller C) (ClientAction C)}
    (hs : (TCPClient_V2 C).system.step s a = some t) (hmembers : t.ext.destructor ≠ .inBase) :
    s.ext.destructor ≠ .inBase := by
  intro hbase
  refine hmembers ?_
  cases a with
  | base a =>
    have h := syncHooks_of_sync (Derived.step_base.mp hs).2
    cases a with
    | call c k =>
      simp only [syncHooks] at h
      cases c <;> simp only [calls] at h <;> grind -linarith [setHook]
    | _ =>
      simp only [syncHooks] at h
      grind -linarith [setHook, setStop, launch]
  | own a =>
    obtain ⟨-, h | h | h | h | h | h⟩ := own_cases (Derived.step_own.mp hs).2
    · rw [(worker_same h).2.1, hbase]
    · rw [(readLoop_same h).2.2.2, hbase]
    · rw [(writeLoop_same h).2.2.2, hbase]
    · rw [(stopTriggered_sameThreads h).2, hbase]
    · rw [(send_same h).2.2.2, hbase]
    · cases a <;> simp only [destroy, clearOutboundQueue] at h <;> grind -linarith

theorem awaited_of_reachable {s : Object (ClientCaller C) (TcpClient C)}
    (hr : (TCPClient_V2 C).system.Reachable s) (hmembers : s.ext.destructor ≠ .inBase) :
    Awaited s.base s.ext := by
  revert hmembers
  refine ReachableBy.invariant
    (P := fun s => s.ext.destructor ≠ .inBase → Awaited s.base s.ext) ?_ ?_ hr
  · exact fun _ => ⟨fun h => (by cases h), fun h => (by cases h)⟩
  · intro s a t hr hx _ hs hmembers
    have hmembers := members_of_step hs hmembers
    have hx := hx hmembers
    cases a with
    | base a =>
      obtain ⟨hb, hy⟩ := Derived.step_base.mp hs
      have hbase := Derived.base_reachable hr
      exact hx.sync (attended_of_reachable hr) (hookAt_of_reachable hr) (Derived.inherits hr).1
        (BaseWorker.known_of_reachable hbase) hmembers hb hy
    | own a =>
      obtain ⟨hb, hy⟩ := Derived.step_own.mp hs
      rw [hb]
      exact hx.own hy

/-- Where the stop flag is set and no thread is between setting it and the end of its stop hook,
the writer is not asleep: whoever has set the flag has woken it, and it does not go to sleep
again. Behind the destructor body the condition variable is no more. -/
theorem writer_awake_behind_stop {s : Object (ClientCaller C) (TcpClient C)}
    (hr : (TCPClient_V2 C).system.Reachable s) (hmembers : s.ext.destructor ≠ .inBase)
    (hflag : s.base.stopRequested = true)
    (hstopped : ∀ c k, s.base.caller c ≠ .stopTriggered k) : s.ext.writer ≠ .asleep := by
  intro hasleep
  obtain ⟨c, hc⟩ := (awaited_of_reachable hr hmembers).asleep hflag hasleep
  -- a thread with a place in the stop hook is inside it
  have hentered := SocketWorker.entered_of_reachable (W := socketWorker C) hr c
  have hplace : (s.ext.socketView.stop c) ≠ .idle := by
    revert hc
    cases hstop : s.ext.stop c <;>
      simp [socketView, hstop, ClientStop.notifying, ClientStop.socketStop]
  obtain ⟨k, hk⟩ := hentered hplace
  exact hstopped c k hk

def asleepSchedule : List (ObjectAction (ClientCaller Bool) (ClientAction Bool)) :=
  [.own .writerContinueRunning, .own .writerLock, .own .writerEvaluate, .own .writerSleep]

/-- The stop hook finds the writer asleep and wakes it. -/
theorem writer_awake_behind_stop_asleep :
    let S := (TCPClient_V2 Bool).system
    let s := S.after Free S.init (openedSchedule ++ connectedSchedule ++ threadsSchedule ++
      asleepSchedule ++ stopSchedule (.user true))
    s.ext.writer ≠ .asleep := by
  intro S s
  have hfalse : s.base.caller (.user false) = .returned (.startThread true) false := by decide
  have htrue : s.base.caller (.user true) = .returned .requestStop true := by decide
  have hother : ∀ c, (∀ b, c ≠ .user b) → s.base.caller c = .idle := by
    intro c hc
    cases c with
    | user b => exact absurd rfl (hc b)
    | _ => decide
  refine writer_awake_behind_stop (s := s) (reaches_after (by decide)) (by decide) (by decide) ?_
  intro c k
  match c with
  | .user false => simp [hfalse]
  | .user true => simp [htrue]
  | .run | .reader | .writer | .destructor => simp [hother]

end TcpClient

end ThreadComponent
