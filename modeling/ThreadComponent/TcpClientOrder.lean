import ThreadComponent.TcpClientQueue

/-!
# What TCPClient_V2 sends is a prefix of what it has accepted

The invariant `Ordered` of the queue is kept by every step of the client and of its
worker, as long as no call of `clearOutboundQueue` takes an accepted buffer from a run
that is not asked to stop.
-/

set_option autoImplicit false
set_option linter.unusedSectionVars false

namespace ThreadComponent

open Transitions System

namespace TcpClient
variable {C : Type} [DecidableEq C] {s t : BaseWorker (ClientCaller C)} {o o' : TcpClient C}

instance (s : BaseWorker (ClientCaller C)) (o : TcpClient C) : Decidable (Harmless s o) :=
  inferInstanceAs (Decidable (_ ∨ _ ∨ _))

/-- Every call of `clearOutboundQueue`, by `preRun`, by a stop hook or by the destructor,
is harmless. -/
def ClearsHarmlessly (s : Object (ClientCaller C) (TcpClient C)) :
    ObjectAction (ClientCaller C) (ClientAction C) → Prop
  | .own .clearQueue | .own (.stopClear _) | .own .destructorClear => Harmless s.base s.ext
  | _ => True

instance (s : Object (ClientCaller C) (TcpClient C))
    (a : ObjectAction (ClientCaller C) (ClientAction C)) : Decidable (ClearsHarmlessly s a) := by
  induction a using ObjectAction.casesOn with
  | base a => induction a using BaseAction.casesOn <;> (unfold ClearsHarmlessly; infer_instance)
  | own a => induction a using ClientAction.casesOn <;> (unfold ClearsHarmlessly; infer_instance)

theorem Ordered.own {a : ClientAction C} (hx : Ordered s o) (hi : BaseWorker.SingleBody s)
    (hat : HookAt s.current o.hook) (hok : ClearsHarmlessly ⟨s, o⟩ (.own a))
    (h : own s o a = some o') : Ordered s o' := by
  obtain ⟨-, h | h | h | h | h | h⟩ := own_cases h
  · refine hx.worker hi hat ?_ h
    rintro rfl
    exact hok
  · exact hx.readLoop h
  · exact hx.writeLoop h
  · refine hx.stopTriggered hi ?_ h
    rintro c rfl
    exact hok
  · exact hx.send h
  · refine hx.destroy hi ?_ h
    rintro rfl
    exact hok

/-! ## Steps of the worker -/

/-- The worker moves and its thread goes to another hook; the queue stays as it is. -/
theorem Ordered.moveBase (hx : Ordered s o) (hook : ClientHook)
    (hflag : t.stopRequested = false → s.stopRequested = false)
    (hworking : o.writer.working = true → t.current = .run ∧ hook.writing = true)
    (hstoring : hook = .storeSocket → o.hook = .storeSocket)
    (hstored : TcpClient.stored t.current hook = true →
      TcpClient.stored s.current o.hook = true)
    (hearly : TcpClient.early t.current hook = true → TcpClient.early s.current o.hook = true)
    (hcleared : cleared t.current hook = true → cleared s.current o.hook = true) :
    Ordered t { o with hook := hook } :=
  { hx with
    working := hworking
    storing := fun hh => hx.storing (hstoring hh)
    stored := fun hs => hx.stored (hstored hs)
    early := fun he => hx.early (hearly he)
    queue := fun hc hf => hx.queue (hcleared hc) (hflag hf) }

theorem Ordered.rest (hx : Ordered s o) (hcur : t.current = s.current)
    (hflag : t.stopRequested = false → s.stopRequested = false) : Ordered t o :=
  hx.moveBase o.hook hflag (by rw [hcur]; exact hx.working) id
    (by rw [hcur]; exact id) (by rw [hcur]; exact id) (by rw [hcur]; exact id)

theorem Ordered.calls {c : ClientCaller C} {k : Call} (hx : Ordered s o)
    (hat : HookAt s.current o.hook) (h : o.calls c k = some o') : Ordered s o' := by
  cases c with
  | user c =>
    simp only [TcpClient.calls, Option.ite_none_right_eq_some, Option.some.injEq] at h
    obtain ⟨-, rfl⟩ := h
    exact hx
  | run =>
    simp only [TcpClient.calls, Option.ite_none_right_eq_some, Option.some.injEq] at h
    obtain ⟨⟨hhook, -⟩, rfl⟩ := h
    have hp := hat.of_run (by rw [hhook]; rfl)
    refine hx.moveHook ?_ ?_ ?_ ?_ ?_ <;>
      simp [hp, hhook, TcpClient.stored, TcpClient.early, cleared, ClientHook.writing]
  | reader =>
    simp only [TcpClient.calls, Option.ite_none_right_eq_some, Option.some.injEq] at h
    obtain ⟨-, rfl⟩ := h
    exact { hx with }
  | writer =>
    simp only [TcpClient.calls, Option.ite_none_right_eq_some, Option.some.injEq] at h
    obtain ⟨⟨hpc, -⟩, rfl⟩ := h
    exact hx.moveWriter (by rw [hpc]; rfl) (fun hp => by cases hp)
      (by simpa [hpc, Emitted] using hx.emitted)
  | destructor =>
    have hsame : ∃ p, o' = { o with destructor := p } := by
      simp only [TcpClient.calls] at h
      grind -linarith
    obtain ⟨p, rfl⟩ := hsame
    exact { hx with }

/-- Where no run is live there is no writer. -/
theorem Ordered.not_working (hx : Ordered s o) (hp : s.current ≠ .run) :
    o.writer.working = false := by
  cases hw : o.writer.working with
  | false => rfl
  | true => exact absurd (hx.working hw).1 hp

theorem Ordered.launch (hx : Ordered s o) (hfrom : ¬ s.current.live)
    (hidle : o.hook = .idle) {created : Bool}
    (hto : t.current = if created then .entry else .absent) : Ordered t o.launch := by
  have hquiet := hx.not_working (by rintro hp; rw [hp] at hfrom; exact hfrom (by decide))
  exact
    { working := fun hw => by simp [TcpClient.launch, hquiet] at hw
      fresh := hx.fresh
      known := fun fd hfd => by cases hfd
      storing := fun hh => by simp [TcpClient.launch, hidle] at hh
      stored := fun hs => by cases created <;> simp [hto, TcpClient.stored] at hs
      early := fun _ => ⟨rfl, rfl⟩
      count := Nat.le_refl _
      queue := fun hc => by cases created <;> simp [hto, cleared] at hc
      pop := fun hpop => absurd hpop (ne_pop_of_idle hquiet)
      emitted := emitted_of_nil (o := o.launch) hquiet rfl }

theorem Ordered.syncRest {a : BaseAction (ClientCaller C)} (hx : Ordered s o)
    (hat : HookAt s.current o.hook) (hact : BaseWorker.actingRun a = none)
    (hstart : ∀ c created, a = .startSection c created → s.mayStart = false)
    (hy : syncHooks s a o = some o') : Ordered s o' := by
  cases a with
  | call c k => exact hx.calls hat hy
  | startSection c created =>
    obtain rfl := Option.some.inj hy
    rw [hstart c created rfl]
    exact hx
  | stopSection c =>
    obtain rfl := Option.some.inj hy
    split
    · exact hx.setStop
    · exact hx
  | stopTriggeredEnd c =>
    simp only [syncHooks, Option.ite_none_right_eq_some, Option.some.injEq] at hy
    obtain ⟨-, rfl⟩ := hy
    exact hx.setStop
  | preRunBegin r => cases hact
  | preRunEnd r e => cases hact
  | setRunning r => cases hact
  | runEnd r e => cases hact
  | _ =>
    obtain rfl := Option.some.inj hy
    exact hx

theorem Ordered.sync {a : BaseAction (ClientCaller C)} (hx : Ordered s o)
    (hat : HookAt s.current o.hook) (hs : s.step a = some t) (hm : BaseWorker.Moves s a t)
    (hy : sync s a o = some o') : Ordered t o' := by
  have hy := syncHooks_of_sync hy
  cases hm with
  | rest hact hstart hcur =>
    exact (hx.syncRest hat hact hstart hy).rest hcur (BaseWorker.flag_of_step hs hstart)
  | launch c created hstart hfrom hflag hto =>
    obtain rfl := Option.some.inj hy
    rw [hstart]
    exact hx.launch hfrom (hat.idle (RunnerPc.hookHome_of_not_live hfrom)) hto
  | preRunBegin r hfrom hto =>
    obtain rfl := Option.some.inj hy
    have hquiet := hx.not_working (by rw [hfrom]; decide)
    refine hx.moveBase _ (BaseWorker.flag_of_step hs (by simp)) ?_ ?_ ?_ ?_ ?_ <;>
      simp [hquiet, hfrom, hto, TcpClient.stored, TcpClient.early, cleared]
  | preRunEnd r e hfrom hto =>
    simp only [syncHooks, Option.ite_none_right_eq_some, Option.some.injEq] at hy
    obtain ⟨hdone, rfl⟩ := hy
    rw [hfrom, hdone] at hat
    obtain ⟨b, rfl⟩ := hat.preRunDone
    have hquiet := hx.not_working (by rw [hfrom]; decide)
    refine hx.moveBase _ (BaseWorker.flag_of_step hs (by simp)) ?_ ?_ ?_ ?_ ?_ <;>
      cases b <;>
      simp [hquiet, hfrom, hto, hdone, BaseWorker.HookEnd.afterPreRun, TcpClient.stored, TcpClient.early,
        cleared]
  | checkStop r hfrom hto =>
    obtain rfl := Option.some.inj hy
    have hquiet := hx.not_working (by rw [hfrom]; decide)
    have hidle := hat.idle (by rw [hfrom]; rfl)
    refine hx.moveBase _ (BaseWorker.flag_of_step hs (by simp)) ?_ ?_ ?_ ?_ ?_ <;>
      split at hto <;>
      simp [hquiet, hfrom, hto, TcpClient.stored, TcpClient.early, cleared]
  | setRunning r hfrom hto =>
    obtain rfl := Option.some.inj hy
    have hquiet := hx.not_working (by rw [hfrom]; decide)
    refine hx.moveBase _ (BaseWorker.flag_of_step hs (by simp)) ?_ ?_ ?_ ?_ ?_ <;>
      simp [hquiet, hfrom, hto, TcpClient.stored, TcpClient.early, cleared]
  | runEnd r e hfrom hto =>
    simp only [syncHooks, Option.ite_none_right_eq_some, Option.some.injEq] at hy
    obtain ⟨hdone, rfl⟩ := hy
    have hquiet : ¬ o.writer.working = true := fun hw => by
      have hwriting := (hx.working hw).2
      rw [hdone] at hwriting
      cases hwriting
    refine hx.moveBase _ (BaseWorker.flag_of_step hs (by simp)) ?_ ?_ ?_ ?_ ?_ <;>
      cases e <;>
      simp [hquiet, hto, BaseWorker.HookEnd.afterRun, TcpClient.stored, TcpClient.early, cleared]
  | catchException r e hfrom hto =>
    obtain rfl := Option.some.inj hy
    have hquiet := hx.not_working (by rw [hfrom]; simp)
    refine hx.moveBase _ (BaseWorker.flag_of_step hs (by simp)) ?_ ?_ ?_ ?_ ?_ <;>
      simp [hquiet, hto, TcpClient.stored, TcpClient.early, cleared]
  | setStopped r hfrom hto =>
    obtain rfl := Option.some.inj hy
    have hquiet := hx.not_working (by rw [hfrom]; decide)
    refine hx.moveBase _ (BaseWorker.flag_of_step hs (by simp)) ?_ ?_ ?_ ?_ ?_ <;>
      simp [hquiet, hto, TcpClient.stored, TcpClient.early, cleared]

theorem ordered_of_reachable {s : Object (ClientCaller C) (TcpClient C)}
    (hr : (TCPClient_V2 C).system.ReachableBy ClearsHarmlessly s) : Ordered s.base s.ext := by
  refine ReachableBy.invariant (P := fun s => Ordered s.base s.ext) ?_
    (fun s a t hr hx hok hs => ?_) hr
  · exact
      { working := fun hw => by cases hw
        fresh := fun _ _ => rfl
        known := fun _ h => by cases h
        storing := fun h => by cases h
        stored := fun h => by cases h
        early := fun h => by cases h
        count := Nat.le_refl _
        queue := fun h => by cases h
        pop := fun h => by cases h
        emitted := List.prefix_refl _ }
  · have hat := hookAt_of_reachable hr
    obtain ⟨hi, hu⟩ := Derived.inherits hr
    cases a with
    | base a =>
      obtain ⟨hb, hy⟩ := Derived.step_base.mp hs
      exact hx.sync hat hb (BaseWorker.moves_of_step hi hu hb) hy
    | own a =>
      obtain ⟨hb, hy⟩ := Derived.step_own.mp hs
      rw [hb]
      exact hx.own hi hat hok hy

/-- What the kernel has been given on the socket of the latest run is a prefix of the
buffers accepted since its launch, in the order in which they were queued. -/
theorem sent_is_prefix_of_accepted {s : Object (ClientCaller C) (TcpClient C)}
    (hr : (TCPClient_V2 C).system.ReachableBy ClearsHarmlessly s) {fd : Nat}
    (hfd : s.ext.runSocket = some fd) : s.ext.sent fd <+: s.ext.accepted.flatten := by
  have h := (ordered_of_reachable hr).emitted.prefix_accepted
  simpa [wire, hfd] using h

/-- Thread 0 starts the client, up to the entry of `threadRunner`. -/
def launchSchedule : List (ObjectAction (ClientCaller Nat) (ClientAction Nat)) :=
  [.base (.call (.user 0) (.startThread true)), .base (.joinFinished (.user 0)),
    .base (.startSection (.user 0) true)]

def sendSchedule (data : Buffer) : List (ObjectAction (ClientCaller Nat) (ClientAction Nat)) :=
  [.own (.send 1 data), .own (.sendPush 1), .own (.sendNotify 1)]

/-- The client connects and its writer is about to wait for a buffer. -/
def connectSchedule : List (ObjectAction (ClientCaller Nat) (ClientAction Nat)) :=
  [.base (.preRunBegin 0), .own .clearQueue, .own (.openSocket true), .own .storeSocket,
    .own (.connect true), .base (.preRunEnd 0 (.value true)), .base (.checkStop 0),
    .base (.setRunning 0), .own (.createReader none), .own (.createWriter none),
    .own .writerContinueRunning]

/-- The writer takes a buffer and gives `n` bytes of it to the kernel. -/
def writeSchedule (n : Nat) : List (ObjectAction (ClientCaller Nat) (ClientAction Nat)) :=
  [.own .writerLock, .own .writerEvaluate, .own .writerTestStop, .own .writerPop,
    .own .writerLoad, .own (.writerSend (.sent n))]

/-- A buffer accepted once the client is connected, and half of it sent. -/
theorem sent_is_prefix_of_accepted_half :
    let S := (TCPClient_V2 Nat).system
    let s := S.after ClearsHarmlessly S.init
      (launchSchedule ++ connectSchedule ++ sendSchedule [65, 66] ++ writeSchedule 1)
    s.ext.sent 0 = [65] ∧ s.ext.sent 0 <+: s.ext.accepted.flatten := by
  intro S s
  exact ⟨by decide, sent_is_prefix_of_accepted (s := s) (reaches_after (by decide)) (by decide)⟩

/-- A buffer that `send` accepts while the client is Starting is cleared away by `preRun`,
and the buffer accepted next is sent without it. -/
theorem buffer_accepted_early_is_dropped :
    ¬ ∀ s : Object (ClientCaller Nat) (TcpClient Nat), (TCPClient_V2 Nat).system.Reachable s →
      ∀ fd, s.ext.runSocket = some fd → s.ext.sent fd <+: s.ext.accepted.flatten := by
  intro hclaim
  let S := (TCPClient_V2 Nat).system
  have h := hclaim (S.after Free S.init (launchSchedule ++ sendSchedule [65] ++
    connectSchedule ++ sendSchedule [66] ++ writeSchedule 1)) (reaches_after (by decide)) 0
    (by decide)
  revert h
  decide

end TcpClient

end ThreadComponent
