import ThreadComponent.TcpClientShutdown

/-!
# Where TCPClient_V2 comes to rest

Behind a stop some thread can always go on, until every call has returned, the run has ended
and the reader and the writer with it. Nobody has to be interrupted or woken by chance for it.
System calls and data callbacks are taken to return by themselves; a callback that calls
`stopThreadAndJoin` on its own client waits for itself, and a `::send` that raises SIGPIPE is
not modelled.
-/

set_option autoImplicit false
set_option linter.unusedSectionVars false

namespace ThreadComponent

open Transitions System

namespace TcpClient
variable {C : Type} [DecidableEq C] {s t : BaseWorker (ClientCaller C)} {o o' : TcpClient C}
  {x : Object (ClientCaller C) (TcpClient C)}

/-- Every call has returned, also those of `send`, no run is live, the reader and the writer
are not running, and a destructor that has begun has come to its end. -/
structure AtRest (x : Object (ClientCaller C) (TcpClient C)) : Prop where
  base : x.base.AtRest
  hook : x.ext.hook = .idle
  stops : ∀ c, x.ext.stop c = .idle
  reader : x.ext.reader.working = false
  writer : x.ext.writer.working = false
  senders : ∀ c, x.ext.sender c = .idle
  destructor : x.ext.destructor = .idle ∨ x.ext.destructor = .inBase

def chance : ObjectAction (ClientCaller C) (ClientAction C) → Bool
  | .own (.writerSend .interrupted) | .own .writerWake => true
  | _ => false

/-- A step inside the object that does not come by chance. -/
def Driven (x : Object (ClientCaller C) (TcpClient C))
    (a : ObjectAction (ClientCaller C) (ClientAction C)) : Prop :=
  Inner x a ∧ chance a = false

theorem chance_of_back {a : ObjectAction (ClientCaller C) (ClientAction C)}
    (h : back a = true) : chance a = true := by
  cases a with
  | base a => cases h
  | own a =>
    cases a with
    | writerSend r =>
      cases r with
      | interrupted => rfl
      | sent n | failed => cases h
    | _ => cases h

abbrev Enabled (x : Object (ClientCaller C) (TcpClient C)) : Prop :=
  (TCPClient_V2 C).system.Enabled Driven x

theorem permits (hterm : x.ext.terminated = false) : (TCPClient_V2 C).Permits Driven x := by
  intro a ha
  refine ⟨⟨ObjectAction.among_of_apart ha, rfl⟩, ?_⟩
  cases a with
  | call | preRunEnd | runEnd | stopTriggeredEnd => cases ha
  | _ => simp [TCPClient_V2, sync, hterm, syncHooks]

theorem Enabled.of_base {a : BaseAction (ClientCaller C)} (hterm : x.ext.terminated = false)
    (hin : Inner x (.base a)) (hb : x.base.step a ≠ none)
    (hy : syncHooks x.base a x.ext ≠ none) : Enabled x :=
  Derived.enabled_of_base ⟨hin, rfl⟩ hb (by simpa [TCPClient_V2, sync, hterm] using hy)

theorem Enabled.of_own (a : ClientAction C) (hterm : x.ext.terminated = false)
    (hin : Driven x (.own a))
    (h : worker x.base x.ext a ≠ none ∨ readLoop x.base x.ext a ≠ none ∨
      writeLoop x.base x.ext a ≠ none ∨ x.ext.stopTriggered a ≠ none ∨
      send x.base x.ext a ≠ none ∨ destroy x.base x.ext a ≠ none) : Enabled x := by
  have hown : own x.base x.ext a ≠ none := by
    simp only [own, hterm, Bool.false_eq_true, if_false, ne_eq, Option.orElse_eq_orElse,
      Option.orElse_eq_or, Option.or_eq_none_iff]
    grind -linarith
  exact Derived.enabled_of_own hin hown

/-! ## Who has the mutex, and who waits for it -/

theorem holder_enabled (hr : (TCPClient_V2 C).system.Reachable x)
    (hterm : x.ext.terminated = false) (hholds : x.ext.writer.holdsMutex = true) :
    Enabled x := by
  cases hat : x.ext.writer with
  | evaluate =>
    exact .of_own .writerEvaluate hterm ⟨rfl, rfl⟩ (by simp [writeLoop, hat])
  | sleep =>
    exact .of_own .writerSleep hterm ⟨rfl, rfl⟩ (by simp [writeLoop, hat])
  | testStop =>
    exact .of_own .writerTestStop hterm ⟨rfl, rfl⟩ (by simp [writeLoop, hat])
  | pop =>
    obtain ⟨payload, queue, hqueue⟩ :=
      List.exists_cons_of_ne_nil ((filled_of_reachable hr).pop hat)
    exact .of_own .writerPop hterm ⟨rfl, rfl⟩
      (by simp [writeLoop, hat, hqueue])
  | _ =>
    rw [hat] at hholds
    cases hholds

theorem stop_enabled {c : ClientCaller C} (hr : (TCPClient_V2 C).system.Reachable x)
    (hterm : x.ext.terminated = false) (hfree : x.ext.writer.holdsMutex = false)
    (hc : x.ext.stop c ≠ .idle) : Enabled x := by
  cases hat : x.ext.stop c with
  | idle => exact absurd hat hc
  | exchange =>
    exact .of_own (.stopExchange c) hterm ⟨rfl, rfl⟩
      (by simp [stopTriggered, hat])
  | close =>
    exact .of_own (.stopClose c) hterm ⟨rfl, rfl⟩ (by simp [stopTriggered, hat])
  | clearQueue =>
    exact .of_own (.stopClear c) hterm ⟨rfl, rfl⟩
      (by simp [stopTriggered, clearOutboundQueue, hat, hfree])
  | notify =>
    exact .of_own (.stopNotify c) hterm ⟨rfl, rfl⟩
      (by simp [stopTriggered, hat])
  | done =>
    obtain ⟨k, hk⟩ := (stop_iff_of_reachable hr c).mp hc
    exact .of_base (a := .stopTriggeredEnd c) hterm rfl (by simp [BaseWorker.step, hk])
      (by simp [syncHooks, hat])

theorem sender_enabled {c : C} (hterm : x.ext.terminated = false)
    (hfree : x.ext.writer.holdsMutex = false) (hc : x.ext.sender c ≠ .idle) : Enabled x := by
  cases hat : x.ext.sender c with
  | idle => exact absurd hat hc
  | push data =>
    exact .of_own (.sendPush c) hterm ⟨rfl, rfl⟩ (by simp [send, hat, hfree])
  | notify =>
    exact .of_own (.sendNotify c) hterm ⟨rfl, rfl⟩ (by simp [send, hat])

/-! ## The threads of the run -/

/-- A call of `requestStop` waits for nobody outside of the stop hook. -/
theorem call_enabled {c : ClientCaller C} (hr : (TCPClient_V2 C).system.Reachable x)
    (hterm : x.ext.terminated = false) (hstops : ∀ c, x.ext.stop c = .idle)
    (hc : c = .run ∨ c = .reader ∨ c = .writer) (hbusy : (x.base.caller c).free = false) :
    Enabled x := by
  refine (permits hterm).enabled_of_stopsItself (stopsItself_of_reachable hc hr) ?_ hbusy
  intro k hk
  exact (stop_iff_of_reachable hr c).mpr ⟨k, hk⟩ (hstops c)

theorem reader_enabled (hr : (TCPClient_V2 C).system.Reachable x)
    (hterm : x.ext.terminated = false) (hstops : ∀ c, x.ext.stop c = .idle)
    (hworking : x.ext.reader.working = true) : Enabled x := by
  have hcall := call_enabled (c := .reader) hr hterm hstops (.inr (.inl rfl))
  cases hat : x.ext.reader with
  | absent | exited =>
    rw [hat] at hworking
    cases hworking
  | entry =>
    exact .of_own (.readerBuffer true) hterm ⟨rfl, rfl⟩ (by simp [readLoop, hat])
  | continueRunning =>
    exact .of_own .readerContinueRunning hterm ⟨rfl, rfl⟩
      (by simp [readLoop, hat])
  | load => exact .of_own .readerLoad hterm ⟨rfl, rfl⟩ (by simp [readLoop, hat])
  | recv fd =>
    exact .of_own (.readerRecv .ended) hterm ⟨rfl, rfl⟩ (by simp [readLoop, hat])
  | callback =>
    exact .of_own (.readerCallback false) hterm ⟨rfl, rfl⟩
      (by simp [readLoop, hat])
  | requestStop =>
    cases hbusy : (x.base.caller .reader).free with
    | false => exact hcall hbusy
    | true =>
      exact .of_base (a := .call .reader .requestStop) hterm rfl
        (by simp [BaseWorker.step, hbusy]) (by simp [syncHooks, calls, hat])
  | stopping =>
    cases hp : x.base.caller .reader with
    | idle => exact absurd hp (called_of_reachable (c := .reader) hr hat)
    | returned k b =>
      exact .of_own .readerStopped hterm ⟨rfl, rfl⟩ (by simp [readLoop, hat, hp])
    | _ => exact hcall (by rw [hp]; rfl)

theorem writer_enabled (hr : (TCPClient_V2 C).system.Reachable x)
    (hterm : x.ext.terminated = false) (hstops : ∀ c, x.ext.stop c = .idle)
    (hawake : x.ext.writer ≠ .asleep) (hworking : x.ext.writer.working = true) : Enabled x := by
  have hcall := call_enabled (c := .writer) hr hterm hstops (.inr (.inr rfl))
  cases hat : x.ext.writer with
  | absent | exited =>
    rw [hat] at hworking
    cases hworking
  | asleep => exact absurd hat hawake
  | evaluate | sleep | testStop | pop => exact holder_enabled hr hterm (by rw [hat]; rfl)
  | continueRunning =>
    exact .of_own .writerContinueRunning hterm ⟨rfl, rfl⟩
      (by simp [writeLoop, hat])
  | lock => exact .of_own .writerLock hterm ⟨rfl, rfl⟩ (by simp [writeLoop, hat])
  | load payload totalSent =>
    exact .of_own .writerLoad hterm ⟨rfl, rfl⟩ (by simp [writeLoop, hat])
  | send payload totalSent fd =>
    exact .of_own (.writerSend .failed) hterm ⟨rfl, rfl⟩
      (by simp [writeLoop, writerSend, hat])
  | requestStop =>
    cases hbusy : (x.base.caller .writer).free with
    | false => exact hcall hbusy
    | true =>
      exact .of_base (a := .call .writer .requestStop) hterm rfl
        (by simp [BaseWorker.step, hbusy]) (by simp [syncHooks, calls, hat])
  | stopping =>
    cases hp : x.base.caller .writer with
    | idle => exact absurd hp (called_of_reachable (c := .writer) hr hat)
    | returned k b =>
      exact .of_own .writerStopped hterm ⟨rfl, rfl⟩
        (by simp [writeLoop, hat, hp])
    | _ => exact hcall (by rw [hp]; rfl)

/-- `run` waits for its own call, for the mutex, for the reader and for the writer. -/
theorem hook_enabled (hr : (TCPClient_V2 C).system.Reachable x)
    (hterm : x.ext.terminated = false) (hfree : x.ext.writer.holdsMutex = false)
    (hstops : ∀ c, x.ext.stop c = .idle) (hreader : x.ext.reader.working = false)
    (hwriter : x.ext.writer.working = false) (hne : x.ext.hook ≠ .idle) : Enabled x := by
  have hcall := call_enabled (c := .run) hr hterm hstops (.inl rfl)
  have hcreated := created_of_reachable hr
  have hat := hookAt_of_reachable hr
  cases hhook : x.ext.hook with
  | idle => exact absurd hhook hne
  | clearQueue =>
    exact .of_own .clearQueue hterm ⟨rfl, rfl⟩
      (by simp [worker, clearOutboundQueue, hhook, hfree])
  | openSocket =>
    exact .of_own (.openSocket true) hterm ⟨rfl, rfl⟩ (by simp [worker, hhook])
  | storeSocket =>
    exact .of_own .storeSocket hterm ⟨rfl, rfl⟩ (by simp [worker, hhook])
  | connect =>
    exact .of_own (.connect true) hterm ⟨rfl, rfl⟩ (by simp [worker, hhook])
  | exchange => exact .of_own .exchange hterm ⟨rfl, rfl⟩ (by simp [worker, hhook])
  | close => exact .of_own .close hterm ⟨rfl, rfl⟩ (by simp [worker, hhook])
  | preRunDone e =>
    have hhome : x.ext.hook.home = x.base.current.hookHome := hat
    rw [hhook] at hhome
    cases e with
    | value b =>
      exact Derived.enabled_of_preRun (b := b) (RunnerPc.of_hookHome hhome.symm) ⟨rfl, rfl⟩
        (by simp [TCPClient_V2, sync, hterm, syncHooks, hhook])
    | threw e => exact absurd hhome.symm (RunnerPc.hookHome_ne_entry _)
  | createReader =>
    exact .of_own (.createReader none) hterm ⟨rfl, rfl⟩ (by simp [worker, hhook])
  | createWriter =>
    exact .of_own (.createWriter none) hterm ⟨rfl, rfl⟩ (by simp [worker, hhook])
  | joinReader =>
    have hexited : x.ext.reader = .exited := by
      have hborn := hcreated.reader (by rw [hhook]; rfl)
      revert hborn hreader
      cases x.ext.reader <;> simp [ReaderPc.working]
    exact .of_own .joinReader hterm ⟨rfl, rfl⟩ (by simp [worker, hhook, hexited])
  | requestStop =>
    cases hbusy : (x.base.caller .run).free with
    | false => exact hcall hbusy
    | true =>
      exact .of_base (a := .call .run .requestStop) hterm rfl
        (by simp [BaseWorker.step, hbusy]) (by simp [syncHooks, calls, hhook])
  | stopping =>
    cases hp : x.base.caller .run with
    | idle => exact absurd hp (called_of_reachable (c := .run) hr hhook)
    | returned k b =>
      exact .of_own .runStopped hterm ⟨rfl, rfl⟩ (by simp [worker, hhook, hp])
    | _ => exact hcall (by rw [hp]; rfl)
  | notify => exact .of_own .runNotify hterm ⟨rfl, rfl⟩ (by simp [worker, hhook])
  | joinWriter =>
    have hexited : x.ext.writer = .exited := by
      have hborn := hcreated.writer (by rw [hhook]; rfl)
      revert hborn hwriter
      cases x.ext.writer <;> simp [WriterPc.working]
    exact .of_own .joinWriter hterm ⟨rfl, rfl⟩ (by simp [worker, hhook, hexited])
  | runDone e =>
    exact Derived.enabled_of_run (e := e) (hat.of_run (by rw [hhook]; rfl)) ⟨rfl, rfl⟩
      (by simp [TCPClient_V2, sync, hterm, syncHooks, hhook])

/-! ## Calling threads and the destructor -/

theorem destructor_enabled (hr : (TCPClient_V2 C).system.Reachable x)
    (hterm : x.ext.terminated = false) (hfree : x.ext.writer.holdsMutex = false)
    (hcallers : ∀ c, (x.base.caller c).free = true)
    (hbegun : x.ext.destructor ≠ .idle) (hended : x.ext.destructor ≠ .inBase) : Enabled x := by
  cases hdtor : x.ext.destructor with
  | idle => exact absurd hdtor hbegun
  | inBase => exact absurd hdtor hended
  | stopThread =>
    have hreturned := hcallers .destructor
    cases hp : x.base.caller .destructor with
    | idle => exact absurd hp (called_of_reachable (c := .destructor) hr hdtor)
    | returned k b =>
      exact .of_own .destructorStopped hterm ⟨rfl, rfl⟩
        (by simp [destroy, hdtor, hp])
    | _ =>
      rw [hp] at hreturned
      cases hreturned
  | exchange =>
    exact .of_own .destructorExchange hterm ⟨rfl, rfl⟩ (by simp [destroy, hdtor])
  | close =>
    exact .of_own .destructorClose hterm ⟨rfl, rfl⟩ (by simp [destroy, hdtor])
  | clearQueue =>
    exact .of_own .destructorClear hterm ⟨rfl, rfl⟩
      (by simp [destroy, clearOutboundQueue, hdtor, hfree])
  | base =>
    exact .of_base (a := .call .destructor .destructor) hterm rfl
      (by simp [BaseWorker.step, hcallers .destructor]) (by simp [syncHooks, calls, hdtor])

theorem atRest_of_still (hr : (TCPClient_V2 C).system.Reachable x)
    (hawaited : Awaited x.base x.ext) (hflag : x.base.stopRequested = true)
    (hterm : x.ext.terminated = false) (hstill : (TCPClient_V2 C).system.Still Driven x) :
    AtRest x := by
  have hnot : ¬ Enabled x := hstill.not_enabled
  have hfree : x.ext.writer.holdsMutex = false := by
    by_contra hholds
    exact hnot (holder_enabled hr hterm (by simpa using hholds))
  have hstops : ∀ c, x.ext.stop c = .idle := by
    intro c
    by_contra hne
    exact hnot (stop_enabled hr hterm hfree hne)
  have hsenders : ∀ c, x.ext.sender c = .idle := by
    intro c
    by_contra hne
    exact hnot (sender_enabled hterm hfree hne)
  have hreader : x.ext.reader.working = false := by
    by_contra hworking
    exact hnot (reader_enabled hr hterm hstops (by simpa using hworking))
  have hawake : x.ext.writer ≠ .asleep := by
    intro hasleep
    -- whoever has set the flag is in its stop hook until it has notified
    obtain ⟨c, hc⟩ := hawaited.asleep hflag hasleep
    rw [hstops c] at hc
    cases hc
  have hwriter : x.ext.writer.working = false := by
    by_contra hworking
    exact hnot (writer_enabled hr hterm hstops hawake (by simpa using hworking))
  have hhook : x.ext.hook = .idle := by
    by_contra hne
    exact hnot (hook_enabled hr hterm hfree hstops hreader hwriter hne)
  have hbase : x.base.AtRest := by
    refine (permits hterm).atRest hr ?_ (fun c k hc => ?_) hnot
    · exact (hookAt_of_reachable hr).symm.trans (by rw [hhook]; rfl)
    · exact (stop_iff_of_reachable hr c).mpr ⟨k, hc⟩ (hstops c)
  refine ⟨hbase, hhook, hstops, hreader, hwriter, hsenders, ?_⟩
  by_contra hunder
  rw [not_or] at hunder
  exact hnot (destructor_enabled hr hterm hfree hbase.callers hunder.1 hunder.2)

/-! ## Runs -/

/-- From every reachable state in which a stop is requested, nobody is about to launch a run and
the members are not yet destroyed, the client comes to its end: the reader, the writer, `run`,
the stop hooks, the calls that are under way and a destructor that has begun take a bounded number
of steps in whatever order, but for two for each `::send` that is interrupted. They stop only at
rest, unless the writer could not be created, and no wakeup by chance is needed for it. -/
theorem client_comes_to_rest (hr : (TCPClient_V2 C).system.Reachable x)
    (hmembers : x.ext.destructor ≠ .inBase) (hstop : x.base.Stopping) :
    (∃ n, ∀ as y, (TCPClient_V2 C).system.replay Inner x as = some y →
      as.length ≤ n + 2 * as.countP back) ∧
      (∀ y, (TCPClient_V2 C).system.Reaches Inner x y →
        (TCPClient_V2 C).system.Still Driven y → y.ext.terminated = true ∨ AtRest y) ∧
      ∃ y, (TCPClient_V2 C).system.Reaches Inner x y ∧
        (y.ext.terminated = true ∨ AtRest y) := by
  obtain ⟨busy, hown, hshutting⟩ :=
    Derived.shuttingDown_of_stopping hr hstop {.run, .reader, .writer, .destructor}
  obtain ⟨senders, hidle⟩ := senders_of_reachable hr
  have hx : Leaving busy senders x := ⟨hshutting, hidle, awaited_of_reachable hr hmembers⟩
  have hranked : RankedBut (TCPClient_V2 C).system Inner back 1 (Leaving busy senders)
      fun x => rank busy senders x.base x.ext := rankedBut hown
  have hrest : ∀ y, Leaving busy senders y → (TCPClient_V2 C).system.Still Driven y →
      y.ext.terminated = true ∨ AtRest y := by
    intro y hy hstill
    cases hterm : y.ext.terminated with
    | true => exact .inl rfl
    | false =>
      exact .inr (atRest_of_still hy.shutting.reachable hy.awaited
        hy.shutting.stopping.requested hterm hstill)
  refine ⟨⟨rank busy senders x.base x.ext, fun as y hrun => ?_⟩, fun y hrun => ?_, ?_⟩
  · have hle := hranked.length_le hx hrun
    omega
  · exact hrest y (hrun.keeps hranked.keeps hx)
  · obtain ⟨y, hrun, hy, hstill⟩ := hranked.ranked.exists_still hx
    refine ⟨y, hrun.mono fun _ _ hin => hin.1, hrest y hy fun a ha => hstill a ⟨ha.1, ?_⟩⟩
    by_contra hback
    have hchance : chance a = false := ha.2
    rw [chance_of_back (by simpa using hback)] at hchance
    cases hchance

/-- The writer is asleep and the reader receives when thread `true` sets the flag. -/
def caughtSchedule : List (ObjectAction (ClientCaller Bool) (ClientAction Bool)) :=
  openedSchedule ++ connectedSchedule ++ threadsSchedule ++ asleepSchedule ++
    [.own (.readerBuffer true), .own .readerContinueRunning, .own .readerLoad,
      .base (.call (.user true) .requestStop), .base (.stopSection (.user true))]

theorem client_comes_to_rest_asleep :
    let S := (TCPClient_V2 Bool).system
    let x := S.after Free S.init caughtSchedule
    x.ext.writer = .asleep ∧ x.ext.reader = .recv 0 ∧ x.ext.stop (.user true) = .exchange ∧
      ∃ y, S.Reaches Inner x y ∧ (y.ext.terminated = true ∨ AtRest y) := by
  intro S x
  have hr : S.Reachable x := reaches_after (by decide)
  have hstop : x.base.Stopping := by
    refine ⟨by decide, fun c => ?_⟩
    cases c with
    | user b => cases b <;> decide
    | run | reader | writer | destructor => decide
  exact ⟨by decide, by decide, by decide, (client_comes_to_rest hr (by decide) hstop).2.2⟩

end TcpClient

end ThreadComponent
