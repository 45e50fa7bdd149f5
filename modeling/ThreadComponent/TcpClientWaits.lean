import ThreadComponent.DerivedShutdown
import ThreadComponent.TcpClientWakeups

/-!
# What the threads of TCPClient_V2 wait for

A thread is in the stop hook of the client where the worker has it there, a thread that `run`
joins has been created, and a writer that is about to take a buffer finds one.
-/

set_option autoImplicit false
set_option linter.unusedSectionVars false

namespace ThreadComponent

open Transitions System

namespace TcpClient
variable {C : Type} [DecidableEq C] {s t : BaseWorker (ClientCaller C)} {o o' : TcpClient C}
  {x : Object (ClientCaller C) (TcpClient C)}
  {ok : Object (ClientCaller C) (TcpClient C) →
    ObjectAction (ClientCaller C) (ClientAction C) → Prop}

/-! ## The stop hook -/

theorem setStop_stop_ne {c d : ClientCaller C} {p : ClientStop} (h : c ≠ d) :
    (o.setStop d p).stop c = o.stop c := Function.update_of_ne h _ _

/-- A step of the worker that does not lead a thread into the stop hook or out of it. -/
theorem sync_stop_same {a : BaseAction (ClientCaller C)} {c : ClientCaller C}
    (h : sync s a o = some o') (hsection : a ≠ .stopSection c)
    (hend : a ≠ .stopTriggeredEnd c) : o'.stop c = o.stop c := by
  have h := syncHooks_of_sync h
  cases a with
  | stopSection d =>
    have hd : c ≠ d := fun he => hsection (he ▸ rfl)
    obtain rfl := Option.some.inj h
    split
    · exact setStop_stop_ne hd
    · rfl
  | stopTriggeredEnd d =>
    have hd : c ≠ d := fun he => hend (he ▸ rfl)
    simp only [syncHooks, Option.ite_none_right_eq_some, Option.some.injEq] at h
    obtain ⟨-, rfl⟩ := h
    exact setStop_stop_ne hd
  | call d k =>
    simp only [syncHooks] at h
    cases d <;> simp only [calls] at h <;> grind -linarith [setHook]
  | _ =>
    simp only [syncHooks] at h
    grind -linarith [setHook, launch]

/-- A step of a stop hook, with the places that it leads from and to. -/
inductive StopMove : ClientAction C → ClientCaller C → ClientStop → ClientStop → Prop where
  | exchange {c : ClientCaller C} : StopMove (.stopExchange c) c .exchange .close
  | close {c : ClientCaller C} : StopMove (.stopClose c) c .close .clearQueue
  | clearQueue {c : ClientCaller C} : StopMove (.stopClear c) c .clearQueue .notify
  | notify {c : ClientCaller C} : StopMove (.stopNotify c) c .notify .done

/-- The other threads are where they were, but for a writer that is woken. -/
theorem stopMove_of_stopTriggered {a : ClientAction C} (h : o.stopTriggered a = some o') :
    ∃ c p, StopMove a c (o.stop c) p ∧ o'.stop = Function.update o.stop c p ∧
      o'.hook = o.hook ∧ o'.reader = o.reader ∧ o'.sender = o.sender ∧
      o'.destructor = o.destructor ∧ o'.terminated = o.terminated ∧
      ((o'.writer = o.writer ∧ o'.mOutboundQueue = o.mOutboundQueue) ∨
        (o'.writer = o.writer ∧ o.writer.holdsMutex = false) ∨
        (o.writer = .asleep ∧ o'.writer = .lock)) := by
  cases a with
  | stopExchange c | stopClose c =>
    simp only [TcpClient.stopTriggered, Option.ite_none_right_eq_some, Option.some.injEq] at h
    obtain ⟨hat, rfl⟩ := h
    refine ⟨c, _, ?_, rfl, rfl, rfl, rfl, rfl, rfl, .inl ⟨rfl, rfl⟩⟩
    rw [hat]
    constructor
  | stopClear c =>
    simp only [TcpClient.stopTriggered, clearOutboundQueue, Option.ite_none_right_eq_some,
      Option.ite_none_left_eq_some, Option.some.injEq] at h
    obtain ⟨hat, hfree, rfl⟩ := h
    refine ⟨c, _, ?_, rfl, rfl, rfl, rfl, rfl, rfl, .inr (.inl ⟨rfl, by simpa using hfree⟩)⟩
    rw [hat]
    constructor
  | stopNotify c =>
    simp only [TcpClient.stopTriggered, Option.ite_none_right_eq_some, Option.some.injEq] at h
    obtain ⟨hat, rfl⟩ := h
    rcases notify_cases o with hsame | ⟨hasleep, hsame⟩
    · rw [hsame]
      refine ⟨c, _, ?_, rfl, rfl, rfl, rfl, rfl, rfl, .inl ⟨rfl, rfl⟩⟩
      rw [hat]
      constructor
    · rw [hsame]
      refine ⟨c, _, ?_, rfl, rfl, rfl, rfl, rfl, rfl, .inr (.inr ⟨hasleep, rfl⟩)⟩
      rw [hat]
      constructor
  | _ => cases h

theorem destroy_stop {a : ClientAction C} (h : destroy s o a = some o') :
    o'.stop = o.stop := by
  cases a <;> simp only [destroy, clearOutboundQueue] at h <;> grind -linarith

theorem own_stop {a : ClientAction C} {c : ClientCaller C} (h : own s o a = some o') :
    o'.stop c = .idle ↔ o.stop c = .idle := by
  obtain ⟨-, h | h | h | h | h | h⟩ := own_cases h
  · rw [(worker_same h).1]
  · rw [(readLoop_same h).2.2.1]
  · rw [(writeLoop_same h).2.2.1]
  · obtain ⟨d, p, hmove, hstop, -⟩ := stopMove_of_stopTriggered h
    rw [hstop]
    by_cases hcd : c = d
    · subst hcd
      rw [Function.update_self]
      generalize o.stop c = q at hmove ⊢
      cases hmove <;> simp
    · rw [Function.update_of_ne hcd]
  · rw [(send_same h).2.2.1]
  · rw [destroy_stop h]

theorem stop_iff_of_reachable (hr : (TCPClient_V2 C).system.ReachableBy ok x)
    (c : ClientCaller C) : x.ext.stop c ≠ .idle ↔ ∃ k, x.base.caller c = .stopTriggered k := by
  refine Derived.inStop_iff_of_reachable (fun o : TcpClient C => fun c => o.stop c ≠ .idle)
    (fun _ h => h rfl) (fun {s c o o'} h => ?_) (fun {s c o o'} h => ?_)
    (fun h hsection hend => ?_) (fun h => ?_) hr c
  · obtain rfl := Option.some.inj (syncHooks_of_sync h)
    cases htrigger : s.mState.shouldTriggerStop with
    | true =>
      rw [if_pos rfl]
      simp only [setStop, Function.update_self]
      split <;> simp
    | false =>
      rw [if_neg Bool.false_ne_true]
      simp
  · have h := syncHooks_of_sync h
    simp only [syncHooks, Option.ite_none_right_eq_some, Option.some.injEq] at h
    obtain ⟨-, rfl⟩ := h
    simp [setStop]
  · rw [sync_stop_same h hsection hend]
  · exact not_congr (own_stop h)

/-! ## The reader, the writer and the senders -/

/-- A step of the reader, with the places that it leads from and to. -/
inductive ReaderMove (stopRequested : Bool) (descriptor : Option Nat) :
    ClientAction C → ReaderPc → ReaderPc → Prop where
  | buffer {ok : Bool} : ReaderMove stopRequested descriptor (.readerBuffer ok) .entry
      (if ok then .continueRunning else .requestStop)
  | continueRunning : ReaderMove stopRequested descriptor .readerContinueRunning .continueRunning
      (if stopRequested then .exited else .load)
  | load : ReaderMove stopRequested descriptor .readerLoad .load
      (match descriptor with
        | some fd => .recv fd
        | none => .exited)
  | recv {fd : Nat} {r : RecvResult} :
    ReaderMove stopRequested descriptor (.readerRecv r) (.recv fd)
      (match r with
        | .received => .callback
        | .interrupted => .continueRunning
        | .ended => .requestStop)
  | callback {threw : Bool} : ReaderMove stopRequested descriptor (.readerCallback threw) .callback
      (if threw then .requestStop else .continueRunning)
  | stopped : ReaderMove stopRequested descriptor .readerStopped .stopping .exited

theorem readerMove_of_readLoop {a : ClientAction C} (h : readLoop s o a = some o') :
    ∃ p, ReaderMove s.stopRequested o.socket.descriptor a o.reader p ∧
      o' = { o with reader := p } := by
  cases a with
  | readerBuffer ok | readerContinueRunning | readerLoad | readerCallback threw =>
    simp only [readLoop, Option.ite_none_right_eq_some, Option.some.injEq] at h
    obtain ⟨hat, rfl⟩ := h
    refine ⟨_, ?_, rfl⟩
    rw [hat]
    constructor
  | readerRecv r =>
    simp only [readLoop] at h
    split at h
    · rename_i hat
      obtain rfl := Option.some.inj h
      exact ⟨_, by rw [hat]; exact .recv, rfl⟩
    · cases h
  | readerStopped =>
    simp only [readLoop] at h
    split at h
    · rename_i hat _
      obtain rfl := Option.some.inj h
      exact ⟨_, by rw [hat]; exact .stopped, rfl⟩
    · cases h
  | _ => cases h

/-- A step of the writer, with the places that it leads from and to. -/
inductive WriterMove (stopRequested : Bool) (queue : List Buffer) :
    ClientAction C → WriterPc → WriterPc → Prop where
  | continueRunning : WriterMove stopRequested queue .writerContinueRunning .continueRunning
      (if stopRequested then .exited else .lock)
  | lock : WriterMove stopRequested queue .writerLock .lock .evaluate
  | evaluate : WriterMove stopRequested queue .writerEvaluate .evaluate
      (if stopRequested ∨ queue ≠ [] then .testStop else .sleep)
  | sleep : WriterMove stopRequested queue .writerSleep .sleep .asleep
  | wake : WriterMove stopRequested queue .writerWake .asleep .lock
  | testStop : WriterMove stopRequested queue .writerTestStop .testStop
      (if stopRequested then .exited else .pop)
  | pop {payload : Buffer} {rest : List Buffer} (hqueue : queue = payload :: rest) :
    WriterMove stopRequested queue .writerPop .pop (.load payload 0)
  | sentAll {payload : Buffer} {totalSent : Nat} :
    WriterMove stopRequested queue .writerLoad (.load payload totalSent) .continueRunning
  | load {payload : Buffer} {totalSent fd : Nat} (hmore : totalSent < payload.length) :
    WriterMove stopRequested queue .writerLoad (.load payload totalSent)
      (.send payload totalSent fd)
  | closed {payload : Buffer} {totalSent : Nat} :
    WriterMove stopRequested queue .writerLoad (.load payload totalSent) .requestStop
  | sent {payload : Buffer} {totalSent fd n : Nat} (hn : 0 < n)
    (hle : totalSent + n ≤ payload.length) :
    WriterMove stopRequested queue (.writerSend (.sent n)) (.send payload totalSent fd)
      (.load payload (totalSent + n))
  | interrupted {payload : Buffer} {totalSent fd : Nat} :
    WriterMove stopRequested queue (.writerSend .interrupted) (.send payload totalSent fd)
      (.load payload totalSent)
  | failed {payload : Buffer} {totalSent fd : Nat} :
    WriterMove stopRequested queue (.writerSend .failed) (.send payload totalSent fd) .requestStop
  | stopped : WriterMove stopRequested queue .writerStopped .stopping .exited

theorem writerMove_of_writeLoop {a : ClientAction C} (h : writeLoop s o a = some o') :
    WriterMove s.stopRequested o.mOutboundQueue a o.writer o'.writer ∧
      o'.reader = o.reader ∧ o'.sender = o.sender ∧ o'.terminated = o.terminated := by
  cases a with
  | writerContinueRunning | writerLock | writerEvaluate | writerSleep | writerWake
  | writerTestStop =>
    simp only [writeLoop, Option.ite_none_right_eq_some, Option.some.injEq] at h
    obtain ⟨hat, rfl⟩ := h
    refine ⟨?_, rfl, rfl, rfl⟩
    rw [hat]
    constructor
  | writerPop =>
    simp only [writeLoop] at h
    split at h
    · rename_i hat hqueue
      obtain rfl := Option.some.inj h
      exact ⟨by rw [hat]; exact .pop hqueue, rfl, rfl, rfl⟩
    · cases h
  | writerLoad =>
    simp only [writeLoop] at h
    split at h
    · rename_i payload totalSent hat
      obtain rfl := Option.some.inj h
      rw [hat]
      unfold TcpClient.writerLoad
      split
      · exact ⟨.sentAll, rfl, rfl, rfl⟩
      · rename_i hmore
        split
        · exact ⟨.load (by omega), rfl, rfl, rfl⟩
        · exact ⟨.closed, rfl, rfl, rfl⟩
    · cases h
  | writerSend r =>
    simp only [writeLoop] at h
    split at h
    · rename_i payload totalSent fd hat
      rw [hat]
      cases r with
      | sent n =>
        simp only [TcpClient.writerSend, Option.ite_none_right_eq_some, Option.some.injEq] at h
        obtain ⟨⟨hn, hle⟩, rfl⟩ := h
        exact ⟨.sent hn hle, rfl, rfl, rfl⟩
      | interrupted =>
        obtain rfl := Option.some.inj h
        exact ⟨.interrupted, rfl, rfl, rfl⟩
      | failed =>
        obtain rfl := Option.some.inj h
        exact ⟨.failed, rfl, rfl, rfl⟩
    · cases h
  | writerStopped =>
    simp only [writeLoop] at h
    split at h
    · rename_i hat _
      obtain rfl := Option.some.inj h
      exact ⟨by rw [hat]; exact .stopped, rfl, rfl, rfl⟩
    · cases h
  | _ => cases h

/-- A step of a thread inside `send`, with the places that it leads from and to. -/
inductive SendMove : ClientAction C → C → SendPc → SendPc → Prop where
  | send {c : C} {data : Buffer} {p : SendPc} : SendMove (.send c data) c .idle p
  | push {c : C} {data : Buffer} : SendMove (.sendPush c) c (.push data) .notify
  | notify {c : C} : SendMove (.sendNotify c) c .notify .idle

theorem sendMove_of_send {a : ClientAction C} (h : send s o a = some o') :
    ∃ c p, SendMove a c (o.sender c) p ∧ o'.sender = Function.update o.sender c p ∧
      o'.reader = o.reader ∧ o'.terminated = o.terminated ∧
      ((o'.writer = o.writer ∧ o'.mOutboundQueue = o.mOutboundQueue) ∨
        (o'.writer = o.writer ∧ o.writer.holdsMutex = false) ∨
        (o.writer = .asleep ∧ o'.writer = .lock)) := by
  cases a with
  | send c data =>
    simp only [TcpClient.send, Option.ite_none_right_eq_some, Option.some.injEq] at h
    obtain ⟨⟨-, hidle⟩, rfl⟩ := h
    split
    · refine ⟨c, .idle, by rw [hidle]; exact .send, ?_, rfl, rfl, .inl ⟨rfl, rfl⟩⟩
      rw [← hidle, Function.update_eq_self]
    · exact ⟨c, _, by rw [hidle]; exact .send, rfl, rfl, rfl, .inl ⟨rfl, rfl⟩⟩
  | sendPush c =>
    simp only [TcpClient.send] at h
    split at h
    · rename_i data hat
      simp only [Option.ite_none_left_eq_some, Option.some.injEq] at h
      obtain ⟨hfree, rfl⟩ := h
      exact ⟨c, _, by rw [hat]; exact .push, rfl, rfl, rfl,
        .inr (.inl ⟨rfl, by simpa using hfree⟩)⟩
    · cases h
  | sendNotify c =>
    simp only [TcpClient.send, Option.ite_none_right_eq_some, Option.some.injEq] at h
    obtain ⟨hat, rfl⟩ := h
    rcases notify_cases o with hsame | ⟨hasleep, hsame⟩
    · rw [hsame]
      exact ⟨c, _, by rw [hat]; exact .notify, rfl, rfl, rfl, .inl ⟨rfl, rfl⟩⟩
    · rw [hsame]
      exact ⟨c, _, by rw [hat]; exact .notify, rfl, rfl, rfl, .inr (.inr ⟨hasleep, rfl⟩)⟩
  | _ => cases h

/-- A step of the threads other than the worker's own and the reader leaves the reader alone. -/
theorem own_reader {a : ClientAction C} (h : own s o a = some o') :
    o'.reader = o.reader ∨ o'.reader = .entry ∨
      ReaderMove s.stopRequested o.socket.descriptor a o.reader o'.reader := by
  obtain ⟨-, h | h | h | h | h | h⟩ := own_cases h
  · cases workerStep_of_worker h with
    | createReader => exact .inr (.inl rfl)
    | runNotify =>
      rcases notify_cases o with hsame | ⟨-, hsame⟩
      · rw [hsame]
        exact .inl rfl
      · rw [hsame]
        exact .inl rfl
    | _ => exact .inl rfl
  · obtain ⟨p, hmove, rfl⟩ := readerMove_of_readLoop h
    exact .inr (.inr hmove)
  · exact .inl (writerMove_of_writeLoop h).2.1
  · obtain ⟨c, p, -, -, -, hreader, -⟩ := stopMove_of_stopTriggered h
    exact .inl hreader
  · obtain ⟨c, p, -, -, hreader, -⟩ := sendMove_of_send h
    exact .inl hreader
  · left
    cases a <;> simp only [destroy, clearOutboundQueue] at h <;> grind -linarith

theorem own_writer {a : ClientAction C} (h : own s o a = some o') :
    o'.writer = o.writer ∨ o'.writer = .continueRunning ∨
      (o.writer = .asleep ∧ o'.writer = .lock) ∨
      WriterMove s.stopRequested o.mOutboundQueue a o.writer o'.writer := by
  obtain ⟨-, h | h | h | h | h | h⟩ := own_cases h
  · rcases worker_writer h with hsame | ⟨-, hnew⟩ | hwoken
    · exact .inl hsame
    · exact .inr (.inl hnew)
    · exact .inr (.inr (.inl hwoken))
  · obtain ⟨p, -, rfl⟩ := readerMove_of_readLoop h
    exact .inl rfl
  · exact .inr (.inr (.inr (writerMove_of_writeLoop h).1))
  · obtain ⟨c, p, -, -, -, -, -, -, -, ⟨hsame, -⟩ | ⟨hsame, -⟩ | hwoken⟩ :=
      stopMove_of_stopTriggered h
    · exact .inl hsame
    · exact .inl hsame
    · exact .inr (.inr (.inl hwoken))
  · obtain ⟨c, p, -, -, -, -, ⟨hsame, -⟩ | ⟨hsame, -⟩ | hwoken⟩ := sendMove_of_send h
    · exact .inl hsame
    · exact .inl hsame
    · exact .inr (.inr (.inl hwoken))
  · left
    cases a <;> simp only [destroy, clearOutboundQueue] at h <;> grind -linarith

/-! ## Calls that are waited for -/

/-- The thread waits there for the end of its own call. -/
def Waiting (o : TcpClient C) : ClientCaller C → Prop
  | .user _ => False
  | .run => o.hook = .stopping
  | .reader => o.reader = .stopping
  | .writer => o.writer = .stopping
  | .destructor => o.destructor = .stopThread

/-- No step of the object itself leads to such a place. -/
theorem own_waiting {a : ClientAction C} {c : ClientCaller C} (h : own s o a = some o')
    (hw : o'.Waiting c) : o.Waiting c := by
  cases c with
  | user c => exact hw
  | run =>
    change o.hook = .stopping
    change o'.hook = .stopping at hw
    obtain ⟨-, h | h | h | h | h | h⟩ := own_cases h
    · cases workerStep_of_worker h with
      | connect =>
        simp only [setHook] at hw
        split at hw <;> cases hw
      | writerNotCreated => exact hw
      | _ => cases hw
    · rwa [← (readLoop_same h).2.1]
    · rwa [← (writeLoop_same h).2.1]
    · rwa [← (stopTriggered_sameThreads h).1.1]
    · rwa [← (send_same h).2.1]
    · rwa [← (destroy_sameThreads h).1]
  | reader =>
    change o.reader = .stopping
    change o'.reader = .stopping at hw
    rcases own_reader h with hsame | hnew | hmove
    · rwa [← hsame]
    · rw [hnew] at hw
      cases hw
    · generalize o.reader = p at hmove
      generalize o'.reader = q at hmove hw
      cases hmove <;> grind
  | writer =>
    change o.writer = .stopping
    change o'.writer = .stopping at hw
    rcases own_writer h with hsame | hnew | ⟨-, hnew⟩ | hmove
    · rwa [← hsame]
    · rw [hnew] at hw
      cases hw
    · rw [hnew] at hw
      cases hw
    · generalize o.writer = p at hmove
      generalize o'.writer = q at hmove hw
      cases hmove <;> grind
  | destructor =>
    change o.destructor = .stopThread
    change o'.destructor = .stopThread at hw
    obtain ⟨-, h | h | h | h | h | h⟩ := own_cases h
    · rwa [← (worker_same h).2.1]
    · rwa [← (readLoop_same h).2.2.2]
    · rwa [← (writeLoop_same h).2.2.2]
    · rwa [← (stopTriggered_sameThreads h).2]
    · rwa [← (send_same h).2.2.2]
    · cases a <;> simp only [destroy, clearOutboundQueue] at h <;> grind -linarith

theorem sync_waiting {a : BaseAction (ClientCaller C)} {c : ClientCaller C}
    (h : sync s a o = some o') (hw : o'.Waiting c) : o.Waiting c ∨ ∃ k, a = .call c k := by
  have h := syncHooks_of_sync h
  cases a with
  | call d k =>
    simp only [syncHooks] at h
    cases c <;> cases d <;> simp only [calls] at h <;> simp only [Waiting] at hw ⊢ <;>
      grind -linarith [setHook]
  | _ =>
    simp only [syncHooks] at h
    cases c <;> simp only [Waiting] at hw ⊢ <;> grind -linarith [setHook, setStop, launch]

theorem called_of_reachable {c : ClientCaller C}
    (hr : (TCPClient_V2 C).system.ReachableBy ok x) (hw : x.ext.Waiting c) :
    x.base.caller c ≠ .idle := by
  refine Derived.called_of_reachable (fun o : TcpClient C => o.Waiting c) ?_
    (fun hy hw => sync_waiting hy hw) (fun hy hw => own_waiting hy hw) hr hw
  intro hinit
  cases c <;> cases hinit

/-- The threads of a run make one call, `requestStop`. -/
theorem stopsItself_of_reachable {c : ClientCaller C} (hc : c = .run ∨ c = .reader ∨ c = .writer)
    (hr : (TCPClient_V2 C).system.ReachableBy ok x) : StopsItself (x.base.caller c) := by
  refine Derived.stopsItself_of_reachable (fun {s k o o'} hy => ?_) hr
  have hcalls : o.calls c k = some o' := syncHooks_of_sync hy
  rcases hc with rfl | rfl | rfl <;>
    simp only [calls, Option.ite_none_right_eq_some] at hcalls <;> exact hcalls.1.2

/-! ## Threads that are joined -/

structure Created (o : TcpClient C) : Prop where
  reader : o.hook.reading = true → o.reader ≠ .absent
  writer : o.hook.writing = true → o.writer ≠ .absent

theorem own_born {a : ClientAction C} (h : own s o a = some o') :
    (o.reader ≠ .absent → o'.reader ≠ .absent) ∧ (o.writer ≠ .absent → o'.writer ≠ .absent) := by
  constructor
  · intro hborn
    rcases own_reader h with hsame | hnew | hmove
    · rwa [hsame]
    · rw [hnew]
      simp
    · generalize o.reader = p at hmove
      generalize o'.reader = q at hmove ⊢
      cases hmove <;> grind
  · intro hborn
    rcases own_writer h with hsame | hnew | ⟨-, hnew⟩ | hmove
    · rwa [hsame]
    · rw [hnew]
      simp
    · rw [hnew]
      simp
    · generalize o.writer = p at hmove
      generalize o'.writer = q at hmove ⊢
      cases hmove <;> grind

theorem Created.own {a : ClientAction C} (hx : Created o) (h : own s o a = some o') :
    Created o' := by
  obtain ⟨hreader, hwriter⟩ := own_born h
  have hsame : o'.hook = o.hook → Created o' := fun hhook =>
    ⟨fun hr => hreader (hx.reader (hhook ▸ hr)), fun hw => hwriter (hx.writer (hhook ▸ hw))⟩
  obtain ⟨-, h | h | h | h | h | h⟩ := own_cases h
  · cases workerStep_of_worker h with
    | createReader => exact ⟨fun _ => by simp, fun hw => by cases hw⟩
    | createWriter hhook => exact ⟨fun _ => hx.reader (by rw [hhook]; rfl), fun _ => by simp⟩
    | joinReader hhook => exact ⟨fun hr => (by cases hr), fun _ => hx.writer (by rw [hhook]; rfl)⟩
    | runStopped hhook => exact ⟨fun hr => (by cases hr), fun _ => hx.writer (by rw [hhook]; rfl)⟩
    | runNotify hhook =>
      exact ⟨fun hr => (by cases hr), fun _ => hwriter (hx.writer (by rw [hhook]; rfl))⟩
    | writerNotCreated => exact hsame rfl
    | @connect ok => cases ok <;> exact ⟨fun hr => (by cases hr), fun hw => (by cases hw)⟩
    | _ => exact ⟨fun hr => (by cases hr), fun hw => (by cases hw)⟩
  · exact hsame (readLoop_same h).2.1
  · exact hsame (writeLoop_same h).2.1
  · exact hsame (stopTriggered_sameThreads h).1.1
  · exact hsame (send_same h).2.1
  · exact hsame (destroy_sameThreads h).1

theorem Created.sync {a : BaseAction (ClientCaller C)} (hx : Created o)
    (h : sync s a o = some o') : Created o' := by
  have h := syncHooks_of_sync h
  obtain ⟨hreader, hwriter⟩ := hx
  constructor
  · intro hr
    cases a with
    | call c k =>
      simp only [syncHooks] at h
      cases c <;> simp only [calls] at h <;> grind -linarith [setHook, ClientHook.reading]
    | _ =>
      simp only [syncHooks] at h
      grind -linarith [setHook, setStop, launch, ClientHook.reading]
  · intro hw
    cases a with
    | call c k =>
      simp only [syncHooks] at h
      cases c <;> simp only [calls] at h <;> grind -linarith [setHook, ClientHook.writing]
    | _ =>
      simp only [syncHooks] at h
      grind -linarith [setHook, setStop, launch, ClientHook.writing]

theorem created_of_reachable (hr : (TCPClient_V2 C).system.ReachableBy ok x) :
    Created x.ext := by
  refine ReachableBy.invariant (P := fun x => Created x.ext) ?_ (fun x a y _ hx _ hs => ?_) hr
  · exact ⟨fun h => (by cases h), fun h => (by cases h)⟩
  · cases a with
    | base a => exact hx.sync (Derived.step_base.mp hs).2
    | own a => exact hx.own (Derived.step_own.mp hs).2

/-! ## Buffers that are taken -/

/-- A writer that has tested its condition still finds what it has seen. -/
structure Filled (s : BaseWorker (ClientCaller C)) (o : TcpClient C) : Prop where
  test : o.writer = .testStop → s.stopRequested = true ∨ o.mOutboundQueue ≠ []
  pop : o.writer = .pop → o.mOutboundQueue ≠ []

theorem worker_queue {a : ClientAction C} (h : worker s o a = some o') :
    o'.mOutboundQueue = o.mOutboundQueue ∨ o.writer.holdsMutex = false := by
  cases workerStep_of_worker h with
  | clearQueue hhook =>
    right
    simp only [worker, clearOutboundQueue, if_pos hhook, Option.ite_none_left_eq_some] at h
    simpa using h.1
  | runNotify =>
    left
    rcases notify_cases o with hsame | ⟨-, hsame⟩
    · rw [hsame]
      rfl
    · rw [hsame]
      rfl
  | _ => exact .inl rfl

theorem destroy_queue {a : ClientAction C} (h : destroy s o a = some o') :
    o'.mOutboundQueue = o.mOutboundQueue ∨ o.writer.holdsMutex = false := by
  cases a <;> simp only [destroy, clearOutboundQueue] at h <;> grind -linarith

theorem own_queue {a : ClientAction C} (h : own s o a = some o')
    (hholds : o.writer.holdsMutex = true) (hstill : o'.writer.holdsMutex = true) :
    o'.mOutboundQueue = o.mOutboundQueue := by
  obtain ⟨-, h | h | h | h | h | h⟩ := own_cases h
  · apply (worker_queue h).resolve_right
    simp [hholds]
  · obtain ⟨p, -, rfl⟩ := readerMove_of_readLoop h
    rfl
  · cases a <;> simp only [writeLoop, TcpClient.writerLoad, TcpClient.writerSend] at h <;>
      grind -linarith [WriterPc.holdsMutex]
  · obtain ⟨c, p, -, -, -, -, -, -, -, ⟨-, hsame⟩ | ⟨-, hfree⟩ | ⟨hasleep, -⟩⟩ :=
      stopMove_of_stopTriggered h
    · exact hsame
    · rw [hfree] at hholds
      cases hholds
    · rw [hasleep] at hholds
      cases hholds
  · obtain ⟨c, p, -, -, -, -, ⟨-, hsame⟩ | ⟨-, hfree⟩ | ⟨hasleep, -⟩⟩ := sendMove_of_send h
    · exact hsame
    · rw [hfree] at hholds
      cases hholds
    · rw [hasleep] at hholds
      cases hholds
  · apply (destroy_queue h).resolve_right
    simp [hholds]

theorem Filled.own {a : ClientAction C} (hx : Filled s o) (h : own s o a = some o') :
    Filled s o' := by
  have hqueue := own_queue h
  rcases own_writer h with hsame | hnew | ⟨-, hnew⟩ | hmove
  · rw [hsame] at hqueue
    constructor
    · intro hw
      rw [hsame] at hw
      rw [hqueue (by rw [hw]; rfl) (by rw [hw]; rfl)]
      exact hx.test hw
    · intro hw
      rw [hsame] at hw
      rw [hqueue (by rw [hw]; rfl) (by rw [hw]; rfl)]
      exact hx.pop hw
  · exact ⟨fun hw => (by rw [hnew] at hw; cases hw), fun hw => (by rw [hnew] at hw; cases hw)⟩
  · exact ⟨fun hw => (by rw [hnew] at hw; cases hw), fun hw => (by rw [hnew] at hw; cases hw)⟩
  · have htest := hx.test
    constructor
    · intro hw
      generalize o.writer = p at hmove hqueue
      generalize o'.writer = q at hmove hqueue hw
      cases hmove with
      | evaluate =>
        rw [hw] at hqueue
        rw [hqueue rfl rfl]
        grind
      | _ => grind
    · intro hw
      generalize o.writer = p at hmove hqueue htest
      generalize o'.writer = q at hmove hqueue hw
      cases hmove with
      | testStop =>
        rw [hw] at hqueue
        rw [hqueue rfl rfl]
        grind
      | _ => grind

theorem Filled.sync {a : BaseAction (ClientCaller C)} (hx : Filled s o) (hattended : Attended o)
    (hat : HookAt s.current o.hook) (hi : BaseWorker.SingleBody s) (hk : s.mState ≠ .unknown)
    (hs : s.step a = some t) (h : sync s a o = some o') : Filled t o' := by
  have hframe : (o'.writer = o.writer ∨ o'.writer = .stopping) ∧
      o'.mOutboundQueue = o.mOutboundQueue := by
    have h := syncHooks_of_sync h
    cases a with
    | call c k =>
      simp only [syncHooks] at h
      cases c <;> simp only [calls] at h <;> grind -linarith [setHook]
    | _ =>
      simp only [syncHooks] at h
      grind -linarith [setHook, setStop, launch]
  obtain ⟨hsame | hnew, hqueue⟩ := hframe
  · refine ⟨fun hw => ?_, fun hw => ?_⟩
    · rw [hsame] at hw
      rw [hqueue]
      -- the run of the writer is live, so that no other is launched
      have hlive := shouldTriggerStop_of_working hattended hat hi hk (by rw [hw]; rfl)
      have hstart : s.mayStart = false := by
        revert hlive
        unfold BaseWorker.mayStart
        cases s.mState <;> simp [EnmState.shouldTriggerStop]
      apply (hx.test hw).imp_left
      intro hflag
      by_contra hclear
      rw [BaseWorker.flag_of_step hs (fun _ _ _ => hstart) (by simpa using hclear)] at hflag
      cases hflag
    · rw [hsame] at hw
      rw [hqueue]
      exact hx.pop hw
  · exact ⟨fun hw => (by rw [hnew] at hw; cases hw), fun hw => (by rw [hnew] at hw; cases hw)⟩

theorem filled_of_reachable (hr : (TCPClient_V2 C).system.ReachableBy ok x) :
    Filled x.base x.ext := by
  refine ReachableBy.invariant (P := fun x => Filled x.base x.ext) ?_
    (fun x a y hr hx _ hs => ?_) hr
  · exact ⟨fun h => (by cases h), fun h => (by cases h)⟩
  · cases a with
    | base a =>
      obtain ⟨hb, hy⟩ := Derived.step_base.mp hs
      exact hx.sync (attended_of_reachable hr) (hookAt_of_reachable hr) (Derived.inherits hr).1
        (BaseWorker.known_of_reachable (Derived.base_reachable hr)) hb hy
    | own a =>
      obtain ⟨hb, hy⟩ := Derived.step_own.mp hs
      rw [hb]
      exact hx.own hy

/-! ## Threads inside `send` -/

theorem sync_sender {a : BaseAction (ClientCaller C)} (h : sync s a o = some o') :
    o'.sender = o.sender := by
  have h := syncHooks_of_sync h
  cases a with
  | call c k =>
    simp only [syncHooks] at h
    cases c <;> simp only [calls] at h <;> grind -linarith [setHook]
  | _ =>
    simp only [syncHooks] at h
    grind -linarith [setHook, setStop, launch]

theorem own_sender {a : ClientAction C} (h : own s o a = some o') :
    o'.sender = o.sender ∨
      ∃ c p, SendMove a c (o.sender c) p ∧ o'.sender = Function.update o.sender c p := by
  obtain ⟨-, h | h | h | h | h | h⟩ := own_cases h
  · left
    cases workerStep_of_worker h with
    | runNotify => rcases notify_cases o with hsame | ⟨-, hsame⟩ <;> rw [hsame] <;> rfl
    | _ => rfl
  · obtain ⟨p, -, rfl⟩ := readerMove_of_readLoop h
    exact .inl rfl
  · exact .inl (writerMove_of_writeLoop h).2.2.1
  · obtain ⟨c, p, -, -, -, -, hsame, -⟩ := stopMove_of_stopTriggered h
    exact .inl hsame
  · obtain ⟨c, p, hmove, hsender, -⟩ := sendMove_of_send h
    exact .inr ⟨c, p, hmove, hsender⟩
  · left
    cases a <;> simp only [destroy, clearOutboundQueue] at h <;> grind -linarith

/-- Only finitely many threads are inside `send`. -/
theorem senders_of_reachable (hr : (TCPClient_V2 C).system.ReachableBy ok x) :
    ∃ senders : Finset C, ∀ c, c ∉ senders → x.ext.sender c = .idle := by
  refine ReachableBy.invariant
    (P := fun x => ∃ senders : Finset C, ∀ c, c ∉ senders → x.ext.sender c = .idle)
    ⟨∅, fun _ _ => rfl⟩ (fun x a y _ hx _ hs => ?_) hr
  obtain ⟨senders, hidle⟩ := hx
  cases a with
  | base a =>
    rw [sync_sender (Derived.step_base.mp hs).2]
    exact ⟨senders, hidle⟩
  | own a =>
    rcases own_sender (Derived.step_own.mp hs).2 with hsame | ⟨c, p, -, hsender⟩
    · rw [hsame]
      exact ⟨senders, hidle⟩
    · refine ⟨insert c senders, fun d hout => ?_⟩
      rw [Finset.mem_insert, not_or] at hout
      rw [hsender, Function.update_of_ne hout.1]
      exact hidle d hout.2

end TcpClient

end ThreadComponent
