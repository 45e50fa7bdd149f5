import ThreadComponent.TcpClientWaits

/-!
# TCPClient_V2 comes to its end

Once a stop is requested and nobody is about to launch a run, the reader, the writer, the
worker's own thread, the stop hooks, the calls and a destructor that has begun take a bounded
number of steps. Only a `::send` that is interrupted is made again: `sendAll` does not look at
the stop flag, and it gives up when the stop hook has closed the socket.
-/

set_option autoImplicit false
set_option linter.unusedSectionVars false

namespace ThreadComponent

open Transitions System

/-! ## What is left to do at each place -/

/-- The most steps that a hook of the worker still takes behind a stop. `requestStop` has a
call before it, `createReader` and `createWriter` those of a thread. -/
def ClientHook.rank : ClientHook → Nat
  | .idle => 0
  | .preRunDone _ | .runDone _ => 1
  | .close | .joinWriter => 2
  | .exchange | .notify => 3
  | .connect | .stopping => 4
  | .storeSocket => 5
  | .openSocket => 6
  | .clearQueue => 7
  | .requestStop => 173
  | .joinReader => 174
  | .createWriter => 176
  | .createReader => 348

/-- What `run` adds to the steps of a run that has yet to come to it. -/
def RunnerPc.ahead : RunnerPc → Nat
  | .entry | .preRun | .checkStop | .setRunning => 348
  | _ => 0

def ReaderPc.rank : ReaderPc → Nat
  | .absent | .exited => 0
  | .continueRunning | .stopping => 1
  | .requestStop => 170
  | .entry | .callback => 171
  | .recv _ => 172
  | .load => 173

/-- The steps that the writer has before it behind a stop, with those for the buffer that it
sends or is about to take. -/
def WriterPc.rank (queue : List Buffer) : WriterPc → Nat
  | .absent | .exited => 0
  | .continueRunning | .testStop | .stopping => 1
  | .evaluate => 2
  | .lock => 3
  | .asleep => 4
  | .sleep => 5
  | .requestStop => 170
  | .send payload totalSent _ => 171 + 2 * (payload.length - totalSent)
  | .load payload totalSent => 172 + 2 * (payload.length - totalSent)
  | .pop => 173 + 2 * (queue.headD []).length

def ClientStop.rank : ClientStop → Nat
  | .idle | .done => 0
  | .notify => 1
  | .clearQueue => 2
  | .close => 3
  | .exchange => 4

def SendPc.rank : SendPc → Nat
  | .idle => 0
  | .notify => 1
  | .push _ => 2

def ClientDestructor.rank : ClientDestructor → Nat
  | .idle | .inBase => 0
  | .base => 169
  | .clearQueue => 170
  | .close => 171
  | .exchange => 172
  | .stopThread => 173

/-- No run is launched, and a run that comes to `run` has it no more before it. -/
theorem BaseWorker.ahead_of_step {T : Type} [DecidableEq T] {s t : BaseWorker T}
    {a : BaseAction T} (hi : SingleBody s) (hu : Unborn s)
    (hno : ∀ c created, a ≠ .startSection c created) (h : s.step a = some t) :
    t.current.ahead ≤ s.current.ahead ∧
      ∀ r, a = .setRunning r → t.current.ahead + 348 ≤ s.current.ahead := by
  cases moves_of_step hi hu h with
  | rest hact _ hcur =>
    rw [hcur]
    refine ⟨Nat.le_refl _, ?_⟩
    rintro r rfl
    cases hact
  | launch c created => exact absurd rfl (hno c created)
  | setRunning r hfrom hto =>
    rw [hfrom, hto]
    exact ⟨Nat.zero_le _, fun _ _ => Nat.le_refl _⟩
  | preRunEnd r e hfrom hto =>
    rw [hfrom, hto]
    refine ⟨?_, fun _ he => by cases he⟩
    rcases e with ⟨_ | _⟩ | e <;> simp [HookEnd.afterPreRun, RunnerPc.ahead]
  | runEnd r e hfrom hto =>
    rw [hfrom, hto]
    refine ⟨?_, fun _ he => by cases he⟩
    cases e <;> exact Nat.le_refl 0
  | checkStop r hfrom hto =>
    rw [hfrom, hto]
    refine ⟨?_, fun _ he => by cases he⟩
    split <;> simp [RunnerPc.ahead]
  | preRunBegin r hfrom hto | catchException r e hfrom hto | setStopped r hfrom hto =>
    rw [hfrom, hto]
    exact ⟨Nat.le_refl _, fun _ he => by cases he⟩

namespace TcpClient
variable {C : Type} [DecidableEq C] {s t : BaseWorker (ClientCaller C)} {o o' : TcpClient C}
  {busy : Finset (ClientCaller C)} {senders : Finset C}

def running (o : TcpClient C) : Nat :=
  o.hook.rank + o.reader.rank + o.writer.rank o.mOutboundQueue + o.destructor.rank +
    (!o.terminated).toNat

def places (busy : Finset (ClientCaller C)) (senders : Finset C) (o : TcpClient C) : Nat :=
  o.running + ∑ c ∈ busy, (o.stop c).rank + ∑ c ∈ senders, (o.sender c).rank

def rank (busy : Finset (ClientCaller C)) (senders : Finset C)
    (s : BaseWorker (ClientCaller C)) (o : TcpClient C) : Nat :=
  12 * s.rank busy + s.current.ahead + places busy senders o

/-- A `::send` that is interrupted is made again. -/
def repeats : ClientAction C → Bool
  | .writerSend .interrupted => true
  | _ => false

/-! ## The reader and the writer -/

theorem ReaderMove.rank {descriptor : Option Nat} {a : ClientAction C} {p p' : ReaderPc}
    (h : ReaderMove true descriptor a p p') : p'.rank < p.rank := by
  cases h with
  | @buffer ok => cases ok <;> decide
  | continueRunning | stopped => decide
  | load => cases descriptor <;> simp [ReaderPc.rank]
  | @recv _ r => cases r <;> simp [ReaderPc.rank]
  | @callback threw => cases threw <;> decide

/-- The writer comes closer to its end, whatever becomes of the queue. -/
theorem WriterMove.rank {queue : List Buffer} {a : ClientAction C} {p p' : WriterPc}
    (h : WriterMove true queue a p p') (queue' : List Buffer) :
    p'.rank queue' ≤ p.rank queue + 1 ∧
      (repeats a = false → p'.rank queue' < p.rank queue) := by
  cases h with
  | continueRunning | testStop | evaluate => simp [WriterPc.rank]
  | lock | sleep | wake | stopped => simp [WriterPc.rank]
  | pop hqueue =>
    rw [hqueue]
    simp only [WriterPc.rank, List.headD_cons]
    omega
  | sentAll | closed | failed =>
    simp only [WriterPc.rank]
    omega
  | load hmore =>
    simp only [WriterPc.rank]
    omega
  | sent hn hle =>
    simp only [WriterPc.rank]
    omega
  | interrupted =>
    refine ⟨?_, fun ha => by cases ha⟩
    simp only [WriterPc.rank]
    omega

/-- Without the mutex the writer is not about to take a buffer. -/
theorem WriterPc.rank_of_free {p : WriterPc} {queue queue' : List Buffer}
    (h : p.holdsMutex = false) : p.rank queue = p.rank queue' := by
  cases p <;> first | rfl | cases h

/-- A thread other than the writer leaves it at its place or wakes it. -/
theorem writer_rank_le
    (h : (o'.writer = o.writer ∧ o'.mOutboundQueue = o.mOutboundQueue) ∨
      (o'.writer = o.writer ∧ o.writer.holdsMutex = false) ∨
      (o.writer = .asleep ∧ o'.writer = .lock)) :
    o'.writer.rank o'.mOutboundQueue ≤ o.writer.rank o.mOutboundQueue := by
  rcases h with ⟨hwriter, hqueue⟩ | ⟨hwriter, hfree⟩ | ⟨hasleep, hlock⟩
  · rw [hwriter, hqueue]
  · rw [hwriter, WriterPc.rank_of_free hfree]
  · rw [hasleep, hlock]
    simp [WriterPc.rank]

/-! ## Steps of the object -/

theorem places_of_running (hstop : o'.stop = o.stop) (hsender : o'.sender = o.sender) :
    places busy senders o' + o.running = places busy senders o + o'.running := by
  unfold places
  rw [hstop, hsender]
  omega

/-- The worker's thread goes on, and leaves the reader and the writer at their places. -/
theorem running_of_hook (hhook : o'.hook.rank < o.hook.rank) (hreader : o'.reader = o.reader)
    (hwriter : o'.writer.rank o'.mOutboundQueue ≤ o.writer.rank o.mOutboundQueue)
    (hdtor : o'.destructor = o.destructor) (hterm : o'.terminated = o.terminated) :
    o'.running < o.running := by
  unfold running
  rw [hreader, hdtor, hterm]
  omega

theorem worker_lower {a : ClientAction C} (hterm : o.terminated = false)
    (h : worker s o a = some o') : places busy senders o' < places busy senders o := by
  have hsender : o'.sender = o.sender := by
    cases workerStep_of_worker h with
    | runNotify => rcases notify_cases o with hsame | ⟨-, hsame⟩ <;> rw [hsame] <;> rfl
    | _ => rfl
  have hsum : places busy senders o' + o.running = places busy senders o + o'.running :=
    places_of_running (worker_same h).1 hsender
  suffices hlower : o'.running < o.running by omega
  cases workerStep_of_worker h with
  | clearQueue hhook =>
    have hfree : o.writer.holdsMutex = false := by
      simp only [worker, clearOutboundQueue, if_pos hhook, Option.ite_none_left_eq_some] at h
      simpa using h.1
    refine running_of_hook (by rw [hhook]; simp [setHook, ClientHook.rank]) rfl ?_ rfl rfl
    exact Nat.le_of_eq (WriterPc.rank_of_free hfree)
  | @connect ok hhook =>
    refine running_of_hook ?_ rfl (Nat.le_refl _) rfl rfl
    rw [hhook]
    cases ok <;> simp [setHook, ClientHook.rank]
  | createReader hhook =>
    unfold running
    rw [hhook]
    simp only [ClientHook.rank, ReaderPc.rank]
    omega
  | createWriter hhook =>
    unfold running
    rw [hhook]
    simp only [ClientHook.rank, WriterPc.rank]
    omega
  | writerNotCreated =>
    unfold running
    rw [hterm]
    simp
  | runNotify hhook =>
    rcases notify_cases o with hsame | ⟨hasleep, hsame⟩
    · rw [hsame]
      exact running_of_hook (by rw [hhook]; simp [setHook, ClientHook.rank]) rfl (Nat.le_refl _) rfl rfl
    · rw [hsame]
      refine running_of_hook (by rw [hhook]; simp [setHook, ClientHook.rank]) rfl ?_ rfl rfl
      exact writer_rank_le (.inr (.inr ⟨hasleep, rfl⟩))
  | readerNotCreated hhook =>
    refine running_of_hook ?_ rfl (Nat.le_refl _) rfl rfl
    rw [hhook]
    simp [setHook, ClientHook.rank]
  | openSocket hhook | notOpened hhook | storeSocket hhook | exchange hhook | close hhook
  | joinReader hhook | runStopped hhook | joinWriter hhook =>
    exact running_of_hook (by rw [hhook]; simp [setHook, ClientHook.rank]) rfl (Nat.le_refl _) rfl rfl

theorem readLoop_lower {a : ClientAction C} (hstop : s.stopRequested = true)
    (h : readLoop s o a = some o') : places busy senders o' < places busy senders o := by
  obtain ⟨p, hmove, rfl⟩ := readerMove_of_readLoop h
  rw [hstop] at hmove
  have hlower := hmove.rank
  have hsum : places busy senders { o with reader := p } + o.running =
      places busy senders o + TcpClient.running { o with reader := p } :=
    places_of_running rfl rfl
  have hrunning : TcpClient.running { o with reader := p } + o.reader.rank =
      o.running + p.rank := by
    unfold running
    simp only
    omega
  omega

theorem writeLoop_lower {a : ClientAction C} (hstop : s.stopRequested = true)
    (h : writeLoop s o a = some o') :
    places busy senders o' ≤ places busy senders o + 1 ∧
      (repeats a = false → places busy senders o' < places busy senders o) := by
  obtain ⟨-, hhook, hstops, hdtor⟩ := writeLoop_same h
  obtain ⟨hmove, hreader, hsender, hterm⟩ := writerMove_of_writeLoop h
  rw [hstop] at hmove
  obtain ⟨hle, hlt⟩ := hmove.rank o'.mOutboundQueue
  have hsum : places busy senders o' + o.running = places busy senders o + o'.running :=
    places_of_running hstops hsender
  unfold running at hsum
  rw [hhook, hreader, hdtor, hterm] at hsum
  refine ⟨by omega, fun ha => ?_⟩
  have hlower := hlt ha
  omega

theorem stopTriggered_lower {a : ClientAction C} (hbusy : ∀ c, o.stop c ≠ .idle → c ∈ busy)
    (h : o.stopTriggered a = some o') : places busy senders o' < places busy senders o := by
  obtain ⟨c, p, hmove, hstop, hhook, hreader, hsender, hdtor, hterm, hwriter⟩ :=
    stopMove_of_stopTriggered h
  have hle := writer_rank_le hwriter
  have hlower : o.stop c ≠ .idle ∧ p.rank < (o.stop c).rank := by
    generalize o.stop c = q at hmove
    cases hmove <;> exact ⟨by simp, by decide⟩
  have hsum := sum_add_of_frame (f := fun d => (o.stop d).rank)
    (g := fun d => (o'.stop d).rank) (hbusy c hlower.1) fun d hd => by
      rw [hstop, Function.update_of_ne hd]
  have hself : o'.stop c = p := by rw [hstop, Function.update_self]
  simp only [hself] at hsum
  unfold places running
  rw [hhook, hreader, hsender, hdtor, hterm]
  omega

theorem send_lower {a : ClientAction C} (hsenders : ∀ c, o.sender c ≠ .idle → c ∈ senders)
    (hold : ∀ c data, a ≠ .send c data) (h : send s o a = some o') :
    places busy senders o' < places busy senders o := by
  obtain ⟨-, hhook, hstop, hdtor⟩ := send_same h
  obtain ⟨c, p, hmove, hsender, hreader, hterm, hwriter⟩ := sendMove_of_send h
  have hle := writer_rank_le hwriter
  have hlower : o.sender c ≠ .idle ∧ p.rank < (o.sender c).rank := by
    generalize o.sender c = q at hmove
    cases hmove with
    | send => exact absurd rfl (hold _ _)
    | push | notify => exact ⟨by simp, by simp [SendPc.rank]⟩
  have hsum := sum_add_of_frame (f := fun d => (o.sender d).rank)
    (g := fun d => (o'.sender d).rank) (hsenders c hlower.1) fun d hd => by
      rw [hsender, Function.update_of_ne hd]
  have hself : o'.sender c = p := by rw [hsender, Function.update_self]
  simp only [hself] at hsum
  unfold places running
  rw [hhook, hreader, hstop, hdtor, hterm]
  omega

theorem destroy_lower {a : ClientAction C} (h : destroy s o a = some o') :
    places busy senders o' < places busy senders o := by
  have hqueue := destroy_queue h
  have hframe : o'.hook = o.hook ∧ o'.reader = o.reader ∧ o'.writer = o.writer ∧
      o'.stop = o.stop ∧ o'.sender = o.sender ∧ o'.terminated = o.terminated ∧
      o'.destructor.rank < o.destructor.rank := by
    cases a <;> simp only [destroy, clearOutboundQueue] at h <;>
      grind -linarith [ClientDestructor.rank]
  obtain ⟨hhook, hreader, hwriter, hstop, hsender, hterm, hlower⟩ := hframe
  have hle : o'.writer.rank o'.mOutboundQueue ≤ o.writer.rank o.mOutboundQueue := by
    apply writer_rank_le
    rcases hqueue with hsame | hfree
    · exact .inl ⟨hwriter, hsame⟩
    · exact .inr (.inl ⟨hwriter, hfree⟩)
  unfold places running
  rw [hhook, hreader, hstop, hsender, hterm]
  omega

theorem own_lower {a : ClientAction C} (hstop : s.stopRequested = true)
    (hbusy : ∀ c, o.stop c ≠ .idle → c ∈ busy)
    (hsenders : ∀ c, o.sender c ≠ .idle → c ∈ senders) (hold : ∀ c data, a ≠ .send c data)
    (h : own s o a = some o') :
    places busy senders o' ≤ places busy senders o + 1 ∧
      (repeats a = false → places busy senders o' < places busy senders o) := by
  have hlower : places busy senders o' < places busy senders o →
      places busy senders o' ≤ places busy senders o + 1 ∧
        (repeats a = false → places busy senders o' < places busy senders o) :=
    fun hlt => ⟨by omega, fun _ => hlt⟩
  obtain ⟨hterm, h | h | h | h | h | h⟩ := own_cases h
  · exact hlower (worker_lower hterm h)
  · exact hlower (readLoop_lower hstop h)
  · exact writeLoop_lower hstop h
  · exact hlower (stopTriggered_lower hbusy h)
  · exact hlower (send_lower hsenders hold h)
  · exact hlower (destroy_lower h)

/-! ## The worker -/

/-- A call that comes from outside of the object, or begins its destructor. -/
def outside : ClientCaller C → Call → Bool
  | .user _, _ | .destructor, .stopThread _ => true
  | _, _ => false

def isSend : ClientAction C → Bool
  | .send _ _ => true
  | _ => false

/-- No thread outside of the object makes a call, and no destructor begins. -/
def Inner (_ : Object (ClientCaller C) (TcpClient C))
    (a : ObjectAction (ClientCaller C) (ClientAction C)) : Prop :=
  a.among outside isSend = false

instance (s : Object (ClientCaller C) (TcpClient C))
    (a : ObjectAction (ClientCaller C) (ClientAction C)) : Decidable (Inner s a) :=
  inferInstanceAs (Decidable (_ = false))

variable (busy senders) in
/-- A call inside the object takes its caller out of a place that is worth a call, and launches
no run. -/
theorem inner_call {c : ClientCaller C} {k : Call} (hin : Inner ⟨s, o⟩ (.base (.call c k)))
    (h : o.calls c k = some o') :
    (c = .run ∨ c = .reader ∨ c = .writer ∨ c = .destructor) ∧ k.isStart = false ∧
      places busy senders o' + 168 < places busy senders o := by
  cases c with
  | user c => cases hin
  | run =>
    simp only [calls, Option.ite_none_right_eq_some, Option.some.injEq] at h
    obtain ⟨⟨hhook, rfl⟩, rfl⟩ := h
    refine ⟨.inl rfl, rfl, ?_⟩
    unfold places running setHook
    rw [hhook]
    simp only [ClientHook.rank]
    omega
  | reader =>
    simp only [calls, Option.ite_none_right_eq_some, Option.some.injEq] at h
    obtain ⟨⟨hreader, rfl⟩, rfl⟩ := h
    refine ⟨.inr (.inl rfl), rfl, ?_⟩
    unfold places running
    rw [hreader]
    simp only [ReaderPc.rank]
    omega
  | writer =>
    simp only [calls, Option.ite_none_right_eq_some, Option.some.injEq] at h
    obtain ⟨⟨hwriter, rfl⟩, rfl⟩ := h
    refine ⟨.inr (.inr (.inl rfl)), rfl, ?_⟩
    unfold places running
    rw [hwriter]
    simp only [WriterPc.rank]
    omega
  | destructor =>
    simp only [calls] at h
    split at h
    · simp only [Option.ite_none_right_eq_some] at h
      obtain ⟨rfl, -⟩ := h
      cases hin
    · rename_i hdtor
      simp only [Option.ite_none_right_eq_some, Option.some.injEq] at h
      obtain ⟨rfl, rfl⟩ := h
      refine ⟨.inr (.inr (.inr rfl)), rfl, ?_⟩
      unfold places running
      rw [hdtor]
      simp only [ClientDestructor.rank]
      omega
    · cases h

theorem places_setStop {c : ClientCaller C} {p : ClientStop} (hc : c ∈ busy) :
    places busy senders (o.setStop c p) ≤ places busy senders o + p.rank := by
  have hsum := sum_add_of_frame (f := fun d => (o.stop d).rank)
    (g := fun d => ((o.setStop c p).stop d).rank) hc fun d hd => by rw [setStop_stop_ne hd]
  have hself : (o.setStop c p).stop c = p := Function.update_self _ _ _
  simp only [hself] at hsum
  unfold places running
  change o.hook.rank + _ + _ + _ + _ + _ + _ ≤ _
  simp only [setStop] at hsum ⊢
  omega

variable (senders) in
/-- A step of the worker leads into one hook at most. What it finds there is counted before, or
it is less than what the step itself counts. -/
theorem sync_places {a : BaseAction (ClientCaller C)} (ha : a.isCall = false)
    (hno : ∀ c created, a ≠ .startSection c created)
    (hmem : ∀ c, BaseWorker.actingCaller a = some c → c ∈ busy) (hy : sync s a o = some o') :
    places busy senders o' ≤ places busy senders o + 7 ∨
      (∃ r, a = .setRunning r) ∧ places busy senders o' ≤ places busy senders o + 348 := by
  have h := syncHooks_of_sync hy
  cases a with
  | call => cases ha
  | startSection c created => exact absurd rfl (hno c created)
  | preRunBegin r =>
    left
    obtain rfl := Option.some.inj h
    unfold places running setHook
    simp only [ClientHook.rank]
    omega
  | setRunning r =>
    refine .inr ⟨⟨r, rfl⟩, ?_⟩
    obtain rfl := Option.some.inj h
    unfold places running setHook
    simp only [ClientHook.rank]
    omega
  | preRunEnd r e | runEnd r e =>
    left
    simp only [syncHooks, Option.ite_none_right_eq_some, Option.some.injEq] at h
    obtain ⟨-, rfl⟩ := h
    unfold places running setHook
    simp only [ClientHook.rank]
    omega
  | stopSection c =>
    left
    obtain rfl := Option.some.inj h
    split
    · refine (places_setStop (hmem c rfl)).trans ?_
      split <;> simp [ClientStop.rank]
    · omega
  | stopTriggeredEnd c =>
    left
    simp only [syncHooks, Option.ite_none_right_eq_some, Option.some.injEq] at h
    obtain ⟨-, rfl⟩ := h
    exact (places_setStop (hmem c rfl)).trans (by simp [ClientStop.rank])
  | _ =>
    left
    obtain rfl := Option.some.inj h
    omega

theorem base_lower {a : BaseAction (ClientCaller C)} (ha : a.isCall = false)
    (hstopping : BaseWorker.Stopping s) (hs : BaseWorker.Settling busy s)
    (h : s.step a = some t) (hy : sync s a o = some o') :
    rank busy senders t o' < rank busy senders s o := by
  have hbase := hs.rank_lt ha h
  have hno : ∀ c created, a ≠ .startSection c created := by
    rintro c created rfl
    exact hstopping.not_startSection h
  have hmem : ∀ c, BaseWorker.actingCaller a = some c → c ∈ busy := fun c hact =>
    hs.busy_of_acting ha hact h
  obtain ⟨hahead, hrun⟩ := BaseWorker.ahead_of_step hs.single hs.unborn hno h
  unfold rank
  rcases sync_places senders ha hno hmem hy with hle | ⟨⟨r, hact⟩, hle⟩
  · omega
  · have hleft := hrun r hact
    omega

/-! ## Runs behind a stop -/

/-- What holds behind a stop, while the members of `busy` and of `senders` are the only threads
inside member functions. -/
structure Leaving (busy : Finset (ClientCaller C)) (senders : Finset C)
    (x : Object (ClientCaller C) (TcpClient C)) : Prop where
  shutting : (TCPClient_V2 C).ShuttingDown busy x
  idle : ∀ c, c ∉ senders → x.ext.sender c = .idle
  awaited : Awaited x.base x.ext

section Run
variable {x y : Object (ClientCaller C) (TcpClient C)}
  {a : ObjectAction (ClientCaller C) (ClientAction C)}

/-- Behind a stop no thread sets the flag any more, and whoever has set it wakes the writer. -/
theorem Awaited.stopping {a : BaseAction (ClientCaller C)} (hx : Awaited s o)
    (hflag : s.stopRequested = true) (hidle : ∀ c, a = .stopSection c → o.stop c = .idle)
    (hy : TcpClient.sync s a o = some o') : Awaited t o' := by
  have h := syncHooks_of_sync hy
  have hwriter : o'.writer = o.writer ∨ (o'.writer ≠ .sleep ∧ o'.writer ≠ .asleep) := by
    cases a with
    | call c k =>
      simp only [syncHooks] at h
      cases c <;> simp only [calls] at h <;> grind -linarith [setHook]
    | _ =>
      simp only [syncHooks] at h
      grind -linarith [setHook, setStop, launch]
  refine hx.of_same (fun _ => hflag) hwriter fun c hc => sync_stop_same hy ?_ ?_
  · rintro rfl
    rw [hidle c rfl] at hc
    cases hc
  · rintro rfl
    simp only [syncHooks, Option.ite_none_right_eq_some] at h
    rw [h.1] at hc
    cases hc

theorem Leaving.busy_of_stop (hx : Leaving busy senders x) {c : ClientCaller C}
    (hc : x.ext.stop c ≠ .idle) : c ∈ busy := by
  obtain ⟨k, hk⟩ := (stop_iff_of_reachable hx.shutting.reachable c).mp hc
  exact hx.shutting.busy_of_stopTriggered hk

/-- Who makes a call inside the object is counted, and starts no run. -/
theorem mem_of_call (hown : {.run, .reader, .writer, .destructor} ⊆ busy) (hin : Inner x a)
    (h : (TCPClient_V2 C).system.step x a = some y) {c : ClientCaller C} {k : Call}
    (hact : a = .base (.call c k)) : c ∈ busy ∧ k.isStart = false := by
  subst hact
  have hcalls : x.ext.calls c k = some y.ext := syncHooks_of_sync (Derived.step_base.mp h).2
  obtain ⟨hc, hk, -⟩ := inner_call busy ∅ hin hcalls
  refine ⟨hown ?_, hk⟩
  rcases hc with rfl | rfl | rfl | rfl <;> simp

theorem Leaving.step (hown : {.run, .reader, .writer, .destructor} ⊆ busy)
    (hx : Leaving busy senders x) (hin : Inner x a)
    (h : (TCPClient_V2 C).system.step x a = some y) : Leaving busy senders y where
  shutting := hx.shutting.step (fun _ _ => mem_of_call hown hin h) h
  idle := by
    intro c hout
    cases a with
    | base a =>
      rw [sync_sender (Derived.step_base.mp h).2]
      exact hx.idle c hout
    | own a =>
      rcases own_sender (Derived.step_own.mp h).2 with hsame | ⟨d, p, hmove, hsender⟩
      · rw [hsame]
        exact hx.idle c hout
      · have hcd : c ≠ d := by
          rintro rfl
          rw [hx.idle c hout] at hmove
          cases hmove
          cases hin
        rw [hsender, Function.update_of_ne hcd]
        exact hx.idle c hout
  awaited := by
    cases a with
    | base a =>
      obtain ⟨hb, hy⟩ := Derived.step_base.mp h
      refine hx.awaited.stopping hx.shutting.stopping.requested (fun c hact => ?_) hy
      subst hact
      by_contra hne
      obtain ⟨k, hk⟩ := (stop_iff_of_reachable hx.shutting.reachable c).mp hne
      obtain ⟨k', hk', -⟩ := BaseWorker.step_stopSection.mp hb
      rw [hk] at hk'
      cases hk'
    | own a =>
      obtain ⟨hb, hy⟩ := Derived.step_own.mp h
      rw [hb]
      exact hx.awaited.own hy

/-- A `::send` that is interrupted undoes a step. -/
def back : ObjectAction (ClientCaller C) (ClientAction C) → Bool
  | .base _ => false
  | .own a => repeats a

theorem Leaving.rank_lt (hown : {.run, .reader, .writer, .destructor} ⊆ busy)
    (hx : Leaving busy senders x) (hin : Inner x a)
    (h : (TCPClient_V2 C).system.step x a = some y) :
    rank busy senders y.base y.ext ≤ rank busy senders x.base x.ext + 1 ∧
      (back a = false → rank busy senders y.base y.ext < rank busy senders x.base x.ext) := by
  cases a with
  | own a =>
    obtain ⟨hb, hy⟩ := Derived.step_own.mp h
    have hsenders : ∀ c, x.ext.sender c ≠ .idle → c ∈ senders := by
      intro c hc
      by_contra hout
      exact hc (hx.idle c hout)
    have hold : ∀ c data, a ≠ .send c data := by
      rintro c data rfl
      cases hin
    obtain ⟨hle, hlt⟩ := own_lower hx.shutting.stopping.requested (fun c hc => hx.busy_of_stop hc)
      hsenders hold hy
    unfold rank
    rw [hb]
    refine ⟨by omega, fun hback => ?_⟩
    have hlower := hlt hback
    omega
  | base a =>
    obtain ⟨hb, hy⟩ := Derived.step_base.mp h
    suffices hlower : rank busy senders y.base y.ext < rank busy senders x.base x.ext from
      ⟨by omega, fun _ => hlower⟩
    cases hcall : a.isCall with
    | false => exact base_lower hcall hx.shutting.stopping hx.shutting.settling hb hy
    | true =>
      obtain ⟨c, k, rfl⟩ : ∃ c k, a = .call c k := by
        cases a <;> first | exact ⟨_, _, rfl⟩ | cases hcall
      have hcalls : x.ext.calls c k = some y.ext := syncHooks_of_sync hy
      obtain ⟨-, -, hlower⟩ := inner_call busy senders hin hcalls
      have hbase := BaseWorker.rank_call (mem_of_call hown hin h rfl).1 hb
      have hcurrent : y.base.current = x.base.current := by
        rw [(BaseWorker.step_call.mp hb).2]
        rfl
      unfold rank
      rw [hcurrent]
      omega

theorem rankedBut (hown : {.run, .reader, .writer, .destructor} ⊆ busy) :
    RankedBut (TCPClient_V2 C).system Inner back 1 (Leaving busy senders)
      fun x => rank busy senders x.base x.ext where
  keeps _ _ _ hx hin h := hx.step hown hin h
  lowers _ _ _ hx hin hback h := (hx.rank_lt hown hin h).2 hback
  raises _ _ _ hx hin _ h := (hx.rank_lt hown hin h).1

end Run

end TcpClient

end ThreadComponent
