import ThreadComponent.TcpClientHooks

/-!
# The outbound queue of TCPClient_V2

What the writer hands to the kernel is the buffers it takes from the queue, in order and
without gaps. They are the buffers that `send` has accepted in the order in which it has
queued them, as long as the queue is not cleared under a run that goes on: `preRun` clears
it when `send` already accepts, and so does a stop hook that comes too late for its run.
-/

set_option autoImplicit false
set_option linter.unusedSectionVars false

namespace ThreadComponent

open Transitions System

theorem prefix_flatten_take {α : Type} (l : List (List α)) (n : Nat) :
    (l.take n).flatten <+: l.flatten := by
  refine ⟨(l.drop n).flatten, ?_⟩
  rw [← List.flatten_append, List.take_append_drop]

def WriterPc.working : WriterPc → Bool
  | .absent | .exited => false
  | _ => true

/-- The writer is in its loop, with no payload in hand. -/
def WriterPc.emptyHanded : WriterPc → Bool
  | .continueRunning | .lock | .evaluate | .sleep | .asleep | .testStop | .pop => true
  | _ => false

def WriterPc.sending : WriterPc → Bool
  | .load _ _ | .send _ _ _ => true
  | _ => false

theorem WriterPc.working_of_emptyHanded {p : WriterPc} (h : p.emptyHanded = true) :
    p.working = true := by
  cases p <;> first | rfl | cases h

/-- The part of `run` in which there is a writer thread. -/
def ClientHook.writing : ClientHook → Bool
  | .joinReader | .requestStop | .stopping | .notify | .joinWriter => true
  | _ => false

namespace TcpClient
variable {C : Type} [DecidableEq C] {s : BaseWorker (ClientCaller C)} {o o' : TcpClient C}

def early : RunnerPc → ClientHook → Bool
  | .entry, _ | .preRun, _ | .checkStop, _ | .setRunning, _ => true
  | .run, .createReader | .run, .createWriter => true
  | _, _ => false

/-- After `preRun` has cleared the queue, until the run is over. -/
def cleared : RunnerPc → ClientHook → Bool
  | .preRun, .clearQueue => false
  | .preRun, _ | .checkStop, _ | .setRunning, _ | .run, _ => true
  | _, _ => false

/-- After `preRun` has stored its socket, until the run is over. -/
def stored : RunnerPc → ClientHook → Bool
  | .preRun, .connect | .preRun, .preRunDone (.value true) => true
  | .checkStop, _ | .setRunning, _ | .run, _ => true
  | _, _ => false

/-- What the kernel was given on the socket of the latest run. -/
def wire (o : TcpClient C) : Buffer :=
  match o.runSocket with
  | some fd => o.sent fd
  | none => []

/-- `totalSent` bytes of `payload`, the last buffer taken, are on the wire behind all the
buffers before it. -/
def InFlight (o : TcpClient C) (payload : Buffer) (totalSent : Nat) : Prop :=
  ∃ before, o.accepted.take o.popped = before ++ [payload] ∧ totalSent ≤ payload.length ∧
    o.wire = before.flatten ++ payload.take totalSent

/-- What is on the wire when the writer stands at `p`. -/
def Emitted (o : TcpClient C) : WriterPc → Prop
  | .load payload totalSent => o.InFlight payload totalSent
  | .send payload totalSent fd => o.InFlight payload totalSent ∧ o.runSocket = some fd
  | .continueRunning | .lock | .evaluate | .sleep | .asleep | .testStop | .pop =>
    o.wire = (o.accepted.take o.popped).flatten
  | .absent | .requestStop | .stopping | .exited => o.wire <+: o.accepted.flatten

structure Ordered (s : BaseWorker (ClientCaller C)) (o : TcpClient C) : Prop where
  working : o.writer.working = true → s.current = .run ∧ o.hook.writing = true
  fresh : ∀ fd, o.socket.opened ≤ fd → o.sent fd = []
  known : ∀ fd, o.runSocket = some fd → fd < o.socket.opened
  storing : o.hook = .storeSocket → o.socket.hand .worker = o.runSocket
  stored : stored s.current o.hook = true →
    o.socket.descriptor = none ∨ o.socket.descriptor = o.runSocket
  early : early s.current o.hook = true → o.popped = 0 ∧ o.wire = []
  count : o.popped ≤ o.accepted.length
  queue : cleared s.current o.hook = true → s.stopRequested = false →
    o.mOutboundQueue = o.accepted.drop o.popped
  pop : o.writer = .pop → o.mOutboundQueue = o.accepted.drop o.popped
  emitted : o.Emitted o.writer

/-! ## The wire -/

theorem InFlight.prefix_accepted {payload : Buffer} {n : Nat} (h : o.InFlight payload n) :
    o.wire <+: o.accepted.flatten := by
  obtain ⟨before, htake, -, hwire⟩ := h
  have hall : (before ++ [payload]).flatten <+: o.accepted.flatten :=
    htake ▸ prefix_flatten_take _ _
  refine List.IsPrefix.trans ?_ hall
  rw [hwire, List.flatten_append, List.flatten_singleton]
  exact (List.prefix_append_right_inj _).mpr (List.take_prefix _ _)

theorem Emitted.prefix_accepted {p : WriterPc} (h : o.Emitted p) :
    o.wire <+: o.accepted.flatten := by
  cases p with
  | load payload n => exact InFlight.prefix_accepted h
  | send payload n fd => exact InFlight.prefix_accepted h.1
  | absent => exact h
  | requestStop => exact h
  | stopping => exact h
  | exited => exact h
  | _ => exact h ▸ prefix_flatten_take _ _

theorem Emitted.wire {p : WriterPc} (h : o.Emitted p) (hp : p.emptyHanded = true) :
    o.wire = (o.accepted.take o.popped).flatten := by
  cases p <;> first | exact h | cases hp

theorem emitted_of_wire {p : WriterPc} (h : o.wire = (o.accepted.take o.popped).flatten)
    (hp : p.sending = false) : o.Emitted p := by
  cases p with
  | load | send => cases hp
  | absent | requestStop | stopping | exited =>
    show o.wire <+: o.accepted.flatten
    rw [h]
    exact prefix_flatten_take _ _
  | _ => exact h

theorem InFlight.finish {payload : Buffer} {n : Nat} (h : o.InFlight payload n)
    (hn : payload.length ≤ n) : o.wire = (o.accepted.take o.popped).flatten := by
  obtain ⟨before, htake, -, hwire⟩ := h
  rw [htake, hwire, List.take_of_length_le hn]
  simp

/-! ## The writer -/

theorem early_of_writing {hook : ClientHook} (h : hook.writing = true) :
    TcpClient.early .run hook = false := by
  cases hook <;> simp_all [ClientHook.writing, TcpClient.early]

theorem Ordered.not_early (hx : Ordered s o) (hw : o.writer.working = true) :
    TcpClient.early s.current o.hook = false := by
  obtain ⟨hrun, hwriting⟩ := hx.working hw
  rw [hrun]
  exact early_of_writing hwriting

/-- The writer goes on without touching the queue or the wire. -/
theorem Ordered.moveWriter {p : WriterPc} (hx : Ordered s o) (hw : o.writer.working = true)
    (hp : p = .pop → o.mOutboundQueue = o.accepted.drop o.popped) (hem : o.Emitted p) :
    Ordered s { o with writer := p } :=
  { hx with
    working := fun _ => hx.working hw
    pop := hp
    emitted := hem }

theorem Ordered.moveEmptyHanded {p : WriterPc} (hx : Ordered s o)
    (hw : o.writer.emptyHanded = true) (hsending : p.sending = false)
    (hp : p = .pop → o.mOutboundQueue = o.accepted.drop o.popped) :
    Ordered s { o with writer := p } :=
  hx.moveWriter (WriterPc.working_of_emptyHanded hw) hp
    (emitted_of_wire (hx.emitted.wire hw) hsending)

theorem Ordered.popQueue {payload : Buffer} {queue : List Buffer} (hx : Ordered s o)
    (hpop : o.writer = .pop) (hqueue : o.mOutboundQueue = payload :: queue) :
    Ordered s { o with
      mOutboundQueue := queue, popped := o.popped + 1, writer := .load payload 0 } := by
  have hw : o.writer.working = true := by rw [hpop]; rfl
  have hdrop : o.accepted.drop o.popped = payload :: queue := (hx.pop hpop).symm.trans hqueue
  have hlt : o.popped < o.accepted.length := by
    by_contra hge
    rw [List.drop_eq_nil_of_le (Nat.le_of_not_lt hge)] at hdrop
    cases hdrop
  have hget : o.accepted[o.popped]? = some payload := by
    rw [← List.head?_drop, hdrop]
    rfl
  have hrest : queue = o.accepted.drop (o.popped + 1) := by
    rw [← List.tail_drop, hdrop]
    rfl
  have hwire : o.wire = (o.accepted.take o.popped).flatten := by
    simpa [hpop, Emitted] using hx.emitted
  exact
    { hx with
      working := fun _ => hx.working hw
      early := fun he => by simp [hx.not_early hw] at he
      count := hlt
      queue := fun _ _ => hrest
      pop := fun hp => by cases hp
      emitted := ⟨o.accepted.take o.popped, by rw [List.take_add_one, hget]; rfl,
        Nat.zero_le _, by rw [List.take_zero, List.append_nil]; exact hwire⟩ }

theorem Ordered.sendSome {payload : Buffer} {total fd n : Nat} (hx : Ordered s o)
    (hsend : o.writer = .send payload total fd) (hn : total + n ≤ payload.length) :
    Ordered s { o with
      sent := Function.update o.sent fd (o.sent fd ++ (payload.drop total).take n)
      writer := .load payload (total + n) } := by
  have hw : o.writer.working = true := by rw [hsend]; rfl
  have hem := hx.emitted
  rw [hsend] at hem
  obtain ⟨⟨before, htake, -, hwire⟩, hrun⟩ := hem
  have hsent : o.sent fd = before.flatten ++ payload.take total := by
    simpa [wire, hrun] using hwire
  refine
    { hx with
      working := fun _ => hx.working hw
      fresh := fun g hg => ?_
      early := fun he => by simp [hx.not_early hw] at he
      pop := fun hp => by cases hp
      emitted := ⟨before, htake, hn, ?_⟩ }
  · have hne : g ≠ fd := by
      rintro rfl
      exact absurd (hx.known _ hrun) (Nat.not_lt_of_le hg)
    simpa [Function.update_of_ne hne] using hx.fresh g hg
  · simp only [wire, hrun, Function.update_self, hsent, List.append_assoc]
    rw [← List.take_add]

/-- With the flag clear nobody has emptied the queue since `preRun` did. -/
theorem Ordered.queue_of_clear (hx : Ordered s o) (hw : o.writer.working = true)
    (hflag : s.stopRequested = false) : o.mOutboundQueue = o.accepted.drop o.popped := by
  refine hx.queue ?_ hflag
  rw [(hx.working hw).1]
  rfl

theorem Ordered.writerLoad {payload : Buffer} {total : Nat} (hx : Ordered s o)
    (hpc : o.writer = .load payload total) : Ordered s (o.writerLoad payload total) := by
  have hw : o.writer.working = true := by rw [hpc]; rfl
  have hem : o.InFlight payload total := by simpa [hpc, Emitted] using hx.emitted
  unfold TcpClient.writerLoad
  split
  · rename_i hdone
    exact hx.moveWriter hw (fun hp => by cases hp) (hem.finish hdone)
  · split
    · rename_i fd hfd
      refine hx.moveWriter hw (fun hp => by cases hp) ⟨hem, ?_⟩
      rcases hx.stored (by rw [(hx.working hw).1]; rfl) with hnone | hsame
      · rw [hfd] at hnone
        cases hnone
      · exact hsame.symm.trans hfd
    · exact hx.moveWriter hw (fun hp => by cases hp) hem.prefix_accepted

theorem Ordered.writerSend {payload : Buffer} {total fd : Nat} {r : SendResult}
    (hx : Ordered s o) (hpc : o.writer = .send payload total fd)
    (h : o.writerSend payload total fd r = some o') : Ordered s o' := by
  have hw : o.writer.working = true := by rw [hpc]; rfl
  have hem : o.InFlight payload total := by
    have hall := hx.emitted
    rw [hpc] at hall
    exact hall.1
  cases r with
  | sent n =>
    simp only [TcpClient.writerSend, Option.ite_none_right_eq_some, Option.some.injEq] at h
    obtain ⟨hn, rfl⟩ := h
    exact hx.sendSome hpc hn.2
  | interrupted =>
    obtain rfl := Option.some.inj h
    exact hx.moveWriter hw (fun hp => by cases hp) hem
  | failed =>
    obtain rfl := Option.some.inj h
    exact hx.moveWriter hw (fun hp => by cases hp) hem.prefix_accepted

theorem Ordered.writeLoop {a : ClientAction C} (hx : Ordered s o)
    (h : writeLoop s o a = some o') : Ordered s o' := by
  cases a with
  | writerContinueRunning | writerEvaluate =>
    simp only [TcpClient.writeLoop, Option.ite_none_right_eq_some, Option.some.injEq] at h
    obtain ⟨hpc, rfl⟩ := h
    refine hx.moveEmptyHanded (by rw [hpc]; rfl) ?_ ?_ <;> split <;> simp [WriterPc.sending]
  | writerLock | writerSleep | writerWake =>
    simp only [TcpClient.writeLoop, Option.ite_none_right_eq_some, Option.some.injEq] at h
    obtain ⟨hpc, rfl⟩ := h
    exact hx.moveEmptyHanded (by rw [hpc]; rfl) rfl fun hp => by cases hp
  | writerTestStop =>
    simp only [TcpClient.writeLoop, Option.ite_none_right_eq_some, Option.some.injEq] at h
    obtain ⟨hpc, rfl⟩ := h
    cases hflag : s.stopRequested with
    | true => exact hx.moveEmptyHanded (by rw [hpc]; rfl) rfl fun hp => by cases hp
    | false =>
      refine hx.moveEmptyHanded (by rw [hpc]; rfl) rfl fun _ => ?_
      exact hx.queue_of_clear (by rw [hpc]; rfl) hflag
  | writerPop =>
    simp only [TcpClient.writeLoop] at h
    split at h
    · rename_i hpc hqueue
      obtain rfl := Option.some.inj h
      exact hx.popQueue hpc hqueue
    · cases h
  | writerLoad =>
    simp only [TcpClient.writeLoop] at h
    split at h
    · rename_i payload total hpc
      obtain rfl := Option.some.inj h
      exact hx.writerLoad hpc
    · cases h
  | writerSend r =>
    simp only [TcpClient.writeLoop] at h
    split at h
    · rename_i payload total fd hpc
      exact hx.writerSend hpc h
    · cases h
  | writerStopped =>
    simp only [TcpClient.writeLoop] at h
    split at h
    · rename_i hpc _
      obtain rfl := Option.some.inj h
      exact hx.moveWriter (by rw [hpc]; rfl) (fun hp => by cases hp)
        (by simpa [hpc, Emitted] using hx.emitted)
    · cases h
  | _ => cases h

/-! ## The other threads -/

theorem Ordered.exchange {k : Closer (ClientCaller C)} (hx : Ordered s o) (hk : k ≠ .worker) :
    Ordered s { o with socket := o.socket.exchange k } :=
  { hx with
    storing := fun hh => by simpa [Ne.symm hk] using hx.storing hh
    stored := fun _ => .inl rfl }

theorem Ordered.closeSocket {k : Closer (ClientCaller C)} (hx : Ordered s o)
    (hk : k ≠ .worker) : Ordered s { o with socket := o.socket.close k } :=
  { hx with
    fresh := by simpa using hx.fresh
    known := by simpa using hx.known
    storing := fun hh => by simpa [Ne.symm hk] using hx.storing hh
    stored := fun hs => by simpa using hx.stored hs }

theorem Ordered.notify (hx : Ordered s o) : Ordered s o.notify := by
  unfold TcpClient.notify
  split
  · rename_i hpc
    exact hx.moveWriter (by rw [hpc]; rfl) (fun hp => by cases hp)
      (by simpa [hpc, Emitted] using hx.emitted)
  · exact hx

/-- A call of `clearOutboundQueue` that takes no accepted buffer from a run that goes on. -/
def Harmless (s : BaseWorker (ClientCaller C)) (o : TcpClient C) : Prop :=
  s.mState = .stopped ∨ s.stopRequested = true ∨ o.accepted.length ≤ o.popped

theorem live_of_cleared {p : RunnerPc} {hook : ClientHook} (h : cleared p hook = true) :
    p.live := by
  cases p <;> simp_all [cleared, RunnerPc.live]

theorem ne_pop_of_free {p : WriterPc} (h : p.holdsMutex = false) : p ≠ .pop := by
  rintro rfl
  cases h

theorem Ordered.clearQueue (hx : Ordered s o) (hi : BaseWorker.SingleBody s)
    (hok : Harmless s o) (hmutex : o.writer.holdsMutex = false) :
    Ordered s { o with mOutboundQueue := [] } :=
  { hx with
    queue := fun hc hflag => by
      rcases hok with hstate | hset | hdrained
      · exact absurd (live_of_cleared hc) (BaseWorker.current_not_live hi hstate)
      · rw [hflag] at hset
        cases hset
      · exact (List.drop_eq_nil_of_le hdrained).symm
    pop := fun hp => absurd hp (ne_pop_of_free hmutex) }

/-- The buffer is accepted and queued in one section of the mutex. -/
theorem Ordered.push {data : Buffer} (hx : Ordered s o) (hmutex : o.writer.holdsMutex = false) :
    Ordered s { o with
      mOutboundQueue := o.mOutboundQueue ++ [data], accepted := o.accepted ++ [data] } := by
  have htake : (o.accepted ++ [data]).take o.popped = o.accepted.take o.popped :=
    List.take_append_of_le_length hx.count
  have hgrows : o.accepted.flatten <+: (o.accepted ++ [data]).flatten := by
    rw [List.flatten_append]
    exact List.prefix_append _ _
  exact
    { hx with
      count := by simpa using Nat.le_succ_of_le hx.count
      queue := fun hc hflag => by
        rw [hx.queue hc hflag, List.drop_append_of_le_length hx.count]
      pop := fun hp => absurd hp (ne_pop_of_free hmutex)
      emitted := by
        have hem := hx.emitted
        revert hem
        cases o.writer with
        | load payload n => exact fun ⟨b, hb, h⟩ => ⟨b, htake.trans hb, h⟩
        | send payload n fd => exact fun ⟨⟨b, hb, h⟩, hr⟩ => ⟨⟨b, htake.trans hb, h⟩, hr⟩
        | absent => exact fun h => h.trans hgrows
        | requestStop => exact fun h => h.trans hgrows
        | stopping => exact fun h => h.trans hgrows
        | exited => exact fun h => h.trans hgrows
        | _ => exact fun h => h.trans (congrArg List.flatten htake.symm) }

/-! ## The worker's thread -/

theorem Ordered.moveHook {hook : ClientHook} (hx : Ordered s o)
    (hwriting : o.hook.writing = true → o.writer.working = true → hook.writing = true)
    (hstoring : hook ≠ .storeSocket)
    (hstored : TcpClient.stored s.current hook = true → TcpClient.stored s.current o.hook = true)
    (hearly : TcpClient.early s.current hook = true → TcpClient.early s.current o.hook = true)
    (hcleared : cleared s.current hook = true → cleared s.current o.hook = true) :
    Ordered s { o with hook := hook } :=
  { hx with
    working := fun hw => ⟨(hx.working hw).1, hwriting (hx.working hw).2 hw⟩
    storing := fun hh => absurd hh hstoring
    stored := fun hs => hx.stored (hstored hs)
    early := fun he => hx.early (hearly he)
    queue := fun hc => hx.queue (hcleared hc) }

theorem Ordered.idle_writer (hx : Ordered s o) (hp : s.current = .preRun) :
    o.writer.working = false := by
  cases hw : o.writer.working with
  | false => rfl
  | true =>
    have hrun := (hx.working hw).1
    rw [hp] at hrun
    cases hrun

theorem ne_pop_of_idle {p : WriterPc} (h : p.working = false) : p ≠ .pop := by
  rintro rfl
  cases h

theorem emitted_of_nil (hw : o.writer.working = false) (hwire : o.wire = []) :
    o.Emitted o.writer := by
  cases hpc : o.writer <;> simp_all [WriterPc.working, Emitted]

theorem Ordered.clearInPreRun (hx : Ordered s o) (hi : BaseWorker.SingleBody s)
    (hp : s.current = .preRun) (hok : Harmless s o) :
    Ordered s { o with mOutboundQueue := [], hook := .openSocket } := by
  have hidle := hx.idle_writer hp
  exact
    { hx with
      working := fun hw => by simp [hidle] at hw
      storing := fun hh => by cases hh
      stored := fun hs => by simp [hp, TcpClient.stored] at hs
      early := fun _ => hx.early (by rw [hp]; rfl)
      queue := fun _ hflag => by
        rcases hok with hstate | hset | hdrained
        · exact absurd (by rw [hp]; decide) (BaseWorker.current_not_live hi hstate)
        · rw [hflag] at hset
          cases hset
        · exact (List.drop_eq_nil_of_le hdrained).symm
      pop := fun hpop => absurd hpop (ne_pop_of_idle hidle) }

theorem Ordered.openSocket (hx : Ordered s o) (hp : s.current = .preRun)
    (hhook : o.hook = .openSocket) :
    Ordered s { o with
      socket := o.socket.openSocket .worker
      runSocket := some o.socket.opened
      hook := .storeSocket } := by
  have hidle := hx.idle_writer hp
  have hnil : o.sent o.socket.opened = [] := hx.fresh _ (Nat.le_refl _)
  exact
    { working := fun hw => by simp [hidle] at hw
      fresh := fun fd hfd => hx.fresh fd (Nat.le_of_succ_le hfd)
      known := fun fd hfd => by
        obtain rfl : o.socket.opened = fd := by simpa using hfd
        exact Nat.lt_succ_self _
      storing := fun _ => TcpSocket.openSocket_hand_self
      stored := fun hs => by simp [hp, TcpClient.stored] at hs
      early := fun _ => ⟨(hx.early (by rw [hp]; rfl)).1, hnil⟩
      count := hx.count
      queue := fun _ => hx.queue (by rw [hp, hhook]; rfl)
      pop := fun hpop => absurd hpop (ne_pop_of_idle hidle)
      emitted := emitted_of_nil (o := { o with
        socket := o.socket.openSocket .worker
        runSocket := some o.socket.opened
        hook := .storeSocket }) hidle hnil }

theorem Ordered.storeSocket (hx : Ordered s o) (hp : s.current = .preRun)
    (hhook : o.hook = .storeSocket) :
    Ordered s { o with socket := o.socket.store .worker, hook := .connect } := by
  have hidle := hx.idle_writer hp
  exact
    { hx with
      working := fun hw => by simp [hidle] at hw
      storing := fun hh => by cases hh
      stored := fun _ => .inr (hx.storing hhook)
      early := fun _ => hx.early (by rw [hp]; rfl)
      queue := fun _ => hx.queue (by rw [hp, hhook]; rfl) }

theorem Ordered.giveUp {hook : ClientHook} (hx : Ordered s o)
    (socket : TcpSocket (ClientCaller C)) (hp : s.current = .preRun)
    (hcleared : cleared .preRun o.hook = true)
    (hopened : socket.opened = o.socket.opened)
    (hhook : hook = .close ∨ hook = .preRunDone (.value false)) :
    Ordered s { o with socket := socket, hook := hook } := by
  have hidle := hx.idle_writer hp
  exact
    { hx with
      working := fun hw => by simp [hidle] at hw
      fresh := by simpa [hopened] using hx.fresh
      known := by simpa [hopened] using hx.known
      storing := fun hh => by rcases hhook with rfl | rfl <;> cases hh
      stored := fun hs => by rcases hhook with rfl | rfl <;> simp [hp, TcpClient.stored] at hs
      early := fun _ => hx.early (by rw [hp]; rfl)
      queue := fun _ => hx.queue (by rw [hp]; exact hcleared) }

theorem Ordered.createWriter (hx : Ordered s o) (hp : s.current = .run)
    (hhook : o.hook = .createWriter) :
    Ordered s { o with writer := .continueRunning, hook := .joinReader } := by
  obtain ⟨hzero, hnil⟩ := hx.early (by rw [hp, hhook]; rfl)
  exact
    { hx with
      working := fun _ => ⟨hp, rfl⟩
      storing := fun hh => by cases hh
      stored := fun _ => hx.stored (by rw [hp]; rfl)
      early := fun he => by simp [hp, TcpClient.early] at he
      queue := fun _ => hx.queue (by rw [hp]; rfl)
      pop := fun hpop => by cases hpop
      emitted := by
        change o.wire = (o.accepted.take o.popped).flatten
        rw [hnil, hzero]
        rfl }

theorem Ordered.worker {a : ClientAction C} (hx : Ordered s o) (hi : BaseWorker.SingleBody s)
    (hat : HookAt s.current o.hook) (hok : a = .clearQueue → Harmless s o)
    (h : worker s o a = some o') : Ordered s o' := by
  cases workerStep_of_worker h with
  | clearQueue hhook =>
    exact hx.clearInPreRun hi (hat.of_preRun (by rw [hhook]; rfl)) (hok rfl)
  | openSocket hhook => exact hx.openSocket (hat.of_preRun (by rw [hhook]; rfl)) hhook
  | notOpened hhook =>
    exact hx.giveUp o.socket (hat.of_preRun (by rw [hhook]; rfl)) (by rw [hhook]; rfl) rfl
      (.inr rfl)
  | storeSocket hhook => exact hx.storeSocket (hat.of_preRun (by rw [hhook]; rfl)) hhook
  | @connect ok hhook =>
    have hp := hat.of_preRun (by rw [hhook]; rfl)
    refine hx.moveHook ?_ ?_ ?_ ?_ ?_ <;>
      cases ok <;> simp [hp, hhook, TcpClient.stored, TcpClient.early, cleared, ClientHook.writing]
  | exchange hhook =>
    exact hx.giveUp _ (hat.of_preRun (by rw [hhook]; rfl)) (by rw [hhook]; rfl) rfl (.inl rfl)
  | close hhook =>
    exact hx.giveUp _ (hat.of_preRun (by rw [hhook]; rfl)) (by rw [hhook]; rfl)
      TcpSocket.close_opened (.inr rfl)
  | createReader hhook =>
    have hp := hat.of_run (by rw [hhook]; rfl)
    have hmove : Ordered s { o with hook := .createWriter } := by
      refine hx.moveHook ?_ ?_ ?_ ?_ ?_ <;>
        simp [hp, hhook, TcpClient.stored, TcpClient.early, cleared, ClientHook.writing]
    exact { hmove with }
  | createWriter hhook => exact hx.createWriter (hat.of_run (by rw [hhook]; rfl)) hhook
  | writerNotCreated => exact { hx with }
  | readerNotCreated hhook | joinReader hhook | runStopped hhook =>
    have hp := hat.of_run (by rw [hhook]; rfl)
    refine hx.moveHook ?_ ?_ ?_ ?_ ?_ <;>
      simp [hp, hhook, TcpClient.stored, TcpClient.early, cleared, ClientHook.writing]
  | runNotify hhook =>
    have hp := hat.of_run (by rw [hhook]; rfl)
    have hsame := (notify_same o).2.1
    refine hx.notify.moveHook ?_ ?_ ?_ ?_ ?_ <;>
      simp [hp, hsame, hhook, TcpClient.stored, TcpClient.early, cleared, ClientHook.writing]
  | joinWriter hhook hexited =>
    have hp := hat.of_run (by rw [hhook]; rfl)
    refine hx.moveHook ?_ ?_ ?_ ?_ ?_ <;>
      simp [hp, hhook, hexited, TcpClient.stored, TcpClient.early, cleared,
        ClientHook.writing, WriterPc.working]

theorem Ordered.readLoop {a : ClientAction C} (hx : Ordered s o)
    (h : readLoop s o a = some o') : Ordered s o' := by
  have hsame : ∃ reader, o' = { o with reader := reader } := by
    cases a <;> simp only [TcpClient.readLoop] at h <;> grind -linarith
  obtain ⟨reader, rfl⟩ := hsame
  exact { hx with }

theorem Ordered.setStop {c : ClientCaller C} {p : ClientStop} (hx : Ordered s o) :
    Ordered s (o.setStop c p) :=
  { hx with }

theorem Ordered.stopTriggered {a : ClientAction C} (hx : Ordered s o)
    (hi : BaseWorker.SingleBody s) (hok : ∀ c, a = .stopClear c → Harmless s o)
    (h : o.stopTriggered a = some o') : Ordered s o' := by
  cases a with
  | stopExchange c =>
    simp only [TcpClient.stopTriggered, Option.ite_none_right_eq_some, Option.some.injEq] at h
    obtain ⟨-, rfl⟩ := h
    exact (hx.exchange (by simp)).setStop
  | stopClose c =>
    simp only [TcpClient.stopTriggered, Option.ite_none_right_eq_some, Option.some.injEq] at h
    obtain ⟨-, rfl⟩ := h
    exact (hx.closeSocket (by simp)).setStop
  | stopClear c =>
    simp only [TcpClient.stopTriggered, clearOutboundQueue, Option.ite_none_right_eq_some,
      Option.ite_none_left_eq_some, Option.some.injEq] at h
    obtain ⟨-, hfree, rfl⟩ := h
    exact (hx.clearQueue hi (hok c rfl) (by simpa using hfree)).setStop
  | stopNotify c =>
    simp only [TcpClient.stopTriggered, Option.ite_none_right_eq_some, Option.some.injEq] at h
    obtain ⟨-, rfl⟩ := h
    exact hx.notify.setStop
  | _ => cases h

theorem Ordered.setSender {c : C} {p : SendPc} (hx : Ordered s o) :
    Ordered s (o.setSender c p) :=
  { hx with }

theorem Ordered.send {a : ClientAction C} (hx : Ordered s o) (h : send s o a = some o') :
    Ordered s o' := by
  cases a with
  | send c data =>
    simp only [TcpClient.send, Option.ite_none_right_eq_some, Option.some.injEq] at h
    obtain ⟨-, rfl⟩ := h
    split
    · exact hx
    · exact hx.setSender
  | sendPush c =>
    simp only [TcpClient.send] at h
    split at h
    · split at h
      · cases h
      · rename_i hfree
        obtain rfl := Option.some.inj h
        exact (hx.push (by simpa using hfree)).setSender
    · cases h
  | sendNotify c =>
    simp only [TcpClient.send, Option.ite_none_right_eq_some, Option.some.injEq] at h
    obtain ⟨-, rfl⟩ := h
    exact hx.notify.setSender
  | _ => cases h

theorem Ordered.destroy {a : ClientAction C} (hx : Ordered s o)
    (hi : BaseWorker.SingleBody s) (hok : a = .destructorClear → Harmless s o)
    (h : destroy s o a = some o') : Ordered s o' := by
  cases a with
  | destructorStopped =>
    simp only [TcpClient.destroy] at h
    split at h
    · obtain rfl := Option.some.inj h
      exact { hx with }
    · cases h
  | destructorExchange =>
    simp only [TcpClient.destroy, Option.ite_none_right_eq_some, Option.some.injEq] at h
    obtain ⟨-, rfl⟩ := h
    exact { hx.exchange (k := .destructor) (by simp) with }
  | destructorClose =>
    simp only [TcpClient.destroy, Option.ite_none_right_eq_some, Option.some.injEq] at h
    obtain ⟨-, rfl⟩ := h
    exact { hx.closeSocket (k := .destructor) (by simp) with }
  | destructorClear =>
    simp only [TcpClient.destroy, clearOutboundQueue, Option.ite_none_right_eq_some,
      Option.ite_none_left_eq_some, Option.some.injEq] at h
    obtain ⟨-, hfree, rfl⟩ := h
    exact { hx.clearQueue hi (hok rfl) (by simpa using hfree) with }
  | _ => cases h

end TcpClient

end ThreadComponent
