import Mathlib.Data.List.Induction
import ThreadComponent.History
import ThreadComponent.StreamSender
import ThreadComponent.SyncConnect
import ThreadComponent.TcpClientHooks

/-!
# The two loops of sendAll

cTCPSyncClient_V2 and TCPClient_V2 have a loop each that sends a whole payload. Both are senders of
the payload: for the same answers of `::send` they hand over the same bytes and end the same way.
The loop of TCPClient_V2 loads its socket before each `::send`, and runs among the other threads.
A `::send` returns: the signal that ends a process on a closed connection is left out.
-/

set_option autoImplicit false
set_option linter.unusedSectionVars false

namespace ThreadComponent

open Transitions System StreamSocket

/-- How a loop goes on behind an answer of `::send`. -/
def SendAnswer.answer : SendAnswer → Answer
  | .sent n => if 0 < n then .took n else .failed
  | .error e => if e = EINTR then .again else .failed

def SendResult.answer : SendResult → Answer
  | .sent n => .took n
  | .interrupted => .again
  | .failed => .failed

/-- What a sender of the payload has handed over behind `before`, and what it has returned. -/
structure Sends (payload before : Buffer) (x : Sender) (sent : Buffer) (result : Option Bool) :
    Prop where
  sent : sent = before ++ payload.take x.taken
  waits : x.Offers payload.length → result = none
  gaveUp : x.gaveUp = true → result = some false
  done : x.gaveUp = false → x.taken = payload.length → result = some true

section Results
variable {payload before before' sent sent' : Buffer} {x : Sender} {result result' : Option Bool}

/-- Senders that have had the same answers have returned the same. -/
theorem Sends.result_eq (h : Sends payload before x sent result)
    (h' : Sends payload before' x sent' result') (hle : x.taken ≤ payload.length) :
    result = result' := by
  by_cases hoffers : x.Offers payload.length
  · rw [h.waits hoffers, h'.waits hoffers]
  · cases hgaveUp : x.gaveUp with
    | true => rw [h.gaveUp hgaveUp, h'.gaveUp hgaveUp]
    | false =>
      have hall : x.taken = payload.length := by
        rcases (Sender.not_offers_iff hle).mp hoffers with hfailed | hall
        · rw [hgaveUp] at hfailed
          cases hfailed
        · exact hall
      rw [h.done hgaveUp hall, h'.done hgaveUp hall]

theorem Sends.true_iff (h : Sends payload before x sent result) (hle : x.taken ≤ payload.length)
    (hgaveUp : x.gaveUp = true → x.taken < payload.length) :
    result = some true ↔ x.taken = payload.length := by
  constructor
  · intro htrue
    by_cases hoffers : x.Offers payload.length
    · have hnone := h.waits hoffers
      rw [htrue] at hnone
      cases hnone
    · rcases (Sender.not_offers_iff hle).mp hoffers with hfailed | hall
      · have hfalse := h.gaveUp hfailed
        rw [htrue] at hfalse
        cases hfalse
      · exact hall
  · intro hall
    cases hfailed : x.gaveUp with
    | true => exact absurd hall (Nat.ne_of_lt (hgaveUp hfailed))
    | false => exact h.done hfailed hall

end Results

theorem append_take_drop (before payload : Buffer) (totalSent n : Nat) :
    before ++ payload.take totalSent ++ (payload.drop totalSent).take n =
      before ++ payload.take (totalSent + n) := by
  rw [List.append_assoc, List.take_add]

/-! ## cTCPSyncClient_V2 -/

namespace SyncHost

/-- The loop of `sendAll` with the answers so far; without a result it is waiting for another. -/
def sendAllSoFar (h : SyncHost) (payload : Buffer) (size totalSent : Nat) :
    List SendAnswer → Option IOResult × SyncHost
  | [] => (if totalSent < size then none else some .success, h)
  | answer :: rest =>
    if totalSent < size then
      match answer with
      | .sent n =>
        if 0 < n then
          (h.recordSent payload totalSent n).sendAllSoFar payload size (totalSent + n) rest
        else (some h.classifySocketError.1, h.classifySocketError.2)
      | .error e =>
        if e = EINTR then
          { h with kernel := h.kernel.answer (.error e) }.sendAllSoFar payload size totalSent rest
        else
          let h := { h with kernel := h.kernel.answer (.error e) }
          (some h.classifySocketError.1, h.classifySocketError.2)
    else (some .success, h)

/-- The call of `sendAll`, behind its checks. -/
def sendAllUntil (h : SyncHost) (payload : Buffer) (answers : List SendAnswer) :
    Option IOResult × SyncHost :=
  h.clearLastError.sendAllSoFar payload payload.length 0 answers

variable {h : SyncHost} {payload : Buffer} {size totalSent : Nat} {answers : List SendAnswer}
  {fd : Nat}

theorem sendAllLoop_eq :
    h.sendAllLoop payload size totalSent answers =
      (h.sendAllSoFar payload size totalSent answers).1.map fun result =>
        (result, (h.sendAllSoFar payload size totalSent answers).2) := by
  induction answers generalizing h totalSent with
  | nil =>
    rw [sendAllLoop, sendAllSoFar]
    split <;> rfl
  | cons answer rest ih =>
    unfold sendAllLoop sendAllSoFar
    by_cases hlt : totalSent < size
    · simp only [if_pos hlt]
      cases answer with
      | sent n =>
        by_cases hn : 0 < n
        · simp only [if_pos hn]
          exact ih
        · simp only [if_neg hn]
          rfl
      | error e =>
        by_cases he : e = EINTR
        · simp only [if_pos he]
          exact ih
        · simp only [if_neg he]
          rfl
    · simp only [if_neg hlt]
      rfl

theorem sendAll_eq (hopen : h.client.mSocket = some fd) :
    h.sendAll (some payload) payload.length answers =
      (h.sendAllUntil payload answers).1.map fun result =>
        (result, (h.sendAllUntil payload answers).2) := by
  have hconnected : h.isConnected = true := by
    rw [isConnected, SyncClient.isConnected, hopen]
    rfl
  rw [sendAll]
  split
  · rename_i hsize
    rw [sendAllUntil, hsize]
    cases answers with
    | nil => rfl
    | cons answer rest => rfl
  · simp only [hconnected, Bool.not_true, Bool.false_eq_true, if_false]
    exact sendAllLoop_eq

theorem recordSent_of_open (hopen : h.client.mSocket = some fd) (payload : Buffer)
    (totalSent n : Nat) :
    (h.recordSent payload totalSent n).client = h.client ∧
      (h.recordSent payload totalSent n).kernel.sent fd =
        h.kernel.sent fd ++ (payload.drop totalSent).take n := by
  unfold recordSent
  rw [hopen]
  exact ⟨rfl, Function.update_self ..⟩

theorem classifySocketError_sent (h : SyncHost) :
    h.classifySocketError.1 ≠ .success ∧ h.classifySocketError.2.kernel = h.kernel := by
  refine ⟨?_, rfl⟩
  change SyncClient.classifySocketError h.kernel.errno ≠ .success
  unfold SyncClient.classifySocketError
  split
  · decide
  · decide

theorem sends_gaveUp {before sent : Buffer} {host : SyncHost} (hsent : sent =
    before ++ payload.take totalSent) :
    Sends payload before ⟨totalSent, true⟩ sent
      ((some host.classifySocketError.1).map fun result => decide (result = .success)) where
  sent := hsent
  waits h := by cases h.going
  gaveUp _ := by
    rw [Option.map_some, decide_eq_false (classifySocketError_sent host).1]
  done h := by cases h

/-- The loop of the client is a sender of the payload. -/
theorem sendAllSoFar_sends {before : Buffer} (hopen : h.client.mSocket = some fd)
    (hsent : h.kernel.sent fd = before ++ payload.take totalSent)
    (hscript : Sender.Script payload.length ⟨totalSent, false⟩ (answers.map SendAnswer.answer)) :
    Sends payload before ((⟨totalSent, false⟩ : Sender).run (answers.map SendAnswer.answer))
      ((h.sendAllSoFar payload payload.length totalSent answers).2.kernel.sent fd)
      ((h.sendAllSoFar payload payload.length totalSent answers).1.map
        fun result => decide (result = .success)) := by
  induction answers generalizing h totalSent with
  | nil =>
    rw [sendAllSoFar]
    by_cases hlt : totalSent < payload.length
    · rw [if_pos hlt]
      exact ⟨hsent, fun _ => rfl, nofun, fun _ hall => absurd hall (Nat.ne_of_lt hlt)⟩
    · rw [if_neg hlt]
      exact ⟨hsent, fun hoffers => absurd hoffers.rest hlt, nofun, fun _ _ => rfl⟩
  | cons answer rest ih =>
    obtain ⟨hoffers, hfits, hrest⟩ := hscript
    have hlt : totalSent < payload.length := hoffers.rest
    unfold sendAllSoFar
    simp only [if_pos hlt]
    cases answer with
    | sent n =>
      by_cases hn : 0 < n
      · have hanswer : (SendAnswer.sent n).answer = .took n := if_pos hn
        obtain ⟨hclient, hrecord⟩ := recordSent_of_open hopen payload totalSent n
        rw [hanswer] at hrest
        simp only [if_pos hn, List.map_cons, hanswer]
        refine ih (by rw [hclient, hopen]) ?_ hrest
        rw [hrecord, hsent, append_take_drop]
      · have hanswer : (SendAnswer.sent n).answer = .failed := if_neg hn
        rw [hanswer] at hrest
        simp only [if_neg hn, List.map_cons, hanswer, hrest.eq_nil rfl]
        exact sends_gaveUp hsent
    | error e =>
      by_cases he : e = EINTR
      · have hanswer : (SendAnswer.error e).answer = .again := if_pos he
        rw [hanswer] at hrest
        simp only [if_pos he, List.map_cons, hanswer]
        exact ih hopen hsent hrest
      · have hanswer : (SendAnswer.error e).answer = .failed := if_neg he
        rw [hanswer] at hrest
        simp only [if_neg he, List.map_cons, hanswer, hrest.eq_nil rfl]
        exact sends_gaveUp hsent

end SyncHost

/-! ## TCPClient_V2 -/

namespace TcpClient
variable {C : Type} [DecidableEq C]

abbrev ClientObject (C : Type) := Object (ClientCaller C) (TcpClient C)

abbrev ClientObjectAction (C : Type) := ObjectAction (ClientCaller C) (ClientAction C)

def noteAnswer (_ : ClientObject C) : ClientObjectAction C → List Answer → List Answer
  | .own (.writerSend r), answers => answers ++ [r.answer]
  | _, answers => answers

variable (C) in
def sendHistory : System (ClientObject C × List Answer) (ClientObjectAction C) :=
  (TCPClient_V2 C).system.withHistory [] noteAnswer

/-- The writer goes on behind its call, or another writer is made. -/
def LeavesSendAll : ClientObjectAction C → Prop
  | .own .writerContinueRunning | .own (.createWriter _) | .base (.call .writer _) => True
  | _ => False

/-- A step during a call of `sendAll`. The socket is not closed meanwhile. -/
structure DuringSendAll (x : ClientObject C × List Answer) (a : ClientObjectAction C) : Prop where
  inCall : ¬ LeavesSendAll a
  socketStays : ∀ y, (TCPClient_V2 C).step x.1 a = some y →
    y.ext.socket.descriptor = x.1.ext.socket.descriptor

def sendAllResult (o : TcpClient C) : Option Bool :=
  match o.writer with
  | .continueRunning => some true
  | .requestStop => some false
  | _ => none

inductive InSendAll (payload : Buffer) (fd : Nat) (x : Sender) : WriterPc → Prop where
  | load (hgaveUp : x.gaveUp = false) : InSendAll payload fd x (.load payload x.taken)
  | send (hoffers : x.Offers payload.length) : InSendAll payload fd x (.send payload x.taken fd)
  | done (hgaveUp : x.gaveUp = false) (hall : x.taken = payload.length) :
    InSendAll payload fd x .continueRunning
  | failed (hgaveUp : x.gaveUp = true) : InSendAll payload fd x .requestStop

/-- A call of `sendAll` that has begun with `before` on the wire. -/
structure Sending (payload before : Buffer) (fd : Nat) (o : TcpClient C) (answers : List Answer) :
    Prop where
  script : ({} : Sender).Script payload.length answers
  socket : o.socket.descriptor = some fd
  sent : o.sent fd = before ++ payload.take (({} : Sender).run answers).taken
  place : InSendAll payload fd (({} : Sender).run answers) o.writer

variable {s : BaseWorker (ClientCaller C)} {o o' : TcpClient C} {payload before : Buffer}
  {fd : Nat} {answers : List Answer}

/-- The other threads do not touch what the call works on. -/
theorem Sending.other (hx : Sending payload before fd o answers)
    (hsocket : o'.socket.descriptor = o.socket.descriptor) (hsent : o'.sent = o.sent)
    (hwriter : o'.writer = o.writer) : Sending payload before fd o' answers where
  script := hx.script
  socket := hsocket.trans hx.socket
  sent := by rw [hsent, hx.sent]
  place := by
    rw [hwriter]
    exact hx.place

theorem Sending.not_asleep (hx : Sending payload before fd o answers) : o.writer ≠ .asleep := by
  intro hasleep
  have hplace := hx.place
  rw [hasleep] at hplace
  cases hplace

/-- The steps of the loop of `sendAll`. -/
def IsLoopStep (a : ClientAction C) : Prop := a = .writerLoad ∨ ∃ r, a = .writerSend r

theorem IsLoopStep.writeLoop {a : ClientAction C} (ha : IsLoopStep a) (h : own s o a = some o') :
    writeLoop s o a = some o' := by
  obtain ⟨-, h⟩ := own_cases h
  rcases ha with rfl | ⟨r, rfl⟩
  all_goals
    rcases h with h | h | h | h | h | h
    · cases h
    · cases h
    · exact h
    · cases h
    · cases h
    · cases h

/-- The loop has come to its condition, and loads the socket if anything is left. -/
theorem Sending.load (hx : Sending payload before fd o answers)
    (h : own s o .writerLoad = some o') : Sending payload before fd o' answers := by
  have h := IsLoopStep.writeLoop (.inl rfl) h
  have hplace := hx.place
  generalize hwriter : o.writer = place at hplace
  simp only [writeLoop, hwriter] at h
  cases hplace with
  | load hgaveUp =>
    obtain rfl := Option.some.inj h
    unfold writerLoad
    split
    · rename_i hall
      have htaken := hx.script.run_taken_le (Nat.zero_le _)
      exact ⟨hx.script, hx.socket, hx.sent, .done hgaveUp (Nat.le_antisymm htaken hall)⟩
    · rename_i hrest
      rw [hx.socket]
      exact ⟨hx.script, hx.socket, hx.sent, .send ⟨hgaveUp, Nat.lt_of_not_le hrest⟩⟩
  | send => cases h
  | done => cases h
  | failed => cases h

theorem Sending.answered (hx : Sending payload before fd o answers) {answer : Answer}
    (hoffers : (({} : Sender).run answers).Offers payload.length)
    (hfits : (({} : Sender).run answers).Fits payload.length answer)
    (hsocket : o'.socket.descriptor = o.socket.descriptor)
    (hsent : o'.sent fd = before ++ payload.take
      ((({} : Sender).run answers).receive answer).taken)
    (hplace : InSendAll payload fd ((({} : Sender).run answers).receive answer) o'.writer) :
    Sending payload before fd o' (answers ++ [answer]) where
  script := Sender.Script.append_iff.mpr ⟨hx.script, hoffers, hfits⟩
  socket := hsocket.trans hx.socket
  sent := by rw [hsent, Sender.run_append]
  place := by
    rw [Sender.run_append]
    exact hplace

/-- One `::send`, with what it answers. -/
theorem Sending.send {r : SendResult} (hx : Sending payload before fd o answers)
    (h : own s o (.writerSend r) = some o') :
    Sending payload before fd o' (answers ++ [r.answer]) := by
  have h := IsLoopStep.writeLoop (.inr ⟨r, rfl⟩) h
  have hplace := hx.place
  generalize hwriter : o.writer = place at hplace
  simp only [writeLoop, hwriter] at h
  cases hplace with
  | send hoffers =>
    cases r with
    | sent n =>
      simp only [writerSend, Option.ite_none_right_eq_some, Option.some.injEq] at h
      obtain ⟨hfits, rfl⟩ := h
      refine hx.answered hoffers hfits rfl ?_ (.load hoffers.going)
      simp only [Function.update_self, hx.sent, append_take_drop]
      rfl
    | interrupted =>
      obtain rfl := Option.some.inj h
      exact hx.answered hoffers trivial rfl hx.sent (.load hoffers.going)
    | failed =>
      obtain rfl := Option.some.inj h
      exact hx.answered hoffers trivial rfl hx.sent (.failed rfl)
  | load => cases h
  | done => cases h
  | failed => cases h

theorem sync_of_other {a : BaseAction (ClientCaller C)}
    (hleaves : ¬ LeavesSendAll (.base a : ClientObjectAction C)) (h : sync s a o = some o') :
    o'.sent = o.sent ∧ o'.writer = o.writer := by
  have h := syncHooks_of_sync h
  cases a with
  | call c k =>
    cases c <;> simp only [syncHooks, calls, LeavesSendAll, not_true_eq_false] at h hleaves <;>
      grind -linarith [setHook]
  | _ =>
    simp only [syncHooks] at h
    grind -linarith [setHook, setStop, launch]

theorem own_of_other {a : ClientAction C} (hasleep : o.writer ≠ .asleep)
    (hwriter : writeLoop s o a ≠ some o')
    (hleaves : ¬ LeavesSendAll (.own a : ClientObjectAction C)) (h : own s o a = some o') :
    o'.sent = o.sent ∧ o'.writer = o.writer := by
  obtain ⟨-, h | h | h | h | h | h⟩ := own_cases h
  · refine ⟨(worker_same h).2.2, ?_⟩
    rcases worker_writer h with hsame | ⟨rfl, -⟩ | ⟨hold, -⟩
    · exact hsame
    · exact absurd trivial hleaves
    · exact absurd hold hasleep
  · cases a <;> simp only [readLoop] at h <;> grind -linarith
  · exact absurd h hwriter
  · cases a <;> simp only [TcpClient.stopTriggered, clearOutboundQueue, notify] at h <;>
      grind -linarith [setStop]
  · cases a <;> simp only [TcpClient.send, notify] at h <;> grind -linarith [setSender]
  · cases a <;> simp only [destroy, clearOutboundQueue] at h <;> grind -linarith

/-- In a call the writer takes the steps of its loop only. -/
theorem Sending.writeLoop_cases {a : ClientAction C} (hx : Sending payload before fd o answers)
    (h : writeLoop s o a = some o') :
    a = .writerLoad ∨ (∃ r, a = .writerSend r) ∨ a = .writerContinueRunning := by
  have hplace := hx.place
  generalize hwriter : o.writer = place at hplace
  cases a <;> simp only [writeLoop, hwriter] at h <;> cases hplace <;> simp_all

theorem noteAnswer_of_other {a : ClientAction C} {x : ClientObject C}
    (hsend : ∀ r, a ≠ .writerSend r) : noteAnswer x (.own a) answers = answers := by
  cases a <;> first | rfl | exact absurd rfl (hsend _)

theorem Sending.step {x y : ClientObject C × List Answer} {a : ClientObjectAction C}
    (hx : Sending payload before fd x.1.ext x.2) (hok : DuringSendAll x a)
    (hs : (sendHistory C).step x a = some y) : Sending payload before fd y.1.ext y.2 := by
  obtain ⟨hy, hanswers⟩ := step_withHistory.mp hs
  have hsocket := hok.socketStays _ hy
  rw [hanswers]
  cases a with
  | base a =>
    obtain ⟨hsent, hwriter⟩ := sync_of_other hok.inCall (Derived.step_base.mp hy).2
    exact hx.other hsocket hsent hwriter
  | own a =>
    have hown := (Derived.step_own.mp hy).2
    by_cases hloop : writeLoop x.1.base x.1.ext a = some y.1.ext
    · rcases hx.writeLoop_cases hloop with rfl | ⟨r, rfl⟩ | rfl
      · exact hx.load hown
      · exact hx.send hown
      · exact absurd trivial hok.inCall
    · obtain ⟨hsent, hwriter⟩ := own_of_other hx.not_asleep hloop hok.inCall hown
      rw [noteAnswer_of_other fun r hr => ?_]
      · exact hx.other hsocket hsent hwriter
      · subst hr
        exact hloop (IsLoopStep.writeLoop (.inr ⟨r, rfl⟩) hown)

theorem Sending.of_reaches {x y : ClientObject C × List Answer}
    (hx : Sending payload before fd x.1.ext x.2)
    (hr : (sendHistory C).Reaches DuringSendAll x y) : Sending payload before fd y.1.ext y.2 :=
  Reaches.keeps (P := fun y => Sending payload before fd y.1.ext y.2)
    (fun _ _ _ hx hok hs => hx.step hok hs) hr hx

/-! ### The answers that a call may have -/

/-- The writer is not on its way to its next `::send`. -/
def Settled (o : TcpClient C) : Prop := ∀ payload totalSent, o.writer ≠ .load payload totalSent

theorem duringSendAll_of_loop {x : ClientObject C × List Answer} {a : ClientAction C}
    (hx : Sending payload before fd x.1.ext x.2) (ha : IsLoopStep a) :
    DuringSendAll x (.own a) where
  inCall := by
    rcases ha with rfl | ⟨r, rfl⟩
    · exact id
    · exact id
  socketStays y hy := by
    have hown := (Derived.step_own.mp hy).2
    rcases ha with rfl | ⟨r, rfl⟩
    · rw [(hx.load hown).socket, hx.socket]
    · rw [(hx.send hown).socket, hx.socket]

theorem own_writerLoad {totalSent : Nat} (hlive : o.terminated = false)
    (hwriter : o.writer = .load payload totalSent) :
    own s o .writerLoad = some (o.writerLoad payload totalSent) := by
  simp only [own, hlive, Bool.false_eq_true, if_false, worker, readLoop, writeLoop, hwriter]
  rfl

theorem own_writerSend {totalSent : Nat} (hlive : o.terminated = false)
    (hwriter : o.writer = .send payload totalSent fd) {r : SendResult}
    (h : o.writerSend payload totalSent fd r = some o') :
    own s o (.writerSend r) = some o' := by
  simp only [own, hlive, Bool.false_eq_true, if_false, worker, readLoop, writeLoop, hwriter, h]
  rfl

theorem writerLoad_settled (o : TcpClient C) (payload : Buffer) (totalSent : Nat) :
    (o.writerLoad payload totalSent).terminated = o.terminated ∧
      Settled (o.writerLoad payload totalSent) := by
  unfold writerLoad
  split
  · exact ⟨rfl, by simp [Settled]⟩
  · split
    · exact ⟨rfl, by simp [Settled]⟩
    · exact ⟨rfl, by simp [Settled]⟩

theorem exists_writerSend {x : Sender} {answer : Answer} (o : TcpClient C) (fd : Nat)
    (hfits : x.Fits payload.length answer) :
    ∃ r o', r.answer = answer ∧ o.writerSend payload x.taken fd r = some o' ∧
      o'.terminated = o.terminated := by
  cases answer with
  | took n => exact ⟨.sent n, _, rfl, if_pos hfits, rfl⟩
  | again => exact ⟨.interrupted, _, rfl, rfl, rfl⟩
  | failed => exact ⟨.failed, _, rfl, rfl, rfl⟩

theorem Sending.reaches_own {x : ClientObject C × List Answer} {a : ClientAction C}
    (hx : Sending payload before fd x.1.ext x.2) (ha : IsLoopStep a)
    (h : own x.1.base x.1.ext a = some o') :
    (sendHistory C).Reaches DuringSendAll x
      (⟨x.1.base, o'⟩, noteAnswer x.1 (.own a) x.2) := by
  refine .single (duringSendAll_of_loop hx ha) (step_withHistory.mpr ⟨?_, rfl⟩)
  exact Derived.step_own.mpr ⟨rfl, h⟩

theorem Sending.reaches_settled {x : ClientObject C × List Answer}
    (hx : Sending payload before fd x.1.ext x.2) (hlive : x.1.ext.terminated = false) :
    ∃ y, (sendHistory C).Reaches DuringSendAll x y ∧ y.2 = x.2 ∧
      y.1.ext.terminated = false ∧ Settled y.1.ext := by
  have hplace := hx.place
  generalize hwriter : x.1.ext.writer = place at hplace
  cases hplace with
  | load hgaveUp =>
    obtain ⟨hterminated, hsettled⟩ := writerLoad_settled x.1.ext payload
      (({} : Sender).run x.2).taken
    exact ⟨_, hx.reaches_own (.inl rfl) (own_writerLoad hlive hwriter), rfl,
      hterminated.trans hlive, hsettled⟩
  | send | done | failed =>
    refine ⟨x, .refl x, rfl, hlive, fun payload totalSent hload => ?_⟩
    rw [hwriter] at hload
    cases hload

/-- Where the call offers something to `::send`, it may be answered in any way that fits. -/
theorem Sending.reaches_answer {x : ClientObject C × List Answer} {answer : Answer}
    (hx : Sending payload before fd x.1.ext x.2) (hlive : x.1.ext.terminated = false)
    (hsettled : Settled x.1.ext) (hoffers : (({} : Sender).run x.2).Offers payload.length)
    (hfits : (({} : Sender).run x.2).Fits payload.length answer) :
    ∃ y, (sendHistory C).Reaches DuringSendAll x y ∧ y.2 = x.2 ++ [answer] ∧
      y.1.ext.terminated = false := by
  have hplace := hx.place
  generalize hwriter : x.1.ext.writer = place at hplace
  cases hplace with
  | send =>
    obtain ⟨r, o', rfl, ho', hterminated⟩ := exists_writerSend x.1.ext fd hfits
    exact ⟨_, hx.reaches_own (.inr ⟨r, rfl⟩) (own_writerSend hlive hwriter ho'), rfl,
      hterminated.trans hlive⟩
  | load => exact absurd hwriter (hsettled _ _)
  | done hgaveUp hall => exact absurd hoffers.rest (by omega)
  | failed hgaveUp =>
    rw [hoffers.going] at hgaveUp
    cases hgaveUp

theorem Sending.reaches_script {x : ClientObject C × List Answer}
    (hx : Sending payload before fd x.1.ext x.2) (hlive : x.1.ext.terminated = false)
    (hbegin : x.2 = []) (hscript : ({} : Sender).Script payload.length answers) :
    ∃ y, (sendHistory C).Reaches DuringSendAll x y ∧ y.2 = answers ∧
      y.1.ext.terminated = false ∧ Settled y.1.ext := by
  induction answers using List.reverseRecOn with
  | nil =>
    obtain ⟨y, hr, hy, hrest⟩ := hx.reaches_settled hlive
    exact ⟨y, hr, hy.trans hbegin, hrest⟩
  | append_singleton answers answer ih =>
    obtain ⟨hinit, hoffers, hfits⟩ := Sender.Script.append_iff.mp hscript
    obtain ⟨y, hy, rfl, hylive, hsettled⟩ := ih hinit
    have hysends := hx.of_reaches hy
    obtain ⟨z, hz, hanswers, hzlive⟩ := hysends.reaches_answer hylive hsettled hoffers hfits
    obtain ⟨w, hw, hsame, hwrest⟩ := (hysends.of_reaches hz).reaches_settled hzlive
    exact ⟨w, (hy.trans hz).trans hw, hsame.trans hanswers, hwrest⟩

/-- The loop of the writer is a sender of the payload. -/
theorem Sending.sends (hx : Sending payload before fd o answers) (hsettled : Settled o) :
    Sends payload before (({} : Sender).run answers) (o.sent fd) (sendAllResult o) := by
  have hplace := hx.place
  unfold sendAllResult
  generalize hwriter : o.writer = place at hplace
  cases hplace with
  | load => exact absurd hwriter (hsettled _ _)
  | send hoffers =>
    refine ⟨hx.sent, fun _ => rfl, fun hgaveUp => ?_, fun _ hall => ?_⟩
    · rw [hoffers.going] at hgaveUp
      cases hgaveUp
    · exact absurd hoffers.rest (by omega)
  | done hgaveUp hall =>
    refine ⟨hx.sent, fun hoffers => ?_, fun hfailed => ?_, fun _ _ => rfl⟩
    · exact absurd hoffers.rest (by omega)
    · rw [hgaveUp] at hfailed
      cases hfailed
  | failed hgaveUp =>
    refine ⟨hx.sent, fun hoffers => ?_, fun _ => rfl, fun hgoing => ?_⟩
    · rw [hoffers.going] at hgaveUp
      cases hgaveUp
    · rw [hgaveUp] at hgoing
      cases hgoing

/-! ## Both loops -/

/-- For the same answers of `::send`, and whatever the other threads of the client do, both loops
have handed over the same part of the payload, and both have returned, or both are waiting. -/
theorem send_loops_agree {s : ClientObject C} {h : SyncHost} {payload : Buffer} {fd fd' : Nat}
    (hlive : s.ext.terminated = false) (hbegin : s.ext.writer = .load payload 0)
    (hopen : s.ext.socket.descriptor = some fd) (hsync : h.client.mSocket = some fd')
    (answers : List SendAnswer)
    (hscript : ({} : Sender).Script payload.length (answers.map SendAnswer.answer)) :
    let sync := h.sendAllUntil payload answers
    h.sendAll (some payload) payload.length answers =
      sync.1.map (fun result => (result, sync.2)) ∧
    (∃ y, (sendHistory C).Reaches DuringSendAll (s, []) y ∧
      y.2 = answers.map SendAnswer.answer ∧ Settled y.1.ext) ∧
    ∀ y, (sendHistory C).Reaches DuringSendAll (s, []) y →
      y.2 = answers.map SendAnswer.answer →
      ∃ n, n ≤ payload.length ∧
        sync.2.kernel.sent fd' = h.kernel.sent fd' ++ payload.take n ∧
        y.1.ext.sent fd = s.ext.sent fd ++ payload.take n ∧
        (Settled y.1.ext →
          (sendAllResult y.1.ext = none ↔ sync.1 = none) ∧
          (sendAllResult y.1.ext = some true ↔ sync.1 = some .success) ∧
          (sendAllResult y.1.ext = some true ↔ n = payload.length)) := by
  intro sync
  have hbegun : Sending payload (s.ext.sent fd) fd s.ext [] := by
    refine ⟨trivial, hopen, (List.append_nil _).symm, ?_⟩
    rw [hbegin]
    exact .load rfl
  have hnone : h.clearLastError.kernel.sent fd' =
      h.kernel.sent fd' ++ payload.take ({} : Sender).taken := (List.append_nil _).symm
  have hsyncSends := SyncHost.sendAllSoFar_sends (h := h.clearLastError) hsync hnone hscript
  have hle := hscript.run_taken_le (Nat.zero_le _)
  refine ⟨SyncHost.sendAll_eq hsync, ?_, fun y hr hy => ?_⟩
  · obtain ⟨y, hr, hy, -, hsettled⟩ := Sending.reaches_script (x := (s, [])) hbegun hlive rfl
      hscript
    exact ⟨y, hr, hy, hsettled⟩
  · have hsending := Sending.of_reaches (x := (s, [])) hbegun hr
    have hsent := hsending.sent
    rw [hy] at hsent
    refine ⟨_, hle, hsyncSends.sent, hsent, fun hsettled => ?_⟩
    have hsends := hsending.sends hsettled
    rw [hy] at hsends
    have hresult : sendAllResult y.1.ext =
        sync.1.map fun result => decide (result = IOResult.success) :=
      hsends.result_eq hsyncSends hle
    refine ⟨?_, ?_, hsends.true_iff hle (hscript.gaveUp rfl)⟩
    · rw [hresult, Option.map_eq_none_iff]
    · rw [hresult]
      cases sync.1 with
      | none => simp
      | some result => simp

/-- A short `::send`, an interrupted one and one that takes the rest. -/
theorem send_loops_agree_short :
    let s : ClientObject Unit :=
      { base := {}, ext := { writer := .load [1, 2, 3] 0, socket := { descriptor := some 0 } } }
    ∃ y, (sendHistory Unit).Reaches DuringSendAll (s, []) y ∧ y.1.ext.sent 0 = [1, 2, 3] ∧
      sendAllResult y.1.ext = some true := by
  intro s
  have hscript : ({} : Sender).Script 3 [.took 1, .again, .took 2] :=
    ⟨⟨rfl, by decide⟩, ⟨by decide, by decide⟩, ⟨rfl, by decide⟩, trivial, ⟨rfl, by decide⟩,
      ⟨by decide, by decide⟩, trivial⟩
  obtain ⟨-, ⟨y, hr, hy, hsettled⟩, hagree⟩ := send_loops_agree (s := s)
    (h := { client := { mSocket := some 0 } }) rfl rfl rfl rfl
    [.sent 1, .error EINTR, .sent 2] hscript
  obtain ⟨n, -, -, hsent, hresult⟩ := hagree y hr hy
  obtain ⟨-, hsuccess, hall⟩ := hresult hsettled
  have htrue := hsuccess.mpr rfl
  rw [hall.mp htrue] at hsent
  exact ⟨y, hr, hsent, htrue⟩

end TcpClient

end ThreadComponent
