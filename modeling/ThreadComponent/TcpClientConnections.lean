import ThreadComponent.History
import ThreadComponent.TcpClientOrder
import ThreadComponent.TcpClientSystemCalls

/-!
# The connections of TCPClient_V2

A client that is started again connects anew. What `send` accepts is for the connection of
the run that it is accepted in; behind that run the connection is left as it is.
-/

set_option autoImplicit false
set_option linter.unusedSectionVars false

namespace ThreadComponent

open Transitions System

namespace TcpClient
variable {C : Type} [DecidableEq C] {s t : BaseWorker (ClientCaller C)} {o o' : TcpClient C}

/-- The buffers that `send` has accepted for each connection, in the order of the queue. What
it has accepted before the run has a descriptor belongs to the one that it opens. -/
def noteAccepted (s : Object (ClientCaller C) (TcpClient C)) :
    ObjectAction (ClientCaller C) (ClientAction C) → (Nat → List Buffer) → Nat → List Buffer
  | .own (.openSocket true), accepted =>
    Function.update accepted s.ext.socket.opened s.ext.accepted
  | .own (.sendPush c), accepted =>
    match s.ext.runSocket, s.ext.sender c with
    | some fd, .push data => Function.update accepted fd (accepted fd ++ [data])
    | _, _ => accepted
  | _, accepted => accepted

variable (C) in
/-- TCPClient_V2 with what it has accepted for each of its connections. -/
def connections : System (Object (ClientCaller C) (TcpClient C) × (Nat → List Buffer))
    (ObjectAction (ClientCaller C) (ClientAction C)) :=
  (TCPClient_V2 C).system.withHistory (fun _ => []) noteAccepted

/-- The run has opened a descriptor and not connected it yet. -/
def Dialing (o : TcpClient C) : Prop := o.hook = .storeSocket ∨ o.hook = .connect

/-! ## What a step does to the descriptors and buffers of runs -/

theorem runSocket_of_own {a : ClientAction C} (h : own s o a = some o') :
    (a ≠ .openSocket true ∧ o'.runSocket = o.runSocket) ∨
      (a = .openSocket true ∧ o'.runSocket = some o.socket.opened) := by
  obtain ⟨-, h | h | h | h | h | h⟩ := own_cases h
  · cases workerStep_of_worker h with
    | openSocket => exact .inr ⟨rfl, rfl⟩
    | runNotify =>
      refine .inl ⟨by simp, ?_⟩
      rcases notify_cases o with hsame | ⟨-, hsame⟩
      · rw [hsame]
        rfl
      · rw [hsame]
        rfl
    | _ => exact .inl ⟨by simp, rfl⟩
  · left
    cases a <;> simp only [readLoop] at h <;> grind -linarith
  · left
    cases a <;> simp only [writeLoop, writerLoad, writerSend] at h <;> grind -linarith
  · left
    cases a <;> simp only [stopTriggered, clearOutboundQueue, notify] at h <;>
      grind -linarith [setStop]
  · left
    cases a <;> simp only [send, notify] at h <;> grind -linarith [setSender]
  · left
    cases a <;> simp only [destroy, clearOutboundQueue] at h <;> grind -linarith

theorem sent_of_own {a : ClientAction C} (h : own s o a = some o') :
    o'.sent = o.sent ∨ ∃ payload total fd, o.writer = .send payload total fd ∧
      ∃ bytes, o'.sent = Function.update o.sent fd (o.sent fd ++ bytes) := by
  obtain ⟨-, h | h | h | h | h | h⟩ := own_cases h
  · exact .inl (worker_same h).2.2
  · left
    cases a <;> simp only [readLoop] at h <;> grind -linarith
  · cases a with
    | writerSend r =>
      simp only [writeLoop] at h
      split at h
      · rename_i payload total fd hpc
        cases r with
        | sent n =>
          simp only [writerSend, Option.ite_none_right_eq_some, Option.some.injEq] at h
          obtain ⟨-, rfl⟩ := h
          exact .inr ⟨payload, total, fd, hpc, _, rfl⟩
        | interrupted =>
          obtain rfl := Option.some.inj h
          exact .inl rfl
        | failed =>
          obtain rfl := Option.some.inj h
          exact .inl rfl
      · cases h
    | _ =>
      left
      simp only [writeLoop, writerLoad] at h
      grind -linarith
  · left
    cases a <;> simp only [stopTriggered, clearOutboundQueue, notify] at h <;>
      grind -linarith [setStop]
  · left
    cases a <;> simp only [send, notify] at h <;> grind -linarith [setSender]
  · left
    cases a <;> simp only [destroy, clearOutboundQueue] at h <;> grind -linarith

theorem accepted_of_own {a : ClientAction C} (h : own s o a = some o') :
    (o'.accepted = o.accepted ∧ ∀ c, a ≠ .sendPush c) ∨
      ∃ c data, a = .sendPush c ∧ o.sender c = .push data ∧
        o'.accepted = o.accepted ++ [data] := by
  obtain ⟨-, h | h | h | h | h | h⟩ := own_cases h
  · left
    cases workerStep_of_worker h with
    | runNotify =>
      refine ⟨?_, by simp⟩
      rcases notify_cases o with hsame | ⟨-, hsame⟩
      · rw [hsame]
        rfl
      · rw [hsame]
        rfl
    | _ => exact ⟨rfl, by simp⟩
  · left
    cases a <;> simp only [readLoop] at h <;> grind -linarith
  · left
    cases a <;> simp only [writeLoop, writerLoad, writerSend] at h <;> grind -linarith
  · left
    cases a <;> simp only [stopTriggered, clearOutboundQueue, notify] at h <;>
      grind -linarith [setStop]
  · cases a <;> simp only [send, notify] at h <;> grind -linarith [setSender]
  · left
    cases a <;> simp only [destroy, clearOutboundQueue] at h <;> grind -linarith

/-- The worker leaves what was sent alone, and a launch forgets the run before it. -/
theorem sync_same {a : BaseAction (ClientCaller C)} (h : sync s a o = some o') :
    o'.sent = o.sent ∧ o'.socket = o.socket ∧
      (o'.runSocket = none ∨ (o'.runSocket = o.runSocket ∧ o'.accepted = o.accepted)) := by
  have h := syncHooks_of_sync h
  cases a with
  | call c k =>
    simp only [syncHooks] at h
    cases c <;> simp only [calls] at h <;> grind -linarith [setHook]
  | _ =>
    simp only [syncHooks] at h
    grind -linarith [setHook, setStop, launch]

theorem dialing_of_own {a : ClientAction C} (h : own s o a = some o') (hd : Dialing o') :
    a = .openSocket true ∨ (Dialing o ∧ ∀ ok, a ≠ .connect ok) := by
  unfold Dialing at hd ⊢
  obtain ⟨-, h | h | h | h | h | h⟩ := own_cases h
  · cases workerStep_of_worker h with
    | openSocket => exact .inl rfl
    | storeSocket hhook => exact .inr ⟨.inl hhook, by simp⟩
    | @connect ok hhook => cases ok <;> rcases hd with hd | hd <;> cases hd
    | writerNotCreated hhook => rcases hd with hd | hd <;> rw [hhook] at hd <;> cases hd
    | _ => rcases hd with hd | hd <;> cases hd
  · rw [(readLoop_same h).2.1] at hd
    exact .inr ⟨hd, by rintro ok rfl; cases h⟩
  · rw [(writeLoop_same h).2.1] at hd
    exact .inr ⟨hd, by rintro ok rfl; cases h⟩
  · right
    cases a <;> simp only [stopTriggered, clearOutboundQueue, notify] at h <;>
      grind -linarith [setStop]
  · rw [(send_same h).2.1] at hd
    exact .inr ⟨hd, by rintro ok rfl; cases h⟩
  · right
    cases a <;> simp only [destroy, clearOutboundQueue] at h <;> grind -linarith

theorem dialing_of_sync {a : BaseAction (ClientCaller C)} (h : sync s a o = some o')
    (hd : Dialing o') : Dialing o := by
  have h := syncHooks_of_sync h
  unfold Dialing at hd ⊢
  cases a with
  | call c k =>
    simp only [syncHooks] at h
    cases c <;> simp only [calls] at h <;> grind -linarith [setHook]
  | _ =>
    simp only [syncHooks] at h
    grind -linarith [setHook, setStop, launch]

theorem opened_of_own {a : ClientAction C} (h : own s o a = some o') :
    o.socket.opened ≤ o'.socket.opened := by
  obtain ⟨-, h | h | h | h | h | h⟩ := own_cases h
  · cases workerStep_of_worker h with
    | runNotify =>
      exact Nat.le_of_eq (congrArg TcpSocket.opened (notify_same o).1.symm)
    | openSocket => exact Nat.le_succ _
    | close => simp
    | _ => exact Nat.le_refl _
  · exact Nat.le_of_eq (congrArg TcpSocket.opened (readLoop_same h).1.symm)
  · exact Nat.le_of_eq (congrArg TcpSocket.opened (writeLoop_same h).1.symm)
  · apply Nat.le_of_eq
    cases a <;> simp only [stopTriggered, clearOutboundQueue, notify] at h <;>
      grind -linarith [setStop, TcpSocket.exchange, TcpSocket.close_opened]
  · exact Nat.le_of_eq (congrArg TcpSocket.opened (send_same h).1.symm)
  · apply Nat.le_of_eq
    cases a <;> simp only [destroy, clearOutboundQueue] at h <;>
      grind -linarith [TcpSocket.exchange, TcpSocket.close_opened]

section Step
variable {x y : Object (ClientCaller C) (TcpClient C)}
variable {a : ObjectAction (ClientCaller C) (ClientAction C)} {fd : Nat}

theorem opened_of_step (h : (TCPClient_V2 C).step x a = some y) :
    x.ext.socket.opened ≤ y.ext.socket.opened := by
  cases a with
  | base a =>
    obtain ⟨-, hsocket, -⟩ := sync_same (Derived.step_base.mp h).2
    exact Nat.le_of_eq (congrArg TcpSocket.opened hsocket.symm)
  | own a => exact opened_of_own (Derived.step_own.mp h).2

/-- What was sent is not taken back. -/
theorem sent_of_step (h : (TCPClient_V2 C).step x a = some y) (fd : Nat) :
    x.ext.sent fd <+: y.ext.sent fd := by
  cases a with
  | base a =>
    have hsame := (sync_same (Derived.step_base.mp h).2).1
    exact hsame ▸ List.prefix_refl _
  | own a =>
    rcases sent_of_own (Derived.step_own.mp h).2 with hsame | ⟨_, _, g, -, bytes, hsent⟩
    · exact hsame ▸ List.prefix_refl _
    · rw [hsent]
      by_cases hg : fd = g
      · subst hg
        rw [Function.update_self]
        exact List.prefix_append _ _
      · exact (Function.update_of_ne hg _ _).symm ▸ List.prefix_refl _

/-- The descriptor that is being connected is a new one, or the one of the step before. -/
theorem dialing_of_step (h : (TCPClient_V2 C).step x a = some y) (hd : Dialing y.ext)
    (hrun : y.ext.runSocket = some fd) :
    x.ext.socket.opened ≤ fd ∨
      (Dialing x.ext ∧ x.ext.runSocket = some fd ∧ ∀ ok, a ≠ .own (.connect ok)) := by
  cases a with
  | base a =>
    have hy := (Derived.step_base.mp h).2
    rcases (sync_same hy).2.2 with hnone | ⟨hsame, -⟩
    · rw [hnone] at hrun
      cases hrun
    · exact .inr ⟨dialing_of_sync hy hd, hsame ▸ hrun, by simp⟩
  | own a =>
    have hy := (Derived.step_own.mp h).2
    rcases runSocket_of_own hy with ⟨hopen, hsame⟩ | ⟨-, hnew⟩
    · rcases dialing_of_own hy hd with hopens | ⟨hbefore, hconnect⟩
      · exact absurd hopens hopen
      · exact .inr ⟨hbefore, hsame ▸ hrun, fun ok he => hconnect ok (ObjectAction.own.inj he)⟩
    · rw [hnew] at hrun
      obtain rfl := Option.some.inj hrun
      exact .inl (Nat.le_refl _)

end Step

/-! ## What was sent on every connection -/

/-- Every connection has been given a prefix of what was accepted for it. -/
structure Recorded (o : TcpClient C) (accepted : Nat → List Buffer) : Prop where
  latest : ∀ fd, o.runSocket = some fd → accepted fd = o.accepted
  sent : ∀ fd, o.sent fd <+: (accepted fd).flatten

/-- The wire of the latest run is as `Ordered` says; the connections before it are left alone. -/
theorem Recorded.of_step {accepted accepted' : Nat → List Buffer} (hx : Recorded o accepted)
    (hordered : Ordered t o')
    (hlatest : ∀ fd, o'.runSocket = some fd → accepted' fd = o'.accepted)
    (hothers : ∀ fd, o'.runSocket ≠ some fd →
      o'.sent fd = o.sent fd ∧ accepted' fd = accepted fd) : Recorded o' accepted' where
  latest := hlatest
  sent fd := by
    by_cases hrun : o'.runSocket = some fd
    · have hprefix := hordered.emitted.prefix_accepted
      rw [hlatest fd hrun]
      simpa [wire, hrun] using hprefix
    · obtain ⟨hsent, haccepted⟩ := hothers fd hrun
      rw [hsent, haccepted]
      exact hx.sent fd

theorem noteAccepted_same {a : ClientAction C} {accepted : Nat → List Buffer} {s : BaseWorker _}
    (hopen : a ≠ .openSocket true) (hpush : ∀ c, a ≠ .sendPush c) :
    noteAccepted ⟨s, o⟩ (.own a) accepted = accepted := by
  unfold noteAccepted
  split <;> simp_all

theorem Recorded.own {a : ClientAction C} {accepted : Nat → List Buffer}
    (hx : Recorded o accepted) (hordered : Ordered s o) (hordered' : Ordered s o')
    (h : own s o a = some o') : Recorded o' (noteAccepted ⟨s, o⟩ (.own a) accepted) := by
  have hsent : ∀ fd, o'.runSocket ≠ some fd → o'.runSocket = o.runSocket →
      o'.sent fd = o.sent fd := by
    intro fd hfd hrun
    rcases sent_of_own h with hsame | ⟨payload, total, g, hpc, bytes, hsent⟩
    · rw [hsame]
    · have hem := hordered.emitted
      rw [hpc] at hem
      rw [hsent]
      apply Function.update_of_ne
      rintro rfl
      exact hfd (hrun.trans hem.2)
  rcases runSocket_of_own h with ⟨hopen, hrun⟩ | ⟨rfl, hrun⟩
  · rcases accepted_of_own h with ⟨haccepted, hpush⟩ | ⟨c, data, rfl, hpc, haccepted⟩
    · rw [noteAccepted_same hopen hpush]
      refine hx.of_step hordered' (fun fd hfd => ?_) fun fd hfd => ⟨hsent fd hfd hrun, rfl⟩
      rw [haccepted]
      exact hx.latest fd (hrun ▸ hfd)
    · refine hx.of_step hordered' (fun fd hfd => ?_) fun fd hfd => ⟨hsent fd hfd hrun, ?_⟩
      · rw [hrun] at hfd
        simp only [noteAccepted, hfd, hpc, Function.update_self]
        rw [haccepted, hx.latest fd hfd]
      · rw [hrun] at hfd
        simp only [noteAccepted, hpc]
        cases hold : o.runSocket with
        | none => rfl
        | some g =>
          apply Function.update_of_ne
          rintro rfl
          exact hfd hold
  · -- a new connection, on which nothing was sent yet
    have haccepted : o'.accepted = o.accepted := by
      rcases accepted_of_own h with ⟨hsame, -⟩ | ⟨c, data, hpush, -⟩
      · exact hsame
      · cases hpush
    have hall : o'.sent = o.sent := by
      rcases sent_of_own h with hsame | ⟨payload, total, g, hpc, -⟩
      · exact hsame
      · obtain ⟨-, h | h | h | h | h | h⟩ := own_cases h
        · exact (worker_same h).2.2
        all_goals cases h
    refine hx.of_step hordered' (fun fd hfd => ?_) fun fd hfd => ⟨by rw [hall], ?_⟩
    · rw [hrun] at hfd
      obtain rfl := Option.some.inj hfd
      simp only [noteAccepted, Function.update_self]
      exact haccepted.symm
    · apply Function.update_of_ne
      rintro rfl
      exact hfd hrun

theorem Recorded.sync {a : BaseAction (ClientCaller C)} {accepted : Nat → List Buffer}
    (hx : Recorded o accepted) (hordered : Ordered t o') (h : sync s a o = some o') :
    Recorded o' accepted := by
  obtain ⟨hsent, -, hrun⟩ := sync_same h
  refine hx.of_step hordered (fun fd hfd => ?_) fun fd _ => ⟨by rw [hsent], rfl⟩
  rcases hrun with hnone | ⟨hsame, haccepted⟩
  · rw [hnone] at hfd
    cases hfd
  · rw [haccepted]
    exact hx.latest fd (hsame ▸ hfd)

theorem recorded_of_reachable {x : Object (ClientCaller C) (TcpClient C) × (Nat → List Buffer)}
    (hr : (connections C).ReachableBy (Present ClearsHarmlessly) x) : Recorded x.1.ext x.2 := by
  refine ReachableBy.related (R := fun s accepted => Recorded s.ext accepted) ?_ ?_ hr
  · exact ⟨fun _ h => (by cases h), fun _ => List.prefix_refl _⟩
  · intro s a t accepted hr hx hok hs
    have hordered := ordered_of_reachable hr
    have hordered' := ordered_of_reachable (hr.step hok hs)
    cases a with
    | base a => exact hx.sync hordered' (Derived.step_base.mp hs).2
    | own a =>
      obtain ⟨hb, hy⟩ := Derived.step_own.mp hs
      rw [hb] at hordered'
      exact hx.own hordered hordered' hy

end TcpClient

end ThreadComponent
