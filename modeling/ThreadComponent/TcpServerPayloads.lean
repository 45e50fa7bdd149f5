import ThreadComponent.TcpServerHandlers

/-!
# What a client handler of TCPServer_V2 has in hand

A handler receives into a buffer of its own and passes a copy of it to the data callback.
-/

set_option autoImplicit false
set_option linter.unusedSectionVars false

namespace ThreadComponent

open Transitions System

namespace TcpServer
variable {C : Type} [DecidableEq C] {s t : BaseWorker (TcpServerCaller C)} {o o' : TcpServer C}

/-- A handler that has something for the callback keeps it until the callback has been called. -/
theorem callback_of_own {a : TcpServerAction C} {d : Nat} (hx : Unstarted o)
    (h : own s o a = some o') (hd : (o.session d).handler = .callback)
    (ha : ∀ threw, a ≠ .handlerCallback d threw) : (o'.session d).handler = .callback := by
  obtain ⟨-, h | h | h | h | h | h⟩ := own_cases h
  · rw [(preRun_same h).session, hd]
  · cases runStep_of_run h with
    | @startClientSession r i hhook hi =>
      have hdi : d ≠ i := by
        rintro rfl
        have habsent := (hx.starting (by rw [hhook]; rfl) d hi).2
        rw [hd] at habsent
        cases habsent
      cases r with
      | notAdded => exact hd
      | created => exact (congrArg Session.handler (Function.update_of_ne hdi _ _)).trans hd
      | notCreated => exact (congrArg Session.handler (Function.update_of_ne hdi _ _)).trans hd
    | reaped | joined => exact (handler_destroyAll d).trans hd
    | _ => exact hd
  · rw [(joinLoop_handler h).1, hd]
  · have hothers : ∀ i x, d ≠ i → (Function.update o.session i x d).handler = .callback := by
      intro i x hdi
      rw [Function.update_of_ne hdi, hd]
    cases handlerStep_of_handleClient h with
    | @move _ i p hmove =>
      apply hothers
      rintro rfl
      rw [hd] at hmove
      cases hmove
      exact ha _ rfl
    | @exchange i hpc | @close i hpc | @complete i hpc | @returns i hpc =>
      apply hothers
      rintro rfl
      rw [hd] at hpc
      cases hpc
  · rw [(stopTriggered_same h).1.session, hd]
  · rw [(destroy_handler h).1, hd]

/-- No number of a descriptor is used again. -/
theorem accepted_of_own {a : TcpServerAction C} (h : own s o a = some o') :
    o.clients.accepted ≤ o'.clients.accepted := by
  obtain ⟨-, h | h | h | h | h | h⟩ := own_cases h
  · exact Nat.le_of_eq (preRun_accepted h).1.symm
  · cases runStep_of_run h with
    | accepted => exact Nat.le_succ _
    | closeSocketValue => exact Nat.le_of_eq ClientSockets.close_accepted.symm
    | @startClientSession r => cases r <;> exact Nat.le_refl _
    | _ => exact Nat.le_refl _
  · exact Nat.le_of_eq (joinLoop_handler h).2.1.symm
  · obtain ⟨_, _, -, -, -, -, -, -, -, haccepted⟩ := handleClient_effect h
    exact Nat.le_of_eq haccepted.1.symm
  · exact Nat.le_of_eq (stopTriggered_accepted h).1.symm
  · exact Nat.le_of_eq (destroy_handler h).2.1.symm

theorem accepted_of_accept (h : own s o (.accept .accepted) = some o') :
    o'.clients.accepted = o.clients.accepted + 1 := by
  obtain ⟨-, h | h | h | h | h | h⟩ := own_cases h
  · cases h
  · cases runStep_of_run h with
    | move hmove =>
      generalize o.hook = hook at hmove
      cases hmove
    | accepted => rfl
  all_goals cases h

theorem callback_of_recv {d : Nat} (h : own s o (.handlerRecv d .received) = some o') :
    (o'.session d).handler = .callback := by
  obtain ⟨-, h | h | h | h | h | h⟩ := own_cases h
  · cases h
  · cases h
  · cases h
  · cases handlerStep_of_handleClient h with
    | @move _ i p hmove =>
      generalize (o.session i).handler = q at hmove
      cases hmove
      simp [setHandler, setSession]
  all_goals cases h

theorem accepted_of_callback {d : Nat} {threw : Bool}
    (h : own s o (.handlerCallback d threw) = some o') :
    o'.clients.accepted = o.clients.accepted := by
  obtain ⟨-, h | h | h | h | h | h⟩ := own_cases h
  · cases h
  · cases h
  · cases h
  · obtain ⟨_, _, -, -, -, -, -, -, -, haccepted⟩ := handleClient_effect h
    exact haccepted.1
  all_goals cases h

end TcpServer

end ThreadComponent
