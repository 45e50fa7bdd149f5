import ThreadComponent.TcpServerSessions

/-!
# The handlers of TCPServer_V2 and the accepted descriptors

A handler runs for a descriptor that was accepted and given a session, and only its own steps and
`startClientSession` change its place.
-/

set_option autoImplicit false
set_option linter.unusedSectionVars false

namespace ThreadComponent

open Transitions System

namespace TcpServer
variable {C : Type} [DecidableEq C] {s t : BaseWorker (TcpServerCaller C)} {o o' : TcpServer C}

theorem handler_destroyAll {nodes : List Nat} (d : Nat) :
    ((o.destroyAll nodes).session d).handler = (o.session d).handler := by
  simp only [destroyAll]
  split <;> rfl

/-- No handler runs for a descriptor that is still to be accepted, or to be given a session. -/
structure Unstarted (o : TcpServer C) : Prop where
  fresh : ∀ d, o.clients.accepted ≤ d → (o.session d).handler = .absent
  starting : o.hook.starting = true → ∀ d, o.clients.place .accepted = some d →
    d < o.clients.accepted ∧ (o.session d).handler = .absent

theorem Unstarted.of_same (hx : Unstarted o)
    (hsession : ∀ d, (o.session d).handler = .absent → (o'.session d).handler = .absent)
    (haccepted : SameAccepted o o') : Unstarted o' where
  fresh d hd := hsession d (hx.fresh d (haccepted.1 ▸ hd))
  starting hs d hd := by
    obtain ⟨hold, hplace⟩ := haccepted.2 hs
    obtain ⟨hlt, habsent⟩ := hx.starting hold d (hplace ▸ hd)
    exact ⟨haccepted.1 ▸ hlt, hsession d habsent⟩

theorem joinLoop_handler {a : TcpServerAction C} (h : o.joinLoop a = some o') :
    (∀ d, (o'.session d).handler = (o.session d).handler) ∧ SameAccepted o o' := by
  cases loopStep_of_joinLoop h with
  | exchange hj =>
    exact ⟨fun _ => rfl, rfl, fun hs => ⟨hs, ClientSockets.move_place_ne (by simp) (by simp)⟩⟩
  | close hj =>
    exact ⟨fun _ => rfl, ClientSockets.close_accepted,
      fun hs => ⟨hs, ClientSockets.close_place_ne (by simp)⟩⟩
  | @join j joined todo i hj hexited =>
    refine ⟨fun d => ?_, .of_eq ⟨rfl, rfl⟩⟩
    change (Function.update o.session i { o.session i with worker := false } d).handler = _
    by_cases hd : d = i
    · subst hd
      rw [Function.update_self]
    · rw [Function.update_of_ne hd]

theorem destroy_handler {a : TcpServerAction C} (h : destroy s o a = some o') :
    (∀ d, (o'.session d).handler = (o.session d).handler) ∧ SameAccepted o o' := by
  cases a with
  | destructorJoined =>
    simp only [TcpServer.destroy, Option.ite_none_right_eq_some, Option.some.injEq] at h
    obtain ⟨-, rfl⟩ := h
    exact ⟨handler_destroyAll, .of_eq ⟨rfl, rfl⟩⟩
  | _ =>
    have hframe : o'.session = o.session ∧ o'.clients = o.clients ∧ o'.hook = o.hook := by
      simp only [TcpServer.destroy] at h
      grind -linarith [spliceAll, setLoop]
    obtain ⟨hsession, hsame⟩ := hframe
    exact ⟨fun d => by rw [hsession], .of_eq hsame⟩

theorem sync_handler {a : BaseAction (TcpServerCaller C)} (h : sync s a o = some o') :
    (∀ d, (o'.session d).handler = (o.session d).handler) ∧ SameAccepted o o' := by
  have h := syncHooks_of_sync h
  cases a with
  | call c k =>
    simp only [syncHooks] at h
    cases c with
    | user c =>
      simp only [TcpServer.calls, Option.ite_none_right_eq_some, Option.some.injEq] at h
      obtain ⟨-, rfl⟩ := h
      exact ⟨fun _ => rfl, .of_eq ⟨rfl, rfl⟩⟩
    | run =>
      simp only [TcpServer.calls, Option.ite_none_right_eq_some, Option.some.injEq] at h
      obtain ⟨-, rfl⟩ := h
      exact ⟨fun _ => rfl, rfl, fun hs => by cases hs⟩
    | destructor =>
      simp only [TcpServer.calls] at h
      split at h
      · simp only [Option.ite_none_right_eq_some, Option.some.injEq] at h
        obtain ⟨-, rfl⟩ := h
        exact ⟨fun _ => rfl, .of_eq ⟨rfl, rfl⟩⟩
      · simp only [Option.ite_none_right_eq_some, Option.some.injEq] at h
        obtain ⟨-, rfl⟩ := h
        exact ⟨handler_destroyAll, .of_eq ⟨rfl, rfl⟩⟩
      · cases h
  | _ =>
    have hframe : o'.session = o.session ∧ o'.clients = o.clients ∧
        (o'.hook = o.hook ∨ o'.hook.starting = false) := by
      simp only [syncHooks] at h
      grind -linarith [setHook, setStop, TcpServerHook.starting]
    obtain ⟨hsession, hclients, hhook⟩ := hframe
    refine ⟨fun d => by rw [hsession], by rw [hclients], fun hs => ?_⟩
    rcases hhook with hsame | hnone
    · exact ⟨hsame ▸ hs, by rw [hclients]⟩
    · rw [hnone] at hs
      cases hs

theorem Unstarted.run {a : TcpServerAction C} (hx : Unstarted o) (h : run s o a = some o') :
    Unstarted o' := by
  cases runStep_of_run h with
  | move hmove =>
    refine hx.of_same (fun _ => id) ⟨rfl, fun hs => ?_⟩
    rw [show (o.setHook _).hook.starting = false from hmove.not_starting] at hs
    cases hs
  | reapCompletedClients | joinAndClearAllClients | makeClientInfoThrows | exchangeServer |
    closeServer =>
    exact hx.of_same (fun _ => id) ⟨rfl, fun hs => by cases hs⟩
  | reaped | joined =>
    exact hx.of_same (fun d hd => (handler_destroyAll d).trans hd) ⟨rfl, fun hs => by cases hs⟩
  | accepted =>
    refine ⟨fun d hd => hx.fresh d (Nat.le_of_succ_le hd), fun _ d hd => ?_⟩
    obtain rfl : o.clients.accepted = d := by
      simpa [ClientSockets.accept_place] using hd
    exact ⟨Nat.lt_succ_self _, hx.fresh _ (Nat.le_refl _)⟩
  | makeClientInfo hhook =>
    exact hx.of_same (fun _ => id) ⟨rfl, fun _ => ⟨by rw [hhook]; rfl, rfl⟩⟩
  | @startClientSession r i hhook hi =>
    obtain ⟨hlt, -⟩ := hx.starting (by rw [hhook]; rfl) i hi
    have hsession : ∀ x d, o.clients.accepted ≤ d →
        (Function.update o.session i x d).handler = .absent := by
      intro x d hd
      rw [Function.update_of_ne (by omega)]
      exact hx.fresh d hd
    cases r with
    | notAdded => exact hx.of_same (fun _ => id) ⟨rfl, fun hs => by cases hs⟩
    | created => exact ⟨hsession _, fun hs => by cases hs⟩
    | notCreated => exact ⟨hsession _, fun hs => by cases hs⟩
  | closeSocketValue =>
    exact hx.of_same (fun _ => id) ⟨ClientSockets.close_accepted, fun hs => by cases hs⟩

theorem Unstarted.own {a : TcpServerAction C} (hx : Unstarted o) (h : own s o a = some o') :
    Unstarted o' := by
  obtain ⟨-, h | h | h | h | h | h⟩ := own_cases h
  · exact hx.of_same (fun d => by rw [(preRun_same h).session]; exact id) (preRun_accepted h)
  · exact hx.run h
  · obtain ⟨hsession, haccepted⟩ := joinLoop_handler h
    exact hx.of_same (fun d => by rw [hsession]; exact id) haccepted
  · obtain ⟨i, x, hsession, hrunning, -, -, -, -, -, haccepted⟩ := handleClient_effect h
    refine hx.of_same (fun d hd => ?_) haccepted
    have hdi : d ≠ i := by
      rintro rfl
      rw [hd] at hrunning
      cases hrunning
    rwa [hsession, Function.update_of_ne hdi]
  · exact hx.of_same (fun d => by rw [(stopTriggered_same h).1.session]; exact id)
      (stopTriggered_accepted h)
  · obtain ⟨hsession, haccepted⟩ := destroy_handler h
    exact hx.of_same (fun d => by rw [hsession]; exact id) haccepted

theorem unstarted_of_reachable {ok : Object (TcpServerCaller C) (TcpServer C) →
    ObjectAction (TcpServerCaller C) (TcpServerAction C) → Prop}
    {s : Object (TcpServerCaller C) (TcpServer C)}
    (hr : (TCPServer_V2 C).system.ReachableBy ok s) : Unstarted s.ext := by
  refine ReachableBy.invariant (P := fun s => Unstarted s.ext) ?_ ?_ hr
  · exact ⟨fun _ _ => rfl, fun h => by cases h⟩
  · intro s a t _ hx _ hs
    cases a with
    | base a =>
      obtain ⟨hsession, haccepted⟩ := sync_handler (Derived.step_base.mp hs).2
      exact hx.of_same (fun d => by rw [hsession]; exact id) haccepted
    | own a => exact hx.own (Derived.step_own.mp hs).2

end TcpServer

end ThreadComponent
