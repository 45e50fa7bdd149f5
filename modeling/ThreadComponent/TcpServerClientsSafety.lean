import ThreadComponent.TcpServerClients
import ThreadComponent.TcpServerSocket

/-!
# TCPServer_V2 closes every client once

All steps keep the accounts, but for two: a session whose thread cannot be created closes
its copy of the descriptor, which the accept loop then closes again, and an exception out of
`makeClientInfo` loses the descriptor.
-/

set_option autoImplicit false
set_option linter.unusedSectionVars false

namespace ThreadComponent

open Transitions System

namespace TcpServer
variable {C : Type} [DecidableEq C] {s t : BaseWorker (TcpServerCaller C)} {o o' : TcpServer C}

/-! ## Handlers -/

/-- A running handler goes on; only its session's places may change. -/
theorem Kept.handle {i : Nat} {p : HandlerPc} {clients : ClientSockets (TcpServerCaller C)}
    (hx : Kept o) (completed : Bool) (hlive : (o.session i).handler.running = true)
    (haccounts : clients.Accounts)
    (haccepted : clients.accepted = o.clients.accepted)
    (hplace : ∀ q, q ≠ .session i → q ≠ .handler i → clients.place q = o.clients.place q)
    (hsession : p.holds = false → clients.place (.session i) = none)
    (hhandler : p ≠ .close → clients.place (.handler i) = none) :
    Kept ({ o with clients := clients }.setSession i
      { o.session i with handler := p, completed := completed }) := by
  exact
    { hx with
      accounts := haccounts
      accepted := fun hh => (hplace _ (by simp) (by simp)).trans (hx.accepted hh)
      fresh := fun d hd => by
        have hold := hx.fresh d (by
          simpa [setSession, haccepted, hplace .accepted (by simp) (by simp)] using hd)
        have hdi : d ≠ i := by
          rintro rfl
          rw [hold] at hlive
          cases hlive
        simpa [setSession, hdi] using hold
      session := fun d hd => by
        by_cases hdi : d = i
        · subst hdi
          exact hsession (by simpa [setSession] using hd)
        · have hold := hx.session d (by simpa [setSession, hdi] using hd)
          exact (hplace _ (by simpa using hdi) (by simp)).trans hold
      handler := fun d hd => by
        by_cases hdi : d = i
        · subst hdi
          exact hhandler (by simpa [setSession] using hd)
        · have hold := hx.handler d (by simpa [setSession, hdi] using hd)
          exact (hplace _ (by simp) (by simpa using hdi)).trans hold
      running := fun d hd => by
        by_cases hdi : d = i
        · subst hdi
          exact hx.running d hlive
        · exact hx.running d (by simpa [setSession, hdi] using hd)
      worker := fun d hd => by
        by_cases hdi : d = i
        · subst hdi
          have hold := hx.worker d (by simpa [setSession] using hd)
          rw [hlive] at hold
          cases hold
        · have hold := hx.worker d (by simpa [setSession, hdi] using hd)
          simpa [setSession, hdi] using hold
      joiner := fun j hj => (hplace _ (by simp) (by simp)).trans (hx.joiner j hj)
      stopper := fun c hc => (hplace _ (by simp) (by simp)).trans (hx.stopper c hc) }

/-- A step of a handler between its entry and its exchange. -/
theorem Kept.setHandler {i : Nat} {p : HandlerPc} (hx : Kept o)
    (hlive : (o.session i).handler.running = true) (hold : (o.session i).handler ≠ .close)
    (hp : p.holds = true) : Kept (o.setHandler i p) :=
  hx.handle (o.session i).completed hlive hx.accounts rfl (fun _ _ _ => rfl)
    (by simp [hp]) (fun _ => hx.handler i hold)

theorem HandlerMove.holds {stopRequested : Bool} {socket : Option Nat} {i : Nat}
    {p p' : HandlerPc} {a : TcpServerAction C} (h : HandlerMove stopRequested socket i p a p') :
    (p.running = true ∧ p ≠ .close) ∧ p'.holds = true := by
  cases h with
  | @buffer ok => cases ok <;> exact ⟨⟨rfl, nofun⟩, rfl⟩
  | continueRunning => cases stopRequested <;> exact ⟨⟨rfl, nofun⟩, rfl⟩
  | load => cases socket <;> exact ⟨⟨rfl, nofun⟩, rfl⟩
  | @recv _ r => cases r <;> exact ⟨⟨rfl, nofun⟩, rfl⟩
  | @callback threw => cases threw <;> exact ⟨⟨rfl, nofun⟩, rfl⟩

theorem Kept.handleClient {a : TcpServerAction C} (hx : Kept o)
    (h : handleClient s o a = some o') : Kept o' := by
  cases handlerStep_of_handleClient h with
  | move hmove =>
    obtain ⟨⟨hrunning, hne⟩, hholds⟩ := hmove.holds
    exact hx.setHandler hrunning hne hholds
  | @exchange i hpc =>
    have hempty := hx.handler i (by simp [hpc])
    exact hx.handle (o.session i).completed (by rw [hpc]; rfl)
      (hx.accounts.move hempty) rfl (fun q h1 h2 => ClientSockets.move_place_ne h1 h2)
      (fun _ => ClientSockets.move_place_from (by simp)) (fun hne => absurd rfl hne)
  | @close i hpc =>
    have hempty := hx.session i (by rw [hpc]; rfl)
    exact hx.handle (o.session i).completed (by rw [hpc]; rfl) hx.accounts.close
      ClientSockets.close_accepted (fun q _ h2 => ClientSockets.close_place_ne h2)
      (fun _ => by rw [ClientSockets.close_place_ne (by simp)]; exact hempty)
      (fun _ => ClientSockets.close_place_self)
  | @complete i hpc =>
    exact hx.handle true (by rw [hpc]; rfl) hx.accounts rfl (fun _ _ _ => rfl)
      (fun _ => hx.session i (by rw [hpc]; rfl)) (fun _ => hx.handler i (by simp [hpc]))
  | @returns i hpc =>
    exact hx.handle (o.session i).completed (by rw [hpc]; rfl) hx.accounts rfl
      (fun _ _ _ => rfl) (fun _ => hx.session i (by rw [hpc]; rfl))
      (fun _ => hx.handler i (by simp [hpc]))

/-! ## Stop hooks -/

/-- A stop hook goes on; only its own hand and a session it empties may change. -/
theorem Kept.stopStep {c : TcpServerCaller C} {p : TcpServerStop}
    {clients : ClientSockets (TcpServerCaller C)} (hx : Kept o)
    (mutex : Option (TcpServerCaller C)) (socket : TcpSocket (TcpServerCaller C))
    (haccounts : clients.Accounts)
    (haccepted : clients.accepted = o.clients.accepted)
    (hvariable : clients.place .accepted = o.clients.place .accepted)
    (hplace : ∀ q, q ≠ .stopper c → o.clients.place q = none → clients.place q = none)
    (hstopper : (∀ todo, p ≠ .closeClient todo) → clients.place (.stopper c) = none)
    (hclosing : ∀ todo, p = .closeClient todo → mutex = some c ∧ o.mClients ≠ [])
    (hlocked : ∀ todo, p = .clients todo → mutex = some c ∧ (todo ≠ [] → o.mClients ≠ []))
    (hmutex : ∀ d, d ≠ c → o.mClientsMutex = some d → mutex = some d) :
    Kept ({ o with clients := clients, mClientsMutex := mutex, socket := socket }.setStop c p) := by
  exact
    { hx with
      accounts := haccounts
      accepted := fun hh => hplace _ (by simp) (hx.accepted hh)
      fresh := fun d hd => hx.fresh d (by simpa [TcpServer.setStop, haccepted, hvariable] using hd)
      session := fun d hd => hplace _ (by simp) (hx.session d hd)
      handler := fun d hd => hplace _ (by simp) (hx.handler d hd)
      joiner := fun j hj => hplace _ (by simp) (hx.joiner j hj)
      stopper := fun d hd => by
        by_cases hdc : d = c
        · subst hdc
          exact hstopper (by simpa [TcpServer.setStop] using hd)
        · exact hplace _ (by simpa using hdc)
            (hx.stopper d (by simpa [TcpServer.setStop, hdc] using hd))
      closing := fun d todo hd => by
        by_cases hdc : d = c
        · subst hdc
          exact hclosing todo (by simpa [TcpServer.setStop] using hd)
        · obtain ⟨hm, hne⟩ := hx.closing d todo (by simpa [TcpServer.setStop, hdc] using hd)
          exact ⟨hmutex d hdc hm, hne⟩
      locked := fun d todo hd => by
        by_cases hdc : d = c
        · subst hdc
          exact hlocked todo (by simpa [TcpServer.setStop] using hd)
        · obtain ⟨hm, hne⟩ := hx.locked d todo (by simpa [TcpServer.setStop, hdc] using hd)
          exact ⟨hmutex d hdc hm, hne⟩ }

theorem Kept.setStop {c : TcpServerCaller C} {p : TcpServerStop} (hx : Kept o)
    (socket : TcpSocket (TcpServerCaller C))
    (hold : ∀ todo, o.stop c ≠ .closeClient todo)
    (hnew : ∀ todo, p ≠ .closeClient todo ∧ p ≠ .clients todo) :
    Kept ({ o with socket := socket }.setStop c p) :=
  hx.stopStep _ socket hx.accounts rfl rfl (fun _ _ h => h) (fun _ => hx.stopper c hold)
    (fun todo hp => absurd hp (hnew todo).1) (fun todo hp => absurd hp (hnew todo).2)
    (fun _ _ h => h)

theorem Kept.stopTriggered {a : TcpServerAction C} (hx : Kept o)
    (h : o.stopTriggered a = some o') : Kept o' := by
  cases a with
  | stopExchange c =>
    simp only [TcpServer.stopTriggered, Option.ite_none_right_eq_some, Option.some.injEq] at h
    obtain ⟨hstop, rfl⟩ := h
    exact hx.setStop _ (by simp [hstop]) (by simp)
  | stopClose c =>
    simp only [TcpServer.stopTriggered, Option.ite_none_right_eq_some, Option.some.injEq] at h
    obtain ⟨hstop, rfl⟩ := h
    exact hx.setStop _ (by simp [hstop]) (by simp)
  | stopLock c =>
    simp only [TcpServer.stopTriggered, Option.ite_none_right_eq_some, Option.some.injEq] at h
    obtain ⟨⟨hstop, hfree⟩, rfl⟩ := h
    refine hx.stopStep _ o.socket hx.accounts rfl rfl (fun _ _ h => h)
      (fun _ => hx.stopper c (by simp [hstop])) (by simp) ?_ (by simp [hfree])
    intro todo hp
    obtain rfl : o.mClients = todo := by simpa using hp
    exact ⟨rfl, id⟩
  | stopClientExchange c =>
    simp only [TcpServer.stopTriggered] at h
    split at h
    · rename_i i todo hstop
      obtain rfl := Option.some.inj h
      obtain ⟨hmutex, hne⟩ := hx.locked c _ hstop
      have hempty := hx.stopper c (by simp [hstop])
      refine hx.stopStep o.mClientsMutex o.socket
        (hx.accounts.move hempty) rfl (ClientSockets.move_place_ne (by simp) (by simp)) ?_
        (by simp) (fun _ _ => ⟨hmutex, hne (by simp)⟩) (by simp) (fun _ _ h => h)
      intro q hq hnone
      by_cases hqi : q = .session i
      · rw [hqi]
        exact ClientSockets.move_place_from (by simp)
      · rw [ClientSockets.move_place_ne hqi hq]
        exact hnone
    · cases h
  | stopClientClose c =>
    simp only [TcpServer.stopTriggered] at h
    split at h
    · rename_i todo hstop
      obtain rfl := Option.some.inj h
      obtain ⟨hmutex, hne⟩ := hx.closing c _ hstop
      refine hx.stopStep o.mClientsMutex o.socket hx.accounts.close
        ClientSockets.close_accepted (ClientSockets.close_place_ne (by simp)) ?_
        (fun _ => ClientSockets.close_place_self) (by simp) (fun _ _ => ⟨hmutex, fun _ => hne⟩)
        (fun _ _ h => h)
      intro q hq hnone
      rw [ClientSockets.close_place_ne hq]
      exact hnone
    · cases h
  | stopUnlock c =>
    simp only [TcpServer.stopTriggered, Option.ite_none_right_eq_some, Option.some.injEq] at h
    obtain ⟨hstop, rfl⟩ := h
    have hmutex := (hx.locked c _ hstop).1
    refine hx.stopStep _ o.socket hx.accounts rfl rfl (fun _ _ h => h)
      (fun _ => hx.stopper c (by simp [hstop])) (by simp) (by simp) (fun d hd hm => ?_)
    rw [hmutex] at hm
    exact absurd (Option.some.inj hm).symm hd
  | _ => cases h

/-! ## The worker, its joiners and the destructor -/

/-- No session's thread fails to be created, and `makeClientInfo` does not throw. -/
def StartsSessions (_ : Object (TcpServerCaller C) (TcpServer C)) :
    ObjectAction (TcpServerCaller C) (TcpServerAction C) → Prop
  | .own (.startClientSession .notCreated) => False
  | .own (.makeClientInfo (some _)) => False
  | _ => True

instance (s : Object (TcpServerCaller C) (TcpServer C))
    (a : ObjectAction (TcpServerCaller C) (TcpServerAction C)) :
    Decidable (StartsSessions s a) := by
  induction a using ObjectAction.casesOn with
  | base a => induction a using BaseAction.casesOn <;> (unfold StartsSessions; infer_instance)
  | own a =>
    induction a using TcpServerAction.casesOn with
    | startClientSession r =>
      induction r using SessionStart.casesOn <;> (unfold StartsSessions; infer_instance)
    | makeClientInfo e => induction e using Option.casesOn <;> (unfold StartsSessions; infer_instance)
    | _ => unfold StartsSessions; infer_instance

theorem Kept.preRun {a : TcpServerAction C} (hx : Kept o) (h : o.preRun a = some o') :
    Kept o' := by
  have hframe : ∃ hook socket runSocket,
      o' = { o with hook := hook, socket := socket, runSocket := runSocket } ∧
      o.hook.holdsClient = false ∧ o.hook.accepting = false ∧ o.hook ≠ .reaping ∧
      o.hook ≠ .joining ∧ ∀ e, hook ≠ .runDone (.threw e) := by
    cases a <;> simp only [TcpServer.preRun] at h <;>
      grind -linarith [TcpServer.setHook, TcpServerHook.holdsClient, TcpServerHook.accepting]
  obtain ⟨hook, socket, runSocket, rfl, hholds, haccepting, hreap, hjoin, hreturns⟩ := hframe
  exact hx.moveHook socket runSocket (fun _ => hholds) (fun _ => hx.runLoop hreap hjoin)
    (fun _ => hx.cleared haccepting) hreturns

theorem Kept.joinLoop {a : TcpServerAction C} (hx : Kept o) (h : o.joinLoop a = some o') :
    Kept o' := by
  cases loopStep_of_joinLoop h with
  | exchange hj => exact hx.loopExchange hj
  | close hj => exact hx.loopClose hj
  | join hj hexited => exact hx.loopJoin hj hexited

theorem Kept.startClientSession {i : Nat} {r : SessionStart} (hx : Kept o)
    (hr : r ≠ .notCreated) (hhook : o.hook = .startClientSession)
    (hi : o.clients.place .accepted = some i) (hfree : o.mClientsMutex = none) :
    Kept (o.startClientSession i r) := by
  have hloop := hx.runLoop (by simp [hhook]) (by simp [hhook])
  cases r with
  | notAdded =>
    exact hx.moveHook o.socket o.runSocket (fun hh => by cases hh)
      (fun _ => hloop) (fun hh => by cases hh) (by simp)
  | created => exact hx.created hi hfree hloop
  | notCreated => exact absurd rfl hr

/-- A step of the accept loop from a place without a descriptor to another. -/
theorem Kept.accepting {hook : TcpServerHook} (hx : Kept o)
    (hfrom : o.hook.holdsClient = false ∧ o.hook ≠ .reaping ∧ o.hook ≠ .joining)
    (hto : hook.accepting = true ∧ hook.holdsClient = false) : Kept (o.setHook hook) :=
  hx.moveHook o.socket o.runSocket (fun _ => hfrom.1)
    (fun _ => hx.runLoop hfrom.2.1 hfrom.2.2) (by simp [hto.1])
    (by rintro e rfl; cases hto.1)

theorem LoopMove.accepting {stopRequested : Bool} {descriptor : Option Nat}
    {hook hook' : TcpServerHook} {a : TcpServerAction C}
    (h : LoopMove stopRequested descriptor hook a hook') :
    (hook.holdsClient = false ∧ hook ≠ .reaping ∧ hook ≠ .joining) ∧
      hook'.accepting = true ∧ hook'.holdsClient = false := by
  cases h with
  | load => cases descriptor <;> exact ⟨⟨rfl, nofun, nofun⟩, rfl, rfl⟩
  | continueRunning | interrupted | testStop =>
    cases stopRequested <;> exact ⟨⟨rfl, nofun, nofun⟩, rfl, rfl⟩
  | acceptInterrupted | acceptFailed | runStopped => exact ⟨⟨rfl, nofun, nofun⟩, rfl, rfl⟩

theorem Kept.run {a : TcpServerAction C} (hx : Kept o)
    (hok : StartsSessions ⟨s, o⟩ (.own a)) (h : run s o a = some o') : Kept o' := by
  cases runStep_of_run h with
  | move hmove => exact hx.accepting hmove.accepting.1 hmove.accepting.2
  | reapCompletedClients hhook hfree =>
    refine hx.splice .run _ _ _ o.destructor hfree
      (hx.runLoop (by simp [hhook]) (by simp [hhook])) (fun i hi => ?_)
      (fun _ => by rw [hhook]; rfl) (fun h _ => absurd rfl h)
      (fun hd => ⟨by simp, hx.destructorLoop hd⟩) (fun hh => by cases hh) (by simp)
    cases hc : (o.session i).completed <;> simp [spliceCompleted, setLoop, hi, hc]
  | reaped hhook htodo =>
    exact hx.endLoop .run _ o.destructor htodo (fun _ => by rw [hhook]; rfl)
      (fun _ _ => htodo) hx.destructorLoop (fun hh => by cases hh) (by simp)
  | accepted hhook =>
    exact hx.accept (by rw [hhook]; rfl) (hx.runLoop (by simp [hhook]) (by simp [hhook]))
  | makeClientInfo hhook =>
    exact hx.moveHook o.socket o.runSocket (fun hh => by cases hh)
      (fun _ => hx.runLoop (by simp [hhook]) (by simp [hhook])) (fun hh => by cases hh) (by simp)
  | makeClientInfoThrows => exact absurd hok id
  | startClientSession hhook hi hfree =>
    exact hx.startClientSession (by rintro rfl; exact hok) hhook hi hfree
  | closeSocketValue hhook =>
    exact hx.closeSocketValue (hx.runLoop (by simp [hhook]) (by simp [hhook]))
  | joinAndClearAllClients hhook hfree =>
    exact hx.splice .run [] _ _ o.destructor hfree
      (hx.runLoop (by simp [hhook]) (by simp [hhook])) (fun i hi => .inr hi)
      (fun _ => by rw [hhook]; rfl) (fun _ h => absurd rfl h)
      (fun hd => ⟨by simp, hx.destructorLoop hd⟩) (fun _ => rfl) (by simp)
  | joined hhook htodo =>
    exact hx.endLoop .run _ o.destructor htodo (fun _ => by rw [hhook]; rfl)
      (fun _ _ => htodo) hx.destructorLoop (fun _ => hx.cleared (by rw [hhook]; rfl)) (by simp)
  | exchangeServer hhook | closeServer hhook =>
    exact hx.moveHook _ o.runSocket (fun _ => by rw [hhook]; rfl)
      (fun _ => hx.runLoop (by simp [hhook]) (by simp [hhook]))
      (fun _ => hx.cleared (by rw [hhook]; rfl)) (by simp)

theorem Kept.destroy {a : TcpServerAction C} (hx : Kept o) (h : destroy s o a = some o') :
    Kept o' := by
  cases a with
  | destructorStopped =>
    simp only [TcpServer.destroy] at h
    split at h
    · rename_i hdtor _
      obtain rfl := Option.some.inj h
      exact { hx with destructorLoop := fun _ => hx.destructorLoop (by simp [hdtor]) }
    · cases h
  | destructorExchange =>
    simp only [TcpServer.destroy, Option.ite_none_right_eq_some, Option.some.injEq] at h
    obtain ⟨hdtor, rfl⟩ := h
    exact { hx with destructorLoop := fun _ => hx.destructorLoop (by simp [hdtor]) }
  | destructorClose =>
    simp only [TcpServer.destroy, Option.ite_none_right_eq_some, Option.some.injEq] at h
    obtain ⟨hdtor, rfl⟩ := h
    exact { hx with destructorLoop := fun _ => hx.destructorLoop (by simp [hdtor]) }
  | destructorJoinAndClear =>
    simp only [TcpServer.destroy, Option.ite_none_right_eq_some, Option.some.injEq] at h
    obtain ⟨⟨hdtor, hfree⟩, rfl⟩ := h
    exact hx.splice .destructor [] _ o.hook _ hfree
      (hx.destructorLoop (by simp [hdtor])) (fun i hi => .inr hi) id
      (fun h1 h2 => ⟨by simp, hx.runLoop h1 h2⟩) (fun h => absurd rfl h) (fun _ => rfl)
      hx.returns
  | destructorJoined =>
    simp only [TcpServer.destroy, Option.ite_none_right_eq_some, Option.some.injEq] at h
    obtain ⟨⟨hdtor, htodo⟩, rfl⟩ := h
    exact hx.endLoop .destructor o.hook _ htodo id hx.runLoop (fun _ => htodo) hx.cleared hx.returns
  | _ => cases h

theorem Kept.own {a : TcpServerAction C} (hx : Kept o)
    (hok : StartsSessions ⟨s, o⟩ (.own a)) (h : own s o a = some o') : Kept o' := by
  obtain ⟨-, h | h | h | h | h | h⟩ := own_cases h
  · exact hx.preRun h
  · exact hx.run hok h
  · exact hx.joinLoop h
  · exact hx.handleClient h
  · exact hx.stopTriggered h
  · exact hx.destroy h

/-! ## Steps of the worker -/

theorem Kept.destroyAll {nodes : List Nat} (hx : Kept o) : Kept (o.destroyAll nodes) := by
  have hsession : ∀ i, ((o.destroyAll nodes).session i).handler = (o.session i).handler ∧
      ((o.destroyAll nodes).session i).worker = (o.session i).worker := fun i => by
    simp only [TcpServer.destroyAll]
    split <;> exact ⟨rfl, rfl⟩
  exact
    { hx with
      fresh := fun i hi => (hsession i).1.trans (hx.fresh i hi)
      session := fun i hi => hx.session i ((hsession i).1 ▸ hi)
      handler := fun i hi => hx.handler i ((hsession i).1 ▸ hi)
      running := fun i hi => hx.running i ((hsession i).1 ▸ hi)
      worker := fun i hi => by
        rw [(hsession i).1]
        exact hx.worker i ((hsession i).2 ▸ hi) }

theorem Kept.calls {c : TcpServerCaller C} {k : Call} (hx : Kept o) (h : o.calls c k = some o') :
    Kept o' := by
  cases c with
  | user c =>
    simp only [TcpServer.calls, Option.ite_none_right_eq_some, Option.some.injEq] at h
    obtain ⟨-, rfl⟩ := h
    exact hx
  | run =>
    simp only [TcpServer.calls, Option.ite_none_right_eq_some, Option.some.injEq] at h
    obtain ⟨⟨hhook, -⟩, rfl⟩ := h
    exact hx.accepting (by simp [hhook, TcpServerHook.holdsClient]) ⟨rfl, rfl⟩
  | destructor =>
    simp only [TcpServer.calls] at h
    split at h
    · rename_i hdtor
      simp only [Option.ite_none_right_eq_some, Option.some.injEq] at h
      obtain ⟨-, rfl⟩ := h
      exact { hx with destructorLoop := fun _ => hx.destructorLoop (by simp [hdtor]) }
    · rename_i hdtor
      simp only [Option.ite_none_right_eq_some, Option.some.injEq] at h
      obtain ⟨-, rfl⟩ := h
      exact
        { hx.destroyAll with destructorLoop := fun _ => hx.destructorLoop (by simp [hdtor]) }
    · cases h

theorem Kept.sync {a : BaseAction (TcpServerCaller C)} (hx : Kept o)
    (hat : HookAt s.current o.hook) (hentered : SocketView.Entered s o.socketView)
    (hs : s.step a = some t) (hm : BaseWorker.Moves s a t)
    (hy : sync s a o = some o') : Kept o' := by
  have hy := syncHooks_of_sync hy
  -- the hooks begin where the thread is in none
  have hbegin : ∀ hook : TcpServerHook, s.current.hookHome = none →
      (hook.accepting = true ∨ hook = .openSocket) → hook.holdsClient = false →
      Kept (o.setHook hook) := fun hook hcur hto hholds => by
    have hidle := hat.idle hcur
    refine hx.moveHook o.socket o.runSocket
      (fun _ => by rw [hidle]; rfl) (fun _ => hx.runLoop (by simp [hidle]) (by simp [hidle]))
      (fun _ => hx.cleared (by rw [hidle]; rfl)) ?_
    rintro e rfl
    rcases hto with h | h <;> cases h
  have hend : ∀ e, (o.hook = .preRunDone e ∨ o.hook = .runDone e) → Kept (o.setHook .idle) :=
    fun e hdone => by
      refine hx.moveHook o.socket o.runSocket ?_ ?_ ?_ (by simp)
      · exact fun _ => by rcases hdone with h | h <;> rw [h] <;> rfl
      · exact fun _ => by rcases hdone with h | h <;> exact hx.runLoop (by simp [h]) (by simp [h])
      · exact fun _ => hx.cleared (by rcases hdone with h | h <;> rw [h] <;> rfl)
  cases a with
  | call c k => exact hx.calls hy
  | startSection c created =>
    obtain rfl := Option.some.inj hy
    split
    · exact { hx with }
    · exact hx
  | preRunBegin r =>
    obtain rfl := Option.some.inj hy
    cases hm with
    | rest hact => cases hact
    | preRunBegin _ hfrom _ => exact hbegin _ (by rw [hfrom]; rfl) (.inr rfl) rfl
  | preRunEnd r e =>
    simp only [syncHooks, Option.ite_none_right_eq_some, Option.some.injEq] at hy
    obtain ⟨hdone, rfl⟩ := hy
    exact hend e (.inl hdone)
  | setRunning r =>
    obtain rfl := Option.some.inj hy
    cases hm with
    | rest hact => cases hact
    | setRunning _ hfrom _ => exact hbegin _ (by rw [hfrom]; rfl) (.inl rfl) rfl
  | runEnd r e =>
    simp only [syncHooks, Option.ite_none_right_eq_some, Option.some.injEq] at hy
    obtain ⟨hdone, rfl⟩ := hy
    exact hend e (.inr hdone)
  | stopSection c =>
    obtain rfl := Option.some.inj hy
    split
    · have hidle := hentered.idle_of_stopSection hs
      refine hx.setStop o.socket (fun todo hc => ?_) (fun todo => ?_)
      · simp [socketView, hc, TcpServerStop.socketStop] at hidle
      · split <;> exact ⟨by simp, by simp⟩
    · exact hx
  | stopTriggeredEnd c =>
    simp only [syncHooks, Option.ite_none_right_eq_some, Option.some.injEq] at hy
    obtain ⟨hdone, rfl⟩ := hy
    exact hx.setStop o.socket (by simp [hdone]) (by simp)
  | _ =>
    obtain rfl := Option.some.inj hy
    exact hx

theorem kept_init : Kept ({} : TcpServer C) where
  accounts := ClientSockets.accounts_init
  accepted _ := rfl
  fresh _ _ := rfl
  session _ _ := rfl
  handler _ _ := rfl
  running _ h := by cases h
  worker _ _ := rfl
  joiner _ _ := rfl
  finished _ _ := rfl
  runLoop _ _ := rfl
  destructorLoop _ := rfl
  stopper _ _ := rfl
  closing _ _ h := by cases h
  locked _ _ h := by cases h
  cleared _ := rfl
  returns _ h := by cases h

theorem kept_of_reachable {s : Object (TcpServerCaller C) (TcpServer C)}
    (hr : (TCPServer_V2 C).system.ReachableBy StartsSessions s) : Kept s.ext := by
  refine ReachableBy.invariant (P := fun s => Kept s.ext) kept_init
    (fun s a t hr hx hok hs => ?_) hr
  cases a with
  | base a =>
    obtain ⟨hb, hy⟩ := Derived.step_base.mp hs
    obtain ⟨hi, hu⟩ := Derived.inherits hr
    exact hx.sync (hookAt_of_reachable hr)
      (SocketWorker.entered_of_reachable (W := socketWorker C) hr) hb
      (BaseWorker.moves_of_step hi hu hb) hy
  | own a =>
    obtain ⟨-, hy⟩ := Derived.step_own.mp hs
    exact hx.own hok hy

/-- Where nobody is in the accept loop and no joiner is at work, nobody has a descriptor. -/
theorem Kept.place_empty (hx : Kept o) (haccepting : o.hook.accepting = false)
    (hjoining : o.hook ≠ .joining) (hdtor : o.destructor ≠ .joining)
    (p : ClientPlace (TcpServerCaller C)) : o.clients.place p = none := by
  have hclients := hx.cleared haccepting
  have htodo : ∀ j, (o.loop j).todo = [] := fun j => by
    cases j with
    | run => exact hx.runLoop (by rintro h; rw [h] at haccepting; cases haccepting) hjoining
    | destructor => exact hx.destructorLoop hdtor
  have hlisted : ∀ i, ¬ Listed o i := by
    rintro i (hi | ⟨j, hi⟩)
    · rw [hclients] at hi
      cases hi
    · rw [htodo j] at hi
      cases hi
  have hrunning : ∀ i, (o.session i).handler.running = false := fun i => by
    by_contra hne
    exact hlisted i (hx.running i (by simpa using hne))
  cases p with
  | accepted =>
    refine hx.accepted ?_
    revert haccepting
    cases o.hook <;> simp [TcpServerHook.accepting, TcpServerHook.holdsClient]
  | session i =>
    refine hx.session i ?_
    have hdone := hrunning i
    revert hdone
    cases (o.session i).handler <;> simp [HandlerPc.running, HandlerPc.holds]
  | handler i =>
    refine hx.handler i fun hclose => ?_
    have hdone := hrunning i
    rw [hclose] at hdone
    cases hdone
  | joiner j => exact hx.joiner j (by simp [hx.finished j (htodo j)])
  | stopper c => exact hx.stopper c fun todo hc => (hx.closing c todo hc).2 hclients

/-- No accepted descriptor is closed twice, and when `joinAndClearAllClients` has finished
behind the accept loop every one has been closed. -/
theorem clients_closed_exactly_once {s : Object (TcpServerCaller C) (TcpServer C)}
    (hr : (TCPServer_V2 C).system.ReachableBy StartsSessions s) :
    (∀ i, s.ext.clients.closed i ≤ 1) ∧
      (s.ext.hook.accepting = false → s.ext.hook ≠ .joining → s.ext.destructor ≠ .joining →
        ∀ i, i < s.ext.clients.accepted → s.ext.clients.closed i = 1) := by
  have hx := kept_of_reachable hr
  exact ⟨Ownership.Accounted.released_le_one hx.accounts,
    fun h1 h2 h3 i hi => Ownership.Accounted.released_of_unheld hx.accounts hi fun p => by
      rw [hx.place_empty h1 h2 h3 p]
      simp⟩

/-- The first client is accepted, up to the section of `startClientSession`. -/
def acceptSchedule : List (ObjectAction (TcpServerCaller Bool) (TcpServerAction Bool)) :=
  [.base (.setRunning 0), .own .continueRunning, .own .reapCompletedClients, .own .reaped,
    .own .load, .own (.accept .accepted), .own (.makeClientInfo none)]

def sessionSchedule : List (ObjectAction (TcpServerCaller Bool) (TcpServerAction Bool)) :=
  [.own (.startClientSession .created), .own (.handlerBuffer 0 true),
    .base (.call (.user true) .requestStop), .base (.stopSection (.user true)),
    .own (.stopExchange (.user true)), .own (.stopClose (.user true)),
    .own (.stopLock (.user true)), .own (.stopClientExchange (.user true)),
    .own (.stopClientClose (.user true)), .own (.stopUnlock (.user true))]

/-- The handler and the end of `run` close behind the stop hook. -/
def clientEndSchedule : List (ObjectAction (TcpServerCaller Bool) (TcpServerAction Bool)) :=
  [.own (.handlerContinueRunning 0), .own (.handlerExchange 0), .own (.handlerClose 0),
    .own .continueRunning, .own .joinAndClearAllClients, .own (.loopExchange .run),
    .own (.loopClose .run), .own (.handlerComplete 0), .own (.handlerReturn 0),
    .own (.loopJoin .run), .own .joined]

theorem clients_closed_exactly_once_stopped :
    let S := (TCPServer_V2 Bool).system
    let s := S.after StartsSessions S.init (openedSchedule ++ listeningSchedule ++
      acceptSchedule ++ sessionSchedule ++ clientEndSchedule)
    s.ext.clients.closed 0 = 1 := by
  intro S s
  exact (clients_closed_exactly_once (s := s) (reaches_after (by decide))).2 (by decide)
    (by decide) (by decide) 0 (by decide)

def notCreatedSchedule : List (ObjectAction (TcpServerCaller Bool) (TcpServerAction Bool)) :=
  [.own (.startClientSession .notCreated), .own .closeSocketValue]

/-- Where a session's thread cannot be created the session closes the descriptor, and the
accept loop closes it again. -/
theorem failed_session_closes_twice :
    ¬ ∀ s : Object (TcpServerCaller Bool) (TcpServer Bool),
      (TCPServer_V2 Bool).system.Reachable s → ∀ i, s.ext.clients.closed i ≤ 1 := by
  intro hclaim
  let S := (TCPServer_V2 Bool).system
  have h := hclaim (S.after Free S.init (openedSchedule ++ listeningSchedule ++ acceptSchedule ++
    notCreatedSchedule)) (reaches_after (by decide)) 0
  revert h
  decide

end TcpServer

end ThreadComponent
