import ThreadComponent.TcpClientSystemCalls
import ThreadComponent.TcpServerDescriptors

/-!
# The system calls of TCPServer_V2

`preRun` binds the descriptor that it has opened, the accept loop uses the one that it has
loaded, and a handler receives on the one that it has loaded from its session. A session that
could not be started has closed the descriptor that the accept loop still has in hand; nobody
uses that one any more.
-/

set_option autoImplicit false
set_option linter.unusedSectionVars false

namespace ThreadComponent

open Transitions System Ownership

/-- Is the next system call one on the descriptor that `preRun` has opened? -/
def TcpServerHook.usesOpened : TcpServerHook → Bool
  | .bind | .listen => true
  | _ => false

def TcpServerHook.descriptor : TcpServerHook → Option Nat
  | .accept serverSocket => some serverSocket
  | _ => none

def HandlerPc.descriptor : HandlerPc → Option Nat
  | .recv clientSocket => some clientSocket
  | _ => none

namespace TcpServer
variable {C : Type} [DecidableEq C] {s t : BaseWorker (TcpServerCaller C)} {o o' : TcpServer C}

/-- The worker's thread is about to issue a system call on the listening socket. -/
def Issues (o : TcpServer C) (fd : Nat) : Prop :=
  (o.hook.usesOpened = true ∧ o.runSocket = some fd) ∨ o.hook.descriptor = some fd

/-- A handler is about to issue a `::recv` on the descriptor of its session. -/
def Receives (o : TcpServer C) (i : Nat) : Prop := (o.session i).handler.descriptor = some i

instance (o : TcpServer C) (fd : Nat) : Decidable (Issues o fd) := by
  unfold Issues
  infer_instance

instance (o : TcpServer C) (i : Nat) : Decidable (Receives o i) := by
  unfold Receives
  infer_instance

def closes (o : TcpServer C) : TcpServerAction C → Option Nat
  | .close | .closeServer => o.socket.hand .worker
  | .stopClose c => o.socket.hand (.stopper c)
  | .destructorClose => o.socket.hand .destructor
  | _ => none

/-- The descriptor of a client that a step closes. -/
def closesClient (o : TcpServer C) : TcpServerAction C → Option Nat
  | .closeSocketValue | .startClientSession .notCreated => o.clients.place .accepted
  | .loopClose j => o.clients.place (.joiner j)
  | .handlerClose i => o.clients.place (.handler i)
  | .stopClientClose c => o.clients.place (.stopper c)
  | _ => none

/-- No descriptor is closed between its load and the system call on it. -/
def ClosesUnused (s : Object (TcpServerCaller C) (TcpServer C)) :
    ObjectAction (TcpServerCaller C) (TcpServerAction C) → Prop
  | .own a => (∀ fd ∈ s.ext.closes a, ¬ s.ext.Issues fd) ∧
      ∀ i ∈ s.ext.closesClient a, ¬ s.ext.Receives i
  | .base _ => True

instance (s : Object (TcpServerCaller C) (TcpServer C))
    (a : ObjectAction (TcpServerCaller C) (TcpServerAction C)) :
    Decidable (ClosesUnused s a) := by
  induction a using ObjectAction.casesOn <;> (unfold ClosesUnused; infer_instance)

/-! ## The listening socket -/

structure Owns (o : TcpServer C) : Prop where
  serves : o.socket.Serves o.Issues
  storing : o.hook = .storeSocket →
    ∃ fd, o.runSocket = some fd ∧ o.socket.hand .worker = some fd
  binding : o.hook.usesOpened = true → ∃ fd, o.runSocket = some fd

/-- What the worker's thread is about to use it has been about to use before, or has loaded. -/
theorem Issues.of_step {fd : Nat} (hrun : o'.runSocket = o.runSocket)
    (hopened : o'.hook.usesOpened = true → o.hook.usesOpened = true)
    (hloaded : o'.hook.descriptor = none ∨ o'.hook.descriptor = o.hook.descriptor ∨
      o'.hook.descriptor = o.socket.descriptor)
    (h : o'.Issues fd) : o.Issues fd ∨ o.socket.descriptor = some fd := by
  rcases h with ⟨hh, hr⟩ | ha
  · exact .inl (.inl ⟨hopened hh, hrun ▸ hr⟩)
  · rcases hloaded with hnone | hsame | hload
    · rw [hnone] at ha
      cases ha
    · exact .inl (.inr (hsame ▸ ha))
    · exact .inr (hload ▸ ha)

theorem Owns.of_step (hx : Owns o) (hserves : o'.socket.Serves o'.Issues)
    (hrun : o'.runSocket = o.runSocket)
    (hstoring : o'.hook = .storeSocket →
      o.hook = .storeSocket ∧ o'.socket.hand .worker = o.socket.hand .worker)
    (hopened : o'.hook.usesOpened = true → o.hook.usesOpened = true) : Owns o' where
  serves := hserves
  storing hh := by
    obtain ⟨hold, hhand⟩ := hstoring hh
    rw [hrun, hhand]
    exact hx.storing hold
  binding hh := hrun ▸ hx.binding (hopened hh)

theorem Owns.of_same (hx : Owns o) (hsocket : o'.socket = o.socket)
    (hrun : o'.runSocket = o.runSocket)
    (hstoring : o'.hook = .storeSocket → o.hook = .storeSocket)
    (hopened : o'.hook.usesOpened = true → o.hook.usesOpened = true)
    (hloaded : o'.hook.descriptor = none ∨ o'.hook.descriptor = o.hook.descriptor ∨
      o'.hook.descriptor = o.socket.descriptor) : Owns o' := by
  refine hx.of_step ?_ hrun (fun hh => ⟨hstoring hh, by rw [hsocket]⟩) hopened
  rw [hsocket]
  exact hx.serves.load fun fd => Issues.of_step hrun hopened hloaded

theorem Owns.of_hook (hx : Owns o) (hsocket : o'.socket = o.socket)
    (hrun : o'.runSocket = o.runSocket) (hhook : o'.hook = o.hook) : Owns o' :=
  hx.of_same hsocket hrun (fun hh => hhook ▸ hh) (fun hh => hhook ▸ hh)
    (.inr (.inl (by rw [hhook])))

/-- The worker's thread comes to a place where it has no business with the socket, or it loads
the member. -/
theorem Owns.of_idle (hx : Owns o) (hsocket : o'.socket = o.socket)
    (hrun : o'.runSocket = o.runSocket) (hstoring : o'.hook ≠ .storeSocket)
    (hopened : o'.hook.usesOpened = false)
    (hloaded : o'.hook.descriptor = none ∨ o'.hook.descriptor = o.socket.descriptor) :
    Owns o' := by
  refine hx.of_same hsocket hrun (fun hh => absurd hh hstoring) (fun hh => ?_)
    (hloaded.imp_right .inr)
  rw [hopened] at hh
  cases hh

/-- Somebody else takes the descriptor out of the member, or closes one that is not in use. -/
theorem Owns.stop (hx : Owns o) {k : Closer (TcpServerCaller C)} (hk : k ≠ .worker)
    (hsocket : o'.socket = o.socket.exchange k ∨
      (o'.socket = o.socket.close k ∧ ∀ fd ∈ o.socket.hand k, ¬ o.Issues fd))
    (hrun : o'.runSocket = o.runSocket) (hhook : o'.hook = o.hook) : Owns o' := by
  have hissues : ∀ fd, o'.Issues fd → o.Issues fd := by
    intro fd hfd
    rwa [Issues, hhook, hrun] at hfd
  rcases hsocket with hsocket | ⟨hsocket, hunused⟩
  · refine hx.of_step (hsocket ▸ hx.serves.exchange hissues) hrun (fun hh => ⟨hhook ▸ hh, ?_⟩)
      (fun hh => hhook ▸ hh)
    rw [hsocket, TcpSocket.exchange_hand_ne hk.symm]
  · refine hx.of_step (hsocket ▸ hx.serves.close hissues hunused) hrun
      (fun hh => ⟨hhook ▸ hh, ?_⟩) (fun hh => hhook ▸ hh)
    rw [hsocket, TcpSocket.close_hand_ne hk.symm]

/-- The worker's thread takes the descriptor back, or closes one that is not in use. -/
theorem Owns.takeBack (hx : Owns o) {hook : TcpServerHook}
    (hhook : hook.usesOpened = false ∧ hook ≠ .storeSocket ∧ hook.descriptor = none)
    (socket : TcpSocket (TcpServerCaller C))
    (hsocket : socket = o.socket.exchange .worker ∨
      (socket = o.socket.close .worker ∧ ∀ fd ∈ o.socket.hand .worker, ¬ o.Issues fd)) :
    Owns { o with socket := socket, hook := hook } := by
  obtain ⟨hopened, hstoring, hnone⟩ := hhook
  have hissues : ∀ fd, Issues { o with socket := socket, hook := hook } fd → o.Issues fd := by
    rintro fd (⟨hh, -⟩ | ha)
    · exact absurd hh (by simp [hopened])
    · exact absurd (hnone.symm.trans ha) (by simp)
  have hserves : socket.Serves (Issues { o with socket := socket, hook := hook }) := by
    rcases hsocket with rfl | ⟨rfl, hunused⟩
    · exact hx.serves.exchange hissues
    · exact hx.serves.close hissues hunused
  exact hx.of_step hserves rfl (fun hh => absurd hh hstoring)
    (fun hh => absurd hh (by simp [hopened]))

theorem Owns.preRun {a : TcpServerAction C} (hx : Owns o)
    (hok : ∀ fd ∈ o.closes a, ¬ o.Issues fd) (h : o.preRun a = some o') : Owns o' := by
  cases a with
  | openSocket ok =>
    simp only [TcpServer.preRun, Option.ite_none_right_eq_some, Option.some.injEq] at h
    obtain ⟨-, rfl⟩ := h
    cases ok with
    | false =>
      exact hx.of_same rfl rfl (fun hh => by cases hh) (fun hh => by cases hh) (.inl rfl)
    | true =>
      refine ⟨hx.serves.openSocket ?_, fun _ => ⟨_, rfl, TcpSocket.openSocket_hand_self⟩,
        fun hh => by cases hh⟩
      rintro fd (⟨hh, -⟩ | ha)
      · cases hh
      · cases ha
  | storeSocket =>
    simp only [TcpServer.preRun, Option.ite_none_right_eq_some, Option.some.injEq] at h
    obtain ⟨hhook, rfl⟩ := h
    obtain ⟨i, hrun, hhand⟩ := hx.storing hhook
    refine ⟨hx.serves.store ?_, fun hh => (by cases hh), fun _ => ⟨i, hrun⟩⟩
    rintro fd (⟨-, hr⟩ | ha)
    · exact .inr (hhand.trans (hrun.symm.trans hr))
    · cases ha
  | exchange =>
    simp only [TcpServer.preRun, Option.ite_none_right_eq_some, Option.some.injEq] at h
    obtain ⟨-, rfl⟩ := h
    exact hx.takeBack ⟨rfl, by simp, rfl⟩ _ (.inl rfl)
  | close =>
    simp only [TcpServer.preRun, Option.ite_none_right_eq_some, Option.some.injEq] at h
    obtain ⟨-, rfl⟩ := h
    exact hx.takeBack ⟨rfl, by simp, rfl⟩ _ (.inr ⟨rfl, hok⟩)
  | bind ok | listen ok =>
    simp only [TcpServer.preRun, Option.ite_none_right_eq_some, Option.some.injEq] at h
    obtain ⟨hhook, rfl⟩ := h
    refine hx.of_same rfl rfl (fun hh => ?_) (fun _ => by rw [hhook]; rfl) (.inl ?_)
    · cases ok <;> cases hh
    · cases ok <;> rfl
  | _ => cases h

theorem startClientSession_socket (o : TcpServer C) (i : Nat) (r : SessionStart) :
    (o.startClientSession i r).socket = o.socket ∧
      (o.startClientSession i r).runSocket = o.runSocket ∧
      ((o.startClientSession i r).hook = .continueRunning ∨
        (o.startClientSession i r).hook = .closeSocketValue) := by
  cases r
  · exact ⟨rfl, rfl, .inr rfl⟩
  · exact ⟨rfl, rfl, .inl rfl⟩
  · exact ⟨rfl, rfl, .inr rfl⟩

theorem LoopMove.descriptor {stopRequested : Bool} {descriptor : Option Nat}
    {hook hook' : TcpServerHook} {a : TcpServerAction C}
    (h : LoopMove stopRequested descriptor hook a hook') :
    hook' ≠ .storeSocket ∧ hook'.usesOpened = false ∧
      (hook'.descriptor = none ∨ hook'.descriptor = descriptor) := by
  cases h with
  | load =>
    cases descriptor with
    | none => exact ⟨nofun, rfl, .inl rfl⟩
    | some fd => exact ⟨nofun, rfl, .inr rfl⟩
  | continueRunning | interrupted | testStop =>
    cases stopRequested <;> exact ⟨nofun, rfl, .inl rfl⟩
  | acceptInterrupted | acceptFailed | runStopped => exact ⟨nofun, rfl, .inl rfl⟩

theorem Owns.run {a : TcpServerAction C} (hx : Owns o)
    (hok : ∀ fd ∈ o.closes a, ¬ o.Issues fd) (h : run s o a = some o') : Owns o' := by
  cases runStep_of_run h with
  | move hmove =>
    obtain ⟨hstoring, hopened, hloaded⟩ := hmove.descriptor
    exact hx.of_idle rfl rfl hstoring hopened hloaded
  | exchangeServer => exact hx.takeBack ⟨rfl, by simp, rfl⟩ _ (.inl rfl)
  | closeServer => exact hx.takeBack ⟨rfl, by simp, rfl⟩ _ (.inr ⟨rfl, hok⟩)
  | @startClientSession r =>
    obtain ⟨hsocket, hrun, hhook | hhook⟩ := startClientSession_socket o _ r
    · exact hx.of_idle hsocket hrun (by simp [hhook]) (by rw [hhook]; rfl)
        (.inl (by rw [hhook]; rfl))
    · exact hx.of_idle hsocket hrun (by simp [hhook]) (by rw [hhook]; rfl)
        (.inl (by rw [hhook]; rfl))
  | reapCompletedClients | reaped | accepted | makeClientInfo | makeClientInfoThrows
  | closeSocketValue | joinAndClearAllClients | joined =>
    exact hx.of_idle rfl rfl nofun rfl (.inl rfl)

theorem Owns.stopTriggered {a : TcpServerAction C} (hx : Owns o)
    (hok : ∀ fd ∈ o.closes a, ¬ o.Issues fd) (h : o.stopTriggered a = some o') : Owns o' := by
  cases a with
  | stopExchange c =>
    simp only [TcpServer.stopTriggered, Option.ite_none_right_eq_some, Option.some.injEq] at h
    obtain ⟨-, rfl⟩ := h
    exact hx.stop (k := .stopper c) (by simp) (.inl rfl) rfl rfl
  | stopClose c =>
    simp only [TcpServer.stopTriggered, Option.ite_none_right_eq_some, Option.some.injEq] at h
    obtain ⟨-, rfl⟩ := h
    exact hx.stop (k := .stopper c) (by simp) (.inr ⟨rfl, hok⟩) rfl rfl
  | _ =>
    have hframe : o'.socket = o.socket ∧ o'.runSocket = o.runSocket ∧ o'.hook = o.hook := by
      simp only [TcpServer.stopTriggered] at h
      grind -linarith [setStop]
    obtain ⟨hsocket, hrun, hhook⟩ := hframe
    exact hx.of_hook hsocket hrun hhook

theorem Owns.destroy {a : TcpServerAction C} (hx : Owns o)
    (hok : ∀ fd ∈ o.closes a, ¬ o.Issues fd) (h : destroy s o a = some o') : Owns o' := by
  cases a with
  | destructorExchange =>
    simp only [TcpServer.destroy, Option.ite_none_right_eq_some, Option.some.injEq] at h
    obtain ⟨-, rfl⟩ := h
    exact hx.stop (k := .destructor) (by simp) (.inl rfl) rfl rfl
  | destructorClose =>
    simp only [TcpServer.destroy, Option.ite_none_right_eq_some, Option.some.injEq] at h
    obtain ⟨-, rfl⟩ := h
    exact hx.stop (k := .destructor) (by simp) (.inr ⟨rfl, hok⟩) rfl rfl
  | _ =>
    have hframe : o'.socket = o.socket ∧ o'.runSocket = o.runSocket ∧ o'.hook = o.hook := by
      simp only [TcpServer.destroy] at h
      grind -linarith [spliceAll, TcpServer.endLoop, destroyAll, setLoop]
    obtain ⟨hsocket, hrun, hhook⟩ := hframe
    exact hx.of_hook hsocket hrun hhook

theorem Owns.own {a : TcpServerAction C} (hx : Owns o)
    (hok : ∀ fd ∈ o.closes a, ¬ o.Issues fd) (h : own s o a = some o') : Owns o' := by
  obtain ⟨-, h | h | h | h | h | h⟩ := own_cases h
  · exact hx.preRun hok h
  · exact hx.run hok h
  · obtain ⟨hsocket, hhook, -⟩ := joinLoop_same h
    refine hx.of_hook hsocket ?_ hhook
    cases loopStep_of_joinLoop h <;> rfl
  · obtain ⟨hsocket, hhook, -⟩ := handleClient_same h
    refine hx.of_hook hsocket ?_ hhook
    cases handlerStep_of_handleClient h <;> rfl
  · exact hx.stopTriggered hok h
  · exact hx.destroy hok h

theorem Owns.sync {a : BaseAction (TcpServerCaller C)} (hx : Owns o)
    (hat : HookAt s.current o.hook) (hm : BaseWorker.Moves s a t) (h : sync s a o = some o') :
    Owns o' := by
  have h := syncHooks_of_sync h
  cases a with
  | startSection c created =>
    obtain rfl := Option.some.inj h
    split
    · rename_i hmay
      cases hm with
      | rest _ hstart =>
        rw [hstart c created rfl] at hmay
        cases hmay
      | launch _ _ _ hfrom =>
        -- the hooks of the run before it are over
        have hidle := hat.idle (RunnerPc.hookHome_of_not_live hfrom)
        refine ⟨hx.serves.load ?_, fun hh => ?_, fun hh => ?_⟩
        · rintro fd (⟨-, hr⟩ | ha)
          · cases hr
          · exact .inl (.inr ha)
        · exact absurd (hidle.symm.trans hh) (by simp)
        · exact absurd hh (by simp [hidle, TcpServerHook.usesOpened])
    · exact hx
  | _ =>
    have hframe : o'.socket = o.socket ∧ o'.runSocket = o.runSocket ∧
        (o'.hook = o.hook ∨ (o'.hook ≠ .storeSocket ∧ o'.hook.usesOpened = false ∧
          o'.hook.descriptor = none)) := by
      simp only [syncHooks, calls] at h
      grind -linarith [setHook, setStop, destroyAll, TcpServerHook.usesOpened,
        TcpServerHook.descriptor]
    obtain ⟨hsocket, hrun, hsame | ⟨hstoring, hopened, hnone⟩⟩ := hframe
    · exact hx.of_hook hsocket hrun hsame
    · exact hx.of_idle hsocket hrun hstoring hopened (.inl hnone)

/-! ## The client descriptors -/

/-- What a handler has loaded is the descriptor of its session, and open. -/
def Receiving (o : TcpServer C) : Prop :=
  ∀ d i, (o.session d).handler.descriptor = some i → i = d ∧ o.clients.IsOpen i

/-- The handlers load nothing, and what they have loaded is not closed. -/
theorem Receiving.of_step (hx : Receiving o)
    (hopen : ∀ i, o.Receives i → o.clients.IsOpen i → o'.clients.IsOpen i)
    (hsession : ∀ d, (o'.session d).handler = (o.session d).handler ∨
      (o'.session d).handler.descriptor = none) : Receiving o' := by
  intro d i hd
  rcases hsession d with hsame | hnone
  · rw [hsame] at hd
    obtain ⟨hid, hi⟩ := hx d i hd
    exact ⟨hid, hopen i (by rw [Receives, hid]; exact hid ▸ hd) hi⟩
  · rw [hnone] at hd
    cases hd

/-- A step that closes no descriptor. -/
theorem Receiving.of_same (hx : Receiving o)
    (hclients : ∀ i, o.clients.IsOpen i → o'.clients.IsOpen i)
    (hsession : ∀ d, (o'.session d).handler = (o.session d).handler ∨
      (o'.session d).handler.descriptor = none) : Receiving o' :=
  hx.of_step (fun i _ hi => hclients i hi) hsession

theorem Receiving.close (hx : Receiving o) {k : ClientPlace (TcpServerCaller C)}
    (hclients : o'.clients = o.clients.close k)
    (hunused : ∀ i ∈ o.clients.place k, ¬ o.Receives i)
    (hsession : ∀ d, (o'.session d).handler = (o.session d).handler ∨
      (o'.session d).handler.descriptor = none) : Receiving o' := by
  refine hx.of_step (fun i hr hi => ?_) hsession
  rw [hclients]
  exact hi.close fun hplace => hunused i hplace hr

theorem handler_setHandler {x : TcpServer C} {i : Nat} {p : HandlerPc}
    (hsession : x.session = o.session) (hp : p.descriptor = none) (d : Nat) :
    ((x.setHandler i p).session d).handler = (o.session d).handler ∨
      ((x.setHandler i p).session d).handler.descriptor = none := by
  by_cases hdi : d = i
  · subst hdi
    exact .inr (by simp [setHandler, setSession, hp])
  · exact .inl (by simp [setHandler, setSession, hdi, hsession])

theorem HandlerMove.descriptor {stopRequested : Bool} {socket : Option Nat} {i : Nat}
    {p p' : HandlerPc} {a : TcpServerAction C} (h : HandlerMove stopRequested socket i p a p') :
    p'.descriptor = none ∨ p'.descriptor = socket := by
  cases h with
  | @buffer ok => cases ok <;> exact .inl rfl
  | continueRunning => cases stopRequested <;> exact .inl rfl
  | load => cases socket <;> exact .inr rfl
  | @recv _ r => cases r <;> exact .inl rfl
  | @callback threw => cases threw <;> exact .inl rfl

/-- What a handler loads is in its session, and open there. -/
theorem Receiving.setHandler (hx : Receiving o) (hplaced : Placed o) {i : Nat} {p : HandlerPc}
    (hp : p.descriptor = none ∨ p.descriptor = o.clients.place (.session i)) :
    Receiving (o.setHandler i p) := by
  intro d j hd
  by_cases hdi : d = i
  · subst hdi
    rw [show ((o.setHandler d p).session d).handler = p by simp [TcpServer.setHandler, setSession]]
      at hd
    have hplace : o.clients.place (.session d) = some j := by
      rcases hp with hp | hp
      · rw [hp] at hd
        cases hd
      · rwa [hp] at hd
    exact ⟨(hplaced.places _ j hplace).1, hplaced.custody.isOpen (by simp) hplace⟩
  · exact hx d j (by simpa [TcpServer.setHandler, setSession, hdi] using hd)

theorem Receiving.handleClient {a : TcpServerAction C} (hx : Receiving o) (hplaced : Placed o)
    (hok : ∀ i ∈ o.closesClient a, ¬ o.Receives i) (h : handleClient s o a = some o') :
    Receiving o' := by
  cases handlerStep_of_handleClient h with
  | move hmove => exact hx.setHandler hplaced hmove.descriptor
  | exchange => exact hx.of_same (fun _ => id) (handler_setHandler rfl rfl)
  | @close i => exact hx.close (k := .handler i) rfl hok (handler_setHandler rfl rfl)
  | @complete i =>
    refine hx.of_same (fun _ => id) fun d => ?_
    by_cases hdi : d = i
    · subst hdi
      exact .inr (by simp [setSession, HandlerPc.descriptor])
    · exact .inl (by simp [setSession, hdi])
  | returns => exact hx.of_same (fun _ => id) (handler_setHandler rfl rfl)

theorem Receiving.joinLoop {a : TcpServerAction C} (hx : Receiving o)
    (hok : ∀ i ∈ o.closesClient a, ¬ o.Receives i) (h : o.joinLoop a = some o') :
    Receiving o' := by
  have hhandler := fun d => Or.inl (b := (o'.session d).handler.descriptor = none)
    ((joinLoop_handler h).1 d)
  cases loopStep_of_joinLoop h with
  | exchange | join => exact hx.of_same (fun _ => id) hhandler
  | @close j => exact hx.close (k := .joiner j) rfl hok hhandler

theorem Receiving.stopTriggered {a : TcpServerAction C} (hx : Receiving o)
    (hok : ∀ i ∈ o.closesClient a, ¬ o.Receives i) (h : o.stopTriggered a = some o') :
    Receiving o' := by
  have hhandler := fun d => Or.inl (b := (o'.session d).handler.descriptor = none)
    (congrArg (fun f => (f d).handler) (stopTriggered_same h).1.session)
  cases a with
  | stopClientExchange c =>
    simp only [TcpServer.stopTriggered] at h
    split at h
    · obtain rfl := Option.some.inj h
      exact hx.of_same (fun _ => id) hhandler
    · cases h
  | stopClientClose c =>
    simp only [TcpServer.stopTriggered] at h
    split at h
    · obtain rfl := Option.some.inj h
      exact hx.close (k := .stopper c) rfl hok hhandler
    · cases h
  | _ =>
    have hclients : o'.clients = o.clients := by
      simp only [TcpServer.stopTriggered] at h
      grind -linarith [setStop]
    exact hx.of_same (fun _ hi => hclients ▸ hi) hhandler

theorem Receiving.startClientSession {i : Nat} {r : SessionStart} (hx : Receiving o)
    (hi : o.clients.place .accepted = some i)
    (hok : ∀ d ∈ o.closesClient (.startClientSession r), ¬ o.Receives d) :
    Receiving (o.startClientSession i r) := by
  have hsession : ∀ (x : Session), x.handler.descriptor = none → ∀ d,
      (Function.update o.session i x d).handler = (o.session d).handler ∨
        (Function.update o.session i x d).handler.descriptor = none := by
    intro x hnone d
    by_cases hdi : d = i
    · subst hdi
      exact .inr (by simp [hnone])
    · exact .inl (by simp [hdi])
  cases r with
  | notAdded => exact hx.of_same (fun _ => id) fun _ => .inl rfl
  | created => exact hx.of_same (fun _ => id) (hsession _ rfl)
  | notCreated =>
    refine hx.of_step (fun d hr hd => ?_) (hsession _ rfl)
    exact hd.closeCopy fun hdi => hok i hi (hdi ▸ hr)

theorem Receiving.run {a : TcpServerAction C} (hx : Receiving o)
    (hok : ∀ i ∈ o.closesClient a, ¬ o.Receives i) (h : run s o a = some o') :
    Receiving o' := by
  cases runStep_of_run h with
  | accepted => exact hx.of_same (fun _ hi => hi.accept) fun _ => .inl rfl
  | startClientSession _ hi => exact hx.startClientSession hi hok
  | closeSocketValue => exact hx.close (k := .accepted) rfl hok fun _ => .inl rfl
  | reaped | joined => exact hx.of_same (fun _ => id) fun d => .inl (handler_destroyAll d)
  | _ => exact hx.of_same (fun _ => id) fun _ => .inl rfl

theorem Receiving.own {a : TcpServerAction C} (hx : Receiving o) (hplaced : Placed o)
    (hok : ∀ i ∈ o.closesClient a, ¬ o.Receives i) (h : own s o a = some o') :
    Receiving o' := by
  obtain ⟨-, h | h | h | h | h | h⟩ := own_cases h
  · exact hx.of_same (fun _ hi => (preRun_clients h).1 ▸ hi)
      fun d => .inl (by rw [(preRun_same h).session])
  · exact hx.run hok h
  · exact hx.joinLoop hok h
  · exact hx.handleClient hplaced hok h
  · exact hx.stopTriggered hok h
  · have hclients : o'.clients = o.clients := by
      cases a <;> simp only [destroy] at h <;>
        grind -linarith [spliceAll, endLoop, destroyAll, setLoop]
    exact hx.of_same (fun _ hi => hclients ▸ hi) fun d => .inl ((destroy_handler h).1 d)

theorem owns_of_reachable {s : Object (TcpServerCaller C) (TcpServer C)}
    (hr : (TCPServer_V2 C).system.ReachableBy ClosesUnused s) : Owns s.ext ∧ Receiving s.ext := by
  refine ReachableBy.invariant (P := fun s => Owns s.ext ∧ Receiving s.ext) ?_ ?_ hr
  · refine ⟨⟨⟨TcpSocket.inCustody_init, ?_⟩, fun hh => (by cases hh), fun hh => (by cases hh)⟩,
      fun _ _ h => (by cases h)⟩
    rintro fd (⟨hh, -⟩ | hh) <;> cases hh
  · rintro s a t hr ⟨hx, hc⟩ hok hs
    cases a with
    | base a =>
      obtain ⟨hb, hy⟩ := Derived.step_base.mp hs
      obtain ⟨hi, hu⟩ := Derived.inherits hr
      have hm := BaseWorker.moves_of_step hi hu hb
      refine ⟨hx.sync (hookAt_of_reachable hr) hm hy, hc.of_same (fun _ hd => ?_) fun d => ?_⟩
      · rwa [sync_clients hy]
      · exact .inl ((sync_handler hy).1 d)
    | own a =>
      have hy := (Derived.step_own.mp hs).2
      exact ⟨hx.own hok.1 hy, hc.own (placed_of_reachable hr) hok.2 hy⟩

def receivingSchedule : List (ObjectAction (TcpServerCaller Bool) (TcpServerAction Bool)) :=
  [.own (.startClientSession .created), .own (.handlerBuffer 0 true),
    .own (.handlerContinueRunning 0), .own (.handlerLoad 0)]

/-- `requestStop` by thread `true` closes the listening socket and the client's. -/
def closingSchedule : List (ObjectAction (TcpServerCaller Bool) (TcpServerAction Bool)) :=
  [.base (.call (.user true) .requestStop), .base (.stopSection (.user true)),
    .own (.stopExchange (.user true)), .own (.stopClose (.user true)),
    .own (.stopLock (.user true)), .own (.stopClientExchange (.user true)),
    .own (.stopClientClose (.user true))]

end TcpServer

namespace TcpClient

def receivingSchedule : List (ObjectAction (ClientCaller Bool) (ClientAction Bool)) :=
  [.own (.readerBuffer true), .own .readerContinueRunning, .own .readerLoad]

end TcpClient

/-- If no descriptor is closed between its load and the system call on it, every system call
is on a descriptor that the object has opened, or accepted, and not closed yet. -/
theorem system_calls_on_open_descriptors (C : Type) [DecidableEq C] :
    (∀ s, (TCPClient_V2 C).system.ReachableBy TcpClient.ClosesUnused s →
      (s.ext.hook = .connect → ∃ fd, s.ext.runSocket = some fd) ∧
        ∀ fd, s.ext.Issues fd → s.ext.socket.IsOpen fd) ∧
    (∀ s, (TCPServer_V2 C).system.ReachableBy TcpServer.ClosesUnused s →
      (s.ext.hook.usesOpened = true → ∃ fd, s.ext.runSocket = some fd) ∧
        (∀ fd, s.ext.Issues fd → s.ext.socket.IsOpen fd) ∧
        ∀ d i, (s.ext.session d).handler.descriptor = some i → s.ext.clients.IsOpen i) := by
  refine ⟨fun s hr => ?_, fun s hr => ?_⟩
  · have hx := TcpClient.owns_of_reachable hr
    exact ⟨hx.connecting, hx.serves.issued⟩
  · obtain ⟨hx, hc⟩ := TcpServer.owns_of_reachable hr
    exact ⟨hx.binding, hx.serves.issued, fun d i hd => (hc d i hd).2⟩

/-- A client that receives, and a server that serves one while a stop closes the listening
socket, which nobody has in hand. -/
theorem system_calls_on_open_descriptors_receiving :
    let S := (TCPClient_V2 Bool).system
    let T := (TCPServer_V2 Bool).system
    let s := S.after TcpClient.ClosesUnused S.init (TcpClient.openedSchedule ++
      TcpClient.connectedSchedule ++ TcpClient.threadsSchedule ++ TcpClient.receivingSchedule)
    let t := T.after TcpServer.ClosesUnused T.init (TcpServer.openedSchedule ++
      TcpServer.listeningSchedule ++ TcpServer.acceptSchedule ++ TcpServer.receivingSchedule ++
      TcpServer.closingSchedule.take 4)
    s.ext.socket.IsOpen 0 ∧ t.ext.clients.IsOpen 0 ∧ t.ext.socket.closed 0 = 1 := by
  intro S T s t
  have hs := (system_calls_on_open_descriptors Bool).1 s (reaches_after (by decide))
  have ht := (system_calls_on_open_descriptors Bool).2 t (reaches_after (by decide))
  exact ⟨hs.2 0 (by decide), ht.2.2 0 0 (by decide), by decide⟩

/-- A stop from another thread closes what the reader, the accept loop or a handler has in
hand. -/
theorem stop_closes_loaded_descriptor :
    (¬ ∀ s : Object (ClientCaller Bool) (TcpClient Bool),
      (TCPClient_V2 Bool).system.Reachable s → ∀ fd, s.ext.Issues fd →
        s.ext.socket.IsOpen fd) ∧
    ¬ ∀ s : Object (TcpServerCaller Bool) (TcpServer Bool),
      (TCPServer_V2 Bool).system.Reachable s → ∀ i, s.ext.Receives i → s.ext.clients.IsOpen i := by
  refine ⟨fun hclaim => ?_, fun hclaim => ?_⟩
  · let S := (TCPClient_V2 Bool).system
    have h := hclaim (S.after Free S.init (TcpClient.openedSchedule ++
      TcpClient.connectedSchedule ++ TcpClient.threadsSchedule ++ TcpClient.receivingSchedule ++
      TcpClient.stopSchedule (.user true))) (reaches_after (by decide)) 0 (by decide)
    revert h
    decide
  · let S := (TCPServer_V2 Bool).system
    have h := hclaim (S.after Free S.init (TcpServer.openedSchedule ++
      TcpServer.listeningSchedule ++ TcpServer.acceptSchedule ++ TcpServer.receivingSchedule ++
      TcpServer.closingSchedule)) (reaches_after (by decide)) 0 (by decide)
    revert h
    decide

end ThreadComponent
