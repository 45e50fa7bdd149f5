import ThreadComponent.TcpClientHooks

/-!
# The system calls of TCPClient_V2

`preRun` connects the descriptor that it has opened, the reader and the writer use the one
that they have loaded from `m_socket`. Whatever is loaded is open, and it stays open until
somebody closes it.
-/

set_option autoImplicit false
set_option linter.unusedSectionVars false

namespace ThreadComponent

open Transitions System

def ReaderPc.descriptor : ReaderPc → Option Nat
  | .recv socketFd => some socketFd
  | _ => none

def WriterPc.descriptor : WriterPc → Option Nat
  | .send _ _ socketFd => some socketFd
  | _ => none

namespace TcpClient
variable {C : Type} [DecidableEq C] {s t : BaseWorker (ClientCaller C)} {o o' : TcpClient C}
  {fd : Nat}

/-- A thread is about to issue a system call on the descriptor. -/
def Issues (o : TcpClient C) (fd : Nat) : Prop :=
  (o.hook = .connect ∧ o.runSocket = some fd) ∨ o.reader.descriptor = some fd ∨
    o.writer.descriptor = some fd

instance (o : TcpClient C) (fd : Nat) : Decidable (Issues o fd) := by
  unfold Issues
  infer_instance

def closes (o : TcpClient C) : ClientAction C → Option Nat
  | .close => o.socket.hand .worker
  | .stopClose c => o.socket.hand (.stopper c)
  | .destructorClose => o.socket.hand .destructor
  | _ => none

/-- No descriptor is closed between its load and the system call on it. -/
def ClosesUnused (s : Object (ClientCaller C) (TcpClient C)) :
    ObjectAction (ClientCaller C) (ClientAction C) → Prop
  | .own a => ∀ fd ∈ s.ext.closes a, ¬ s.ext.Issues fd
  | .base _ => True

instance (s : Object (ClientCaller C) (TcpClient C))
    (a : ObjectAction (ClientCaller C) (ClientAction C)) : Decidable (ClosesUnused s a) := by
  induction a using ObjectAction.casesOn <;> (unfold ClosesUnused; infer_instance)

structure Owns (o : TcpClient C) : Prop where
  serves : o.socket.Serves o.Issues
  storing : o.hook = .storeSocket →
    ∃ fd, o.runSocket = some fd ∧ o.socket.hand .worker = some fd
  connecting : o.hook = .connect → ∃ fd, o.runSocket = some fd

theorem Owns.of_step (hx : Owns o) (hserves : o'.socket.Serves o'.Issues)
    (hrun : o'.runSocket = o.runSocket)
    (hhook : (o'.hook = o.hook ∧ o'.socket.hand .worker = o.socket.hand .worker) ∨
      (o'.hook ≠ .storeSocket ∧ o'.hook ≠ .connect)) : Owns o' where
  serves := hserves
  storing hh := by
    rcases hhook with ⟨hsame, hhand⟩ | ⟨hne, -⟩
    · rw [hrun, hhand]
      exact hx.storing (hsame ▸ hh)
    · exact absurd hh hne
  connecting hh := by
    rcases hhook with ⟨hsame, -⟩ | ⟨-, hne⟩
    · exact hrun ▸ hx.connecting (hsame ▸ hh)
    · exact absurd hh hne

/-- What a thread is about to use it has been about to use before, or has loaded. -/
theorem Issues.of_step (hrun : o'.runSocket = o.runSocket)
    (hhook : o'.hook = o.hook ∨ o'.hook ≠ .connect)
    (hreader : o'.reader = o.reader ∨ o'.reader.descriptor = none ∨
      o'.reader.descriptor = o.socket.descriptor)
    (hwriter : o'.writer = o.writer ∨ o'.writer.descriptor = none ∨
      o'.writer.descriptor = o.socket.descriptor)
    (h : o'.Issues fd) : o.Issues fd ∨ o.socket.descriptor = some fd := by
  rcases h with ⟨hh, hr⟩ | hr | hw
  · rcases hhook with hsame | hne
    · exact .inl (.inl ⟨hsame ▸ hh, hrun ▸ hr⟩)
    · exact absurd hh hne
  · rcases hreader with hsame | hnone | hload
    · exact .inl (.inr (.inl (hsame ▸ hr)))
    · rw [hnone] at hr
      cases hr
    · exact .inr (hload ▸ hr)
  · rcases hwriter with hsame | hnone | hload
    · exact .inl (.inr (.inr (hsame ▸ hw)))
    · rw [hnone] at hw
      cases hw
    · exact .inr (hload ▸ hw)

theorem Owns.of_same (hx : Owns o) (hsocket : o'.socket = o.socket)
    (hrun : o'.runSocket = o.runSocket)
    (hhook : o'.hook = o.hook ∨ (o'.hook ≠ .storeSocket ∧ o'.hook ≠ .connect))
    (hreader : o'.reader = o.reader ∨ o'.reader.descriptor = none ∨
      o'.reader.descriptor = o.socket.descriptor)
    (hwriter : o'.writer = o.writer ∨ o'.writer.descriptor = none ∨
      o'.writer.descriptor = o.socket.descriptor) : Owns o' := by
  refine hx.of_step ?_ hrun (hhook.imp_left fun hsame => ⟨hsame, by rw [hsocket]⟩)
  rw [hsocket]
  exact hx.serves.load fun fd =>
    Issues.of_step hrun (hhook.imp_right And.right) hreader hwriter

/-- Somebody else takes the descriptor out of the member, or closes one that is not in use. -/
theorem Owns.stop (hx : Owns o) {k : Closer (ClientCaller C)} (hk : k ≠ .worker)
    (hsocket : o'.socket = o.socket.exchange k ∨
      (o'.socket = o.socket.close k ∧ ∀ fd ∈ o.socket.hand k, ¬ o.Issues fd))
    (hrun : o'.runSocket = o.runSocket) (hhook : o'.hook = o.hook)
    (hreader : o'.reader = o.reader) (hwriter : o'.writer = o.writer) : Owns o' := by
  have hissues : ∀ fd, o'.Issues fd → o.Issues fd := by
    intro fd hfd
    rwa [Issues, hhook, hrun, hreader, hwriter] at hfd
  rcases hsocket with hsocket | ⟨hsocket, hunused⟩
  · refine hx.of_step (hsocket ▸ hx.serves.exchange hissues) hrun (.inl ⟨hhook, ?_⟩)
    rw [hsocket, TcpSocket.exchange_hand_ne hk.symm]
  · refine hx.of_step (hsocket ▸ hx.serves.close hissues hunused) hrun (.inl ⟨hhook, ?_⟩)
    rw [hsocket, TcpSocket.close_hand_ne hk.symm]

/-! ## Steps of the class -/

theorem Owns.worker {a : ClientAction C} (hx : Owns o)
    (hok : ∀ fd ∈ o.closes a, ¬ o.Issues fd) (h : worker s o a = some o') : Owns o' := by
  -- a place of `preRun` other than `connect` uses nothing
  have hissues : ∀ x : TcpClient C, x.hook ≠ .connect → x.reader = o.reader →
      x.writer = o.writer → ∀ fd, x.Issues fd → o.Issues fd := by
    rintro x hhook hreader hwriter fd (⟨hh, -⟩ | hr | hw)
    · exact absurd hh hhook
    · exact .inr (.inl (hreader ▸ hr))
    · exact .inr (.inr (hwriter ▸ hw))
  cases workerStep_of_worker h with
  | openSocket =>
    exact ⟨hx.serves.openSocket (hissues _ (by simp) rfl rfl),
      fun _ => ⟨_, rfl, TcpSocket.openSocket_hand_self⟩, fun hh => (by cases hh)⟩
  | storeSocket hhook =>
    obtain ⟨i, hrun, hhand⟩ := hx.storing hhook
    refine ⟨hx.serves.store ?_, fun hh => (by cases hh), fun _ => ⟨i, hrun⟩⟩
    rintro fd (⟨-, hr⟩ | hfd)
    · exact .inr (hhand.trans (hrun.symm.trans hr))
    · exact .inl (.inr hfd)
  | exchange =>
    exact hx.of_step (hx.serves.exchange (hissues _ (by simp) rfl rfl)) rfl (.inr (by simp))
  | close =>
    exact hx.of_step (hx.serves.close (hissues _ (by simp) rfl rfl) hok) rfl (.inr (by simp))
  | @connect ok =>
    refine hx.of_same rfl rfl (.inr ?_) (.inl rfl) (.inl rfl)
    cases ok <;> exact ⟨nofun, nofun⟩
  | createReader => exact hx.of_same rfl rfl (.inr ⟨nofun, nofun⟩) (.inr (.inl rfl)) (.inl rfl)
  | createWriter => exact hx.of_same rfl rfl (.inr ⟨nofun, nofun⟩) (.inl rfl) (.inr (.inl rfl))
  | writerNotCreated hhook =>
    exact hx.of_same rfl rfl (.inr ⟨by simp [hhook], by simp [hhook]⟩) (.inl rfl) (.inl rfl)
  | runNotify =>
    have hframe : o.notify.runSocket = o.runSocket ∧ o.notify.reader = o.reader ∧
        (o.notify.writer = o.writer ∨ o.notify.writer.descriptor = none) := by
      rcases notify_cases o with hsame | ⟨-, hsame⟩
      · rw [hsame]
        exact ⟨rfl, rfl, .inl rfl⟩
      · rw [hsame]
        exact ⟨rfl, rfl, .inr rfl⟩
    obtain ⟨hrun, hreader, hwriter⟩ := hframe
    exact hx.of_same (notify_same o).1 hrun (.inr ⟨nofun, nofun⟩) (.inl hreader)
      (hwriter.imp_right .inl)
  | clearQueue | notOpened | readerNotCreated | joinReader | runStopped | joinWriter =>
    exact hx.of_same rfl rfl (.inr ⟨nofun, nofun⟩) (.inl rfl) (.inl rfl)

theorem Owns.readLoop {a : ClientAction C} (hx : Owns o) (h : readLoop s o a = some o') :
    Owns o' := by
  have hframe : o'.runSocket = o.runSocket ∧ o'.writer = o.writer ∧
      (o'.reader.descriptor = none ∨ o'.reader.descriptor = o.socket.descriptor) := by
    cases a <;> simp only [TcpClient.readLoop] at h <;> grind -linarith [ReaderPc.descriptor]
  obtain ⟨hrun, hwriter, hreader⟩ := hframe
  obtain ⟨hsocket, hhook, -⟩ := readLoop_same h
  exact hx.of_same hsocket hrun (.inl hhook) (.inr hreader) (.inl hwriter)

theorem Owns.writeLoop {a : ClientAction C} (hx : Owns o) (h : writeLoop s o a = some o') :
    Owns o' := by
  have hframe : o'.runSocket = o.runSocket ∧ o'.reader = o.reader ∧
      (o'.writer.descriptor = none ∨ o'.writer.descriptor = o.socket.descriptor) := by
    cases a <;> simp only [TcpClient.writeLoop, writerLoad, writerSend] at h <;>
      grind -linarith [WriterPc.descriptor]
  obtain ⟨hrun, hreader, hwriter⟩ := hframe
  obtain ⟨hsocket, hhook, -⟩ := writeLoop_same h
  exact hx.of_same hsocket hrun (.inl hhook) (.inl hreader) (.inr hwriter)

theorem Owns.stopTriggered {a : ClientAction C} (hx : Owns o)
    (hok : ∀ fd ∈ o.closes a, ¬ o.Issues fd) (h : o.stopTriggered a = some o') : Owns o' := by
  cases a with
  | stopExchange c =>
    simp only [TcpClient.stopTriggered, Option.ite_none_right_eq_some, Option.some.injEq] at h
    obtain ⟨-, rfl⟩ := h
    exact hx.stop (k := .stopper c) (by simp) (.inl rfl) rfl rfl rfl rfl
  | stopClose c =>
    simp only [TcpClient.stopTriggered, Option.ite_none_right_eq_some, Option.some.injEq] at h
    obtain ⟨-, rfl⟩ := h
    exact hx.stop (k := .stopper c) (by simp) (.inr ⟨rfl, hok⟩) rfl rfl rfl rfl
  | _ =>
    have hframe : o'.socket = o.socket ∧ o'.runSocket = o.runSocket ∧ o'.hook = o.hook ∧
        o'.reader = o.reader ∧ (o'.writer = o.writer ∨ o'.writer.descriptor = none) := by
      simp only [TcpClient.stopTriggered, clearOutboundQueue, notify] at h
      grind -linarith [setStop, WriterPc.descriptor]
    obtain ⟨hsocket, hrun, hhook, hreader, hwriter⟩ := hframe
    exact hx.of_same hsocket hrun (.inl hhook) (.inl hreader) (hwriter.imp_right .inl)

theorem Owns.destroy {a : ClientAction C} (hx : Owns o)
    (hok : ∀ fd ∈ o.closes a, ¬ o.Issues fd) (h : destroy s o a = some o') : Owns o' := by
  cases a with
  | destructorExchange =>
    simp only [TcpClient.destroy, Option.ite_none_right_eq_some, Option.some.injEq] at h
    obtain ⟨-, rfl⟩ := h
    exact hx.stop (k := .destructor) (by simp) (.inl rfl) rfl rfl rfl rfl
  | destructorClose =>
    simp only [TcpClient.destroy, Option.ite_none_right_eq_some, Option.some.injEq] at h
    obtain ⟨-, rfl⟩ := h
    exact hx.stop (k := .destructor) (by simp) (.inr ⟨rfl, hok⟩) rfl rfl rfl rfl
  | _ =>
    have hframe : o'.socket = o.socket ∧ o'.runSocket = o.runSocket ∧ o'.hook = o.hook ∧
        o'.reader = o.reader ∧ o'.writer = o.writer := by
      simp only [TcpClient.destroy, clearOutboundQueue] at h
      grind -linarith
    obtain ⟨hsocket, hrun, hhook, hreader, hwriter⟩ := hframe
    exact hx.of_same hsocket hrun (.inl hhook) (.inl hreader) (.inl hwriter)

theorem Owns.own {a : ClientAction C} (hx : Owns o)
    (hok : ∀ fd ∈ o.closes a, ¬ o.Issues fd) (h : own s o a = some o') : Owns o' := by
  obtain ⟨-, h | h | h | h | h | h⟩ := own_cases h
  · exact hx.worker hok h
  · exact hx.readLoop h
  · exact hx.writeLoop h
  · exact hx.stopTriggered hok h
  · have hframe : o'.runSocket = o.runSocket ∧ o'.reader = o.reader ∧
        (o'.writer = o.writer ∨ o'.writer.descriptor = none) := by
      cases a <;> simp only [send, notify] at h <;> grind -linarith [setSender, WriterPc.descriptor]
    obtain ⟨hsocket, hhook, -⟩ := send_same h
    exact hx.of_same hsocket hframe.1 (.inl hhook) (.inl hframe.2.1) (hframe.2.2.imp_right .inl)
  · exact hx.destroy hok h

/-! ## Steps of the worker -/

theorem Owns.sync {a : BaseAction (ClientCaller C)} (hx : Owns o) (hat : HookAt s.current o.hook)
    (hm : BaseWorker.Moves s a t) (h : sync s a o = some o') : Owns o' := by
  have h := syncHooks_of_sync h
  cases a with
  | startSection c created =>
    obtain rfl := Option.some.inj h
    split
    · rename_i hmay
      cases hm with
      | rest _ hstart =>
        rw [hstart c created rfl] at hmay
        cases hmay
      | launch _ _ _ hfrom =>
        -- the hooks of the run before it are over
        have hidle := hat.idle (RunnerPc.hookHome_of_not_live hfrom)
        have hhook : o.launch.hook = .idle := hidle
        refine ⟨hx.serves.load ?_, fun hh => ?_, fun hh => ?_⟩
        · rintro fd (⟨-, hr⟩ | hfd)
          · cases hr
          · exact .inl (.inr hfd)
        · rw [hhook] at hh
          cases hh
        · rw [hhook] at hh
          cases hh
    · exact hx
  | call c k =>
    have hframe : o'.socket = o.socket ∧ o'.runSocket = o.runSocket ∧
        (o'.hook = o.hook ∨ (o'.hook ≠ .storeSocket ∧ o'.hook ≠ .connect)) ∧
        (o'.reader = o.reader ∨ o'.reader.descriptor = none) ∧
        (o'.writer = o.writer ∨ o'.writer.descriptor = none) := by
      simp only [syncHooks] at h
      cases c <;> simp only [calls] at h <;>
        grind -linarith [setHook, ReaderPc.descriptor, WriterPc.descriptor]
    obtain ⟨hsocket, hrun, hhook, hreader, hwriter⟩ := hframe
    exact hx.of_same hsocket hrun hhook (hreader.imp_right .inl) (hwriter.imp_right .inl)
  | _ =>
    have hframe : o'.socket = o.socket ∧ o'.runSocket = o.runSocket ∧
        (o'.hook = o.hook ∨ (o'.hook ≠ .storeSocket ∧ o'.hook ≠ .connect)) ∧
        o'.reader = o.reader ∧ o'.writer = o.writer := by
      simp only [syncHooks] at h
      grind -linarith [setHook, setStop]
    obtain ⟨hsocket, hrun, hhook, hreader, hwriter⟩ := hframe
    exact hx.of_same hsocket hrun hhook (.inl hreader) (.inl hwriter)

theorem owns_of_reachable {s : Object (ClientCaller C) (TcpClient C)}
    (hr : (TCPClient_V2 C).system.ReachableBy ClosesUnused s) : Owns s.ext := by
  refine ReachableBy.invariant (P := fun s => Owns s.ext) ?_ ?_ hr
  · refine ⟨⟨TcpSocket.inCustody_init, ?_⟩, fun hh => (by cases hh), fun hh => (by cases hh)⟩
    rintro fd (⟨hh, -⟩ | hh | hh) <;> cases hh
  · intro s a t hr hx hok hs
    cases a with
    | base a =>
      obtain ⟨hb, hy⟩ := Derived.step_base.mp hs
      obtain ⟨hi, hu⟩ := Derived.inherits hr
      exact hx.sync (hookAt_of_reachable hr) (BaseWorker.moves_of_step hi hu hb) hy
    | own a => exact hx.own hok (Derived.step_own.mp hs).2

end TcpClient

end ThreadComponent
