import ThreadComponent.TcpServerHooks

/-!
# The client descriptors of TCPServer_V2

Every accepted descriptor is in one place: with the accept loop, in its session, or in the
hands of a thread that is about to close it. A session with an open descriptor or a running
handler is in `m_clients` or in the local list of a joiner, which waits for it.
-/

set_option autoImplicit false
set_option linter.unusedSectionVars false

namespace ThreadComponent

open Transitions System Ownership

namespace ClientSockets
variable {T : Type} [DecidableEq T] {x : ClientSockets T} {h k j : ClientPlace T}

theorem accept_place : x.accept.place = Function.update x.place .accepted (some x.accepted) := rfl

@[simp] theorem move_place_to : (x.move h k).place k = x.place h := Function.update_self ..

theorem move_place_from (hne : h ≠ k) : (x.move h k).place h = none := by
  simp [move, hne]

@[simp] theorem move_place_ne (hj : j ≠ h) (hk : j ≠ k) : (x.move h k).place j = x.place j := by
  simp [move, hj, hk]

@[simp] theorem move_accepted : (x.move h k).accepted = x.accepted := rfl

@[simp] theorem close_place_self : (x.close k).place k = none := by
  unfold close
  split
  · exact Function.update_self ..
  · assumption

@[simp] theorem close_place_ne (hj : j ≠ k) : (x.close k).place j = x.place j := by
  unfold close
  split
  · exact Function.update_of_ne hj _ _
  · rfl

@[simp] theorem close_accepted : (x.close k).accepted = x.accepted := by
  unfold close
  split <;> rfl

/-- Every accepted descriptor is in one place and open, or closed once. -/
def Accounts (x : ClientSockets T) : Prop := Accounted x.place x.closed x.accepted

theorem accounts_init : Accounts ({} : ClientSockets T) := accounted_init

theorem Accounts.accept (hx : Accounts x) (hk : x.place .accepted = none) : Accounts x.accept :=
  Accounted.acquire hx hk

theorem Accounts.move (hx : Accounts x) (hk : x.place k = none) : Accounts (x.move h k) := by
  cases hh : x.place h with
  | none =>
    have hplace : (x.move h k).place = x.place := by
      funext a
      simp only [ClientSockets.move, Function.update_apply]
      split
      · simp_all
      · split <;> simp_all
    unfold Accounts
    rw [hplace]
    exact hx
  | some i =>
    have htransfer := Accounted.transfer hx hh hk
    rw [← hh] at htransfer
    exact htransfer

theorem Accounts.close (hx : Accounts x) : Accounts (x.close k) := by
  cases hk : x.place k with
  | none => simpa [ClientSockets.close, hk] using hx
  | some i =>
    have hrelease := Accounted.release hx hk
    simpa [Accounts, ClientSockets.close, hk] using hrelease

end ClientSockets

def TcpServerHook.holdsClient : TcpServerHook → Bool
  | .makeClientInfo | .startClientSession | .closeSocketValue => true
  | _ => false

def TcpServerHook.accepting : TcpServerHook → Bool
  | .continueRunning | .reapCompletedClients | .reaping | .load | .accept _ | .interrupted
  | .testStop | .requestStop | .stopping | .makeClientInfo | .startClientSession
  | .closeSocketValue | .joinAndClearAllClients => true
  | _ => false

def HandlerPc.running : HandlerPc → Bool
  | .absent | .exited => false
  | _ => true

def HandlerPc.holds : HandlerPc → Bool
  | .absent | .close | .complete | .returning | .exited => false
  | _ => true

namespace TcpServer
variable {C : Type} [DecidableEq C] {s t : BaseWorker (TcpServerCaller C)} {o o' : TcpServer C}

/-- The session is in `m_clients`, or a joiner has yet to wait for it. -/
def Listed (o : TcpServer C) (i : Nat) : Prop := i ∈ o.mClients ∨ ∃ j, i ∈ (o.loop j).todo

structure Kept (o : TcpServer C) : Prop where
  accounts : o.clients.Accounts
  accepted : o.hook.holdsClient = false → o.clients.place .accepted = none
  fresh : ∀ i, o.clients.accepted ≤ i ∨ o.clients.place .accepted = some i →
    (o.session i).handler = .absent
  session : ∀ i, (o.session i).handler.holds = false → o.clients.place (.session i) = none
  handler : ∀ i, (o.session i).handler ≠ .close → o.clients.place (.handler i) = none
  running : ∀ i, (o.session i).handler.running = true → Listed o i
  worker : ∀ i, (o.session i).worker = false → (o.session i).handler.running = false
  joiner : ∀ j, (o.loop j).pc ≠ .close → o.clients.place (.joiner j) = none
  finished : ∀ j, (o.loop j).todo = [] → (o.loop j).pc = .exchange
  runLoop : o.hook ≠ .reaping → o.hook ≠ .joining → (o.loop .run).todo = []
  destructorLoop : o.destructor ≠ .joining → (o.loop .destructor).todo = []
  stopper : ∀ c, (∀ todo, o.stop c ≠ .closeClient todo) → o.clients.place (.stopper c) = none
  closing : ∀ c todo, o.stop c = .closeClient todo →
    o.mClientsMutex = some c ∧ o.mClients ≠ []
  locked : ∀ c todo, o.stop c = .clients todo →
    o.mClientsMutex = some c ∧ (todo ≠ [] → o.mClients ≠ [])
  cleared : o.hook.accepting = false → o.mClients = []
  returns : ∀ e, o.hook ≠ .runDone (.threw e)

/-! ## The accept loop -/

theorem Kept.moveHook {hook : TcpServerHook} (hx : Kept o)
    (socket : TcpSocket (TcpServerCaller C)) (runSocket : Option Nat)
    (hholds : hook.holdsClient = false → o.hook.holdsClient = false)
    (hloop : hook ≠ .reaping ∧ hook ≠ .joining → (o.loop .run).todo = [])
    (haccepting : hook.accepting = false → o.mClients = [])
    (hreturns : ∀ e, hook ≠ .runDone (.threw e)) :
    Kept { o with hook := hook, socket := socket, runSocket := runSocket } :=
  { hx with
    accepted := fun hh => hx.accepted (hholds hh)
    runLoop := fun h1 h2 => hloop ⟨h1, h2⟩
    cleared := haccepting
    returns := hreturns }

theorem Kept.accept (hx : Kept o) (hhook : o.hook.holdsClient = false)
    (hloop : (o.loop .run).todo = []) :
    Kept { o with clients := o.clients.accept, hook := .makeClientInfo } := by
  have hempty := hx.accepted hhook
  have hplace : ∀ p, p ≠ .accepted → o.clients.accept.place p = o.clients.place p :=
    fun p hp => Function.update_of_ne hp _ _
  exact
    { hx with
      accounts := hx.accounts.accept hempty
      accepted := fun hh => by cases hh
      fresh := fun i hi => hx.fresh i <| .inl <| by
        rcases hi with hi | hi
        · exact Nat.le_of_succ_le hi
        · have hacc : some o.clients.accepted = some i := by
            rw [← hi, ClientSockets.accept_place, Function.update_self]
          simp only [Option.some.injEq] at hacc
          exact Nat.le_of_eq hacc
      session := fun i hi => by rw [hplace _ (by simp)]; exact hx.session i hi
      handler := fun i hi => by rw [hplace _ (by simp)]; exact hx.handler i hi
      joiner := fun j hj => by rw [hplace _ (by simp)]; exact hx.joiner j hj
      stopper := fun c hc => by rw [hplace _ (by simp)]; exact hx.stopper c hc
      runLoop := fun _ _ => hloop
      cleared := fun hh => by cases hh
      returns := fun e he => by cases he }

theorem Kept.closeSocketValue (hx : Kept o) (hloop : (o.loop .run).todo = []) :
    Kept { o with clients := o.clients.close .accepted, hook := .continueRunning } :=
  { hx with
    accounts := hx.accounts.close
    accepted := fun _ => ClientSockets.close_place_self
    fresh := fun i hi => hx.fresh i <| .inl <| by
      rcases hi with hi | hi
      · simpa using hi
      · rw [ClientSockets.close_place_self] at hi
        cases hi
    session := fun i hi => by rw [ClientSockets.close_place_ne (by simp)]; exact hx.session i hi
    handler := fun i hi => by rw [ClientSockets.close_place_ne (by simp)]; exact hx.handler i hi
    joiner := fun j hj => by rw [ClientSockets.close_place_ne (by simp)]; exact hx.joiner j hj
    stopper := fun c hc => by rw [ClientSockets.close_place_ne (by simp)]; exact hx.stopper c hc
    runLoop := fun _ _ => hloop
    cleared := fun hh => by cases hh
    returns := fun e he => by cases he }

theorem Listed.mono {i : Nat} (h : Listed o i) (hclients : o.mClients ⊆ o'.mClients)
    (hloop : ∀ j, (o.loop j).todo ⊆ (o'.loop j).todo) : Listed o' i := by
  rcases h with h | ⟨j, h⟩
  · exact .inl (hclients h)
  · exact .inr ⟨j, hloop j h⟩

theorem Kept.not_closing (hx : Kept o) (hfree : o.mClientsMutex = none)
    (c : TcpServerCaller C) (todo : List Nat) :
    o.stop c ≠ .closeClient todo ∧ o.stop c ≠ .clients todo := by
  constructor
  · intro hc
    have hmutex := (hx.closing c todo hc).1
    rw [hfree] at hmutex
    cases hmutex
  · intro hc
    have hmutex := (hx.locked c todo hc).1
    rw [hfree] at hmutex
    cases hmutex

/-- The session for the accepted descriptor is added and its thread is created. -/
theorem Kept.created {i : Nat} (hx : Kept o) (hi : o.clients.place .accepted = some i)
    (hfree : o.mClientsMutex = none) (hloop : (o.loop .run).todo = []) :
    Kept (o.startClientSession i .created) := by
  have habsent := hx.fresh i (.inr hi)
  have hempty := hx.session i (by rw [habsent]; rfl)
  have hlt : i < o.clients.accepted := (Accounted.held hx.accounts hi).1
  have hsame : ∀ d, d ≠ i →
      (o.startClientSession i .created).session d = o.session d := fun d hd => by
    simp [startClientSession, setSession, hd]
  have hnew : (o.startClientSession i .created).session i =
      { worker := true, handler := .entry } := by
    simp [startClientSession, setSession]
  have hplace : ∀ p, p ≠ .accepted → p ≠ .session i →
      (o.startClientSession i .created).clients.place p = o.clients.place p :=
    fun p h1 h2 => ClientSockets.move_place_ne h1 h2
  exact
    { accounts := hx.accounts.move hempty
      accepted := fun _ => ClientSockets.move_place_from (by simp)
      fresh := fun d hd => by
        rcases hd with hd | hd
        · have hdi : d ≠ i := by
            rintro rfl
            exact absurd hlt (Nat.not_lt_of_le hd)
          rw [hsame d hdi]
          exact hx.fresh d (.inl hd)
        · have hnone : (o.clients.move .accepted (.session i)).place .accepted = none :=
            ClientSockets.move_place_from (by simp)
          exact absurd (hnone.symm.trans hd) (by simp)
      session := fun d hd => by
        by_cases hdi : d = i
        · subst hdi
          rw [hnew] at hd
          cases hd
        · rw [hsame d hdi] at hd
          rw [hplace _ (by simp) (by simpa using hdi)]
          exact hx.session d hd
      handler := fun d hd => by
        rw [hplace _ (by simp) (by simp)]
        by_cases hdi : d = i
        · subst hdi
          exact hx.handler d (by simp [habsent])
        · rw [hsame d hdi] at hd
          exact hx.handler d hd
      running := fun d hd => by
        by_cases hdi : d = i
        · subst hdi
          exact .inl (List.mem_append_right _ (List.mem_singleton_self _))
        · rw [hsame d hdi] at hd
          exact (hx.running d hd).mono (List.subset_append_left _ _) fun _ => List.Subset.refl _
      worker := fun d hd => by
        by_cases hdi : d = i
        · subst hdi
          rw [hnew] at hd
          cases hd
        · rw [hsame d hdi] at hd ⊢
          exact hx.worker d hd
      joiner := fun j hj => by
        rw [hplace _ (by simp) (by simp)]
        exact hx.joiner j hj
      finished := hx.finished
      runLoop := fun _ _ => hloop
      destructorLoop := hx.destructorLoop
      stopper := fun c hc => by
        rw [hplace _ (by simp) (by simp)]
        exact hx.stopper c hc
      closing := fun c todo hc => absurd hc (hx.not_closing hfree c todo).1
      locked := fun c todo hc => absurd hc (hx.not_closing hfree c todo).2
      cleared := fun hh => by cases hh
      returns := fun e he => by cases he }

/-! ## Joiners -/

theorem Kept.splice (hx : Kept o) (j : Joiner) (kept taken : List Nat) (hook : TcpServerHook)
    (destructor : TcpServerDestructor) (hfree : o.mClientsMutex = none)
    (htodo : (o.loop j).todo = []) (hall : ∀ i, i ∈ o.mClients → i ∈ kept ∨ i ∈ taken)
    (hholds : hook.holdsClient = false → o.hook.holdsClient = false)
    (hrun : hook ≠ .reaping → hook ≠ .joining → j ≠ .run ∧ (o.loop .run).todo = [])
    (hdtor : destructor ≠ .joining → j ≠ .destructor ∧ (o.loop .destructor).todo = [])
    (haccepting : hook.accepting = false → kept = [])
    (hreturns : ∀ e, hook ≠ .runDone (.threw e)) :
    Kept { o.setLoop j { todo := taken } with
      mClients := kept, hook := hook, destructor := destructor } := by
  have hloop : ∀ k, k ≠ j → Function.update o.loop j { todo := taken } k = o.loop k :=
    fun k hk => Function.update_of_ne hk _ _
  exact
    { hx with
      accepted := fun hh => hx.accepted (hholds hh)
      running := fun i hi => by
        rcases hx.running i hi with hm | ⟨k, hk⟩
        · rcases hall i hm with h | h
          · exact .inl h
          · exact .inr ⟨j, by simpa [setLoop] using h⟩
        · have hkj : k ≠ j := by
            rintro rfl
            rw [htodo] at hk
            cases hk
          exact .inr ⟨k, by simpa [setLoop, hkj] using hk⟩
      joiner := fun k hk => by
        by_cases hkj : k = j
        · subst hkj
          exact hx.joiner k (by simp [hx.finished k htodo])
        · exact hx.joiner k (by simpa [setLoop, hkj] using hk)
      finished := fun k hk => by
        by_cases hkj : k = j
        · subst hkj
          simp [setLoop]
        · have hold := hx.finished k (by simpa [setLoop, hkj] using hk)
          simpa [setLoop, hkj] using hold
      runLoop := fun h1 h2 => by
        obtain ⟨hj, hnil⟩ := hrun h1 h2
        simpa [setLoop, hj.symm] using hnil
      destructorLoop := fun hd => by
        obtain ⟨hj, hnil⟩ := hdtor hd
        simpa [setLoop, hj.symm] using hnil
      closing := fun c todo hc => absurd hc (hx.not_closing hfree c todo).1
      locked := fun c todo hc => absurd hc (hx.not_closing hfree c todo).2
      cleared := haccepting
      returns := hreturns }

/-- The local list of a joiner goes out of scope when its loop is over. -/
theorem Kept.endLoop (hx : Kept o) (j : Joiner) (hook : TcpServerHook)
    (destructor : TcpServerDestructor) (htodo : (o.loop j).todo = [])
    (hholds : hook.holdsClient = false → o.hook.holdsClient = false)
    (hrun : hook ≠ .reaping → hook ≠ .joining → (o.loop .run).todo = [])
    (hdtor : destructor ≠ .joining → (o.loop .destructor).todo = [])
    (haccepting : hook.accepting = false → o.mClients = [])
    (hreturns : ∀ e, hook ≠ .runDone (.threw e)) :
    Kept { o.endLoop j with hook := hook, destructor := destructor } := by
  have hsession : ∀ i, ((o.endLoop j).session i).handler = (o.session i).handler ∧
      ((o.endLoop j).session i).worker = (o.session i).worker := fun i => by
    simp only [TcpServer.endLoop, destroyAll, setLoop]
    split <;> exact ⟨rfl, rfl⟩
  have hloop : ∀ k, ((o.endLoop j).loop k).todo = (o.loop k).todo ∧
      ((o.endLoop j).loop k).pc = (o.loop k).pc := fun k => by
    by_cases hkj : k = j
    · subst hkj
      simp [TcpServer.endLoop, setLoop, htodo, hx.finished k htodo]
    · simp [TcpServer.endLoop, setLoop, destroyAll, hkj]
  exact
    { accounts := hx.accounts
      accepted := fun hh => hx.accepted (hholds hh)
      fresh := fun i hi => (hsession i).1.trans (hx.fresh i hi)
      session := fun i hi => hx.session i ((hsession i).1 ▸ hi)
      handler := fun i hi => hx.handler i ((hsession i).1 ▸ hi)
      running := fun i hi =>
        (hx.running i ((hsession i).1 ▸ hi)).mono (List.Subset.refl _) fun k =>
          (hloop k).1 ▸ List.Subset.refl _
      worker := fun i hi => by
        rw [(hsession i).1]
        exact hx.worker i ((hsession i).2 ▸ hi)
      joiner := fun k hk => hx.joiner k ((hloop k).2 ▸ hk)
      finished := fun k hk => (hloop k).2.trans (hx.finished k ((hloop k).1 ▸ hk))
      runLoop := fun h1 h2 => (hloop .run).1.trans (hrun h1 h2)
      destructorLoop := fun hd => (hloop .destructor).1.trans (hdtor hd)
      stopper := hx.stopper
      closing := hx.closing
      locked := hx.locked
      cleared := haccepting
      returns := hreturns }

theorem Kept.loopExchange {j : Joiner} {joined todo : List Nat} {i : Nat} (hx : Kept o)
    (hj : o.loop j = ⟨joined, i :: todo, .exchange⟩) :
    Kept ({ o with clients := o.clients.move (.session i) (.joiner j) }.setLoop j
      ⟨joined, i :: todo, .close⟩) := by
  have hempty := hx.joiner j (by simp [hj])
  have hloop : ∀ k, (Function.update o.loop j ⟨joined, i :: todo, .close⟩ k).todo =
      (o.loop k).todo := fun k => by
    by_cases hkj : k = j
    · subst hkj
      simp [hj]
    · simp [hkj]
  have hplace : ∀ p, p ≠ .joiner j → (o.clients.place p = none →
      (o.clients.move (.session i) (.joiner j)).place p = none) := fun p hp hnone => by
    by_cases hpi : p = .session i
    · rw [hpi]
      exact ClientSockets.move_place_from (by simp)
    · rw [ClientSockets.move_place_ne hpi hp]
      exact hnone
  exact
    { hx with
      accounts := hx.accounts.move hempty
      accepted := fun hh => hplace _ (by simp) (hx.accepted hh)
      fresh := fun d hd => hx.fresh d (by simpa [setLoop] using hd)
      session := fun d hd => hplace _ (by simp) (hx.session d hd)
      handler := fun d hd => hplace _ (by simp) (hx.handler d hd)
      running := fun d hd => (hx.running d hd).mono (List.Subset.refl _) fun k =>
        (hloop k).symm ▸ List.Subset.refl _
      joiner := fun k hk => by
        by_cases hkj : k = j
        · subst hkj
          simp [setLoop] at hk
        · exact hplace _ (by simpa using hkj)
            (hx.joiner k (by simpa [setLoop, hkj] using hk))
      finished := fun k hk => by
        by_cases hkj : k = j
        · subst hkj
          simp [setLoop] at hk
        · have hold := hx.finished k (by simpa [setLoop, hkj] using hk)
          simpa [setLoop, hkj] using hold
      runLoop := fun h1 h2 => (hloop .run).trans (hx.runLoop h1 h2)
      destructorLoop := fun hd => (hloop .destructor).trans (hx.destructorLoop hd)
      stopper := fun c hc => hplace _ (by simp) (hx.stopper c hc) }

theorem Kept.loopClose {j : Joiner} {joined todo : List Nat} (hx : Kept o)
    (hj : o.loop j = ⟨joined, todo, .close⟩) :
    Kept ({ o with clients := o.clients.close (.joiner j) }.setLoop j ⟨joined, todo, .join⟩) := by
  have hloop : ∀ k, (Function.update o.loop j ⟨joined, todo, .join⟩ k).todo =
      (o.loop k).todo := fun k => by
    by_cases hkj : k = j
    · subst hkj
      simp [hj]
    · simp [hkj]
  have hplace : ∀ p, p ≠ .joiner j → (o.clients.close (.joiner j)).place p = o.clients.place p :=
    fun p hp => ClientSockets.close_place_ne hp
  exact
    { hx with
      accounts := hx.accounts.close
      accepted := fun hh => (hplace _ (by simp)).trans (hx.accepted hh)
      fresh := fun d hd => hx.fresh d (by simpa [setLoop] using hd)
      session := fun d hd => (hplace _ (by simp)).trans (hx.session d hd)
      handler := fun d hd => (hplace _ (by simp)).trans (hx.handler d hd)
      running := fun d hd => (hx.running d hd).mono (List.Subset.refl _) fun k =>
        (hloop k).symm ▸ List.Subset.refl _
      joiner := fun k hk => by
        by_cases hkj : k = j
        · subst hkj
          exact ClientSockets.close_place_self
        · exact (hplace _ (by simpa using hkj)).trans
            (hx.joiner k (by simpa [setLoop, hkj] using hk))
      finished := fun k hk => by
        by_cases hkj : k = j
        · subst hkj
          have hnil := hx.finished k (by simpa [setLoop, hj] using hk)
          rw [hj] at hnil
          cases hnil
        · have hold := hx.finished k (by simpa [setLoop, hkj] using hk)
          simpa [setLoop, hkj] using hold
      runLoop := fun h1 h2 => (hloop .run).trans (hx.runLoop h1 h2)
      destructorLoop := fun hd => (hloop .destructor).trans (hx.destructorLoop hd)
      stopper := fun c hc => (hplace _ (by simp)).trans (hx.stopper c hc) }

/-- A joiner has waited for the handler of its session, so nobody needs to find it again. -/
theorem Kept.loopJoin {j : Joiner} {joined todo : List Nat} {i : Nat} (hx : Kept o)
    (hj : o.loop j = ⟨joined, i :: todo, .join⟩)
    (hexited : (o.session i).worker = true → (o.session i).handler = .exited) :
    Kept ((o.setSession i { o.session i with worker := false }).setLoop j
      ⟨joined ++ [i], todo, .exchange⟩) := by
  have hdone : (o.session i).handler.running = false := by
    cases hw : (o.session i).worker with
    | false => exact hx.worker i hw
    | true => rw [hexited hw]; rfl
  have hsession : ∀ d, (Function.update o.session i
      { o.session i with worker := false } d).handler = (o.session d).handler := fun d => by
    by_cases hdi : d = i
    · subst hdi
      simp
    · simp [hdi]
  have hsub : ∀ k, (Function.update o.loop j ⟨joined ++ [i], todo, .exchange⟩ k).todo ⊆
      (o.loop k).todo := fun k => by
    by_cases hkj : k = j
    · subst hkj
      simp [hj]
    · simp [hkj]
  exact
    { hx with
      fresh := fun d hd => (hsession d).trans (hx.fresh d hd)
      session := fun d hd => hx.session d ((hsession d) ▸ hd)
      handler := fun d hd => hx.handler d ((hsession d) ▸ hd)
      running := fun d hd => by
        have hlive : (o.session d).handler.running = true := hsession d ▸ hd
        rcases hx.running d hlive with hm | ⟨k, hk⟩
        · exact .inl hm
        · refine .inr ⟨k, ?_⟩
          by_cases hkj : k = j
          · subst hkj
            rw [hj] at hk
            rcases List.mem_cons.mp hk with rfl | hk
            · rw [hdone] at hlive
              cases hlive
            · simpa [setLoop] using hk
          · simpa [setLoop, setSession, hkj] using hk
      worker := fun d hd => by
        change (Function.update o.session i _ d).handler.running = false
        rw [hsession d]
        by_cases hdi : d = i
        · subst hdi
          exact hdone
        · exact hx.worker d (by simpa [setLoop, setSession, hdi] using hd)
      joiner := fun k hk => by
        by_cases hkj : k = j
        · subst hkj
          exact hx.joiner k (by simp [hj])
        · exact hx.joiner k (by simpa [setLoop, setSession, hkj] using hk)
      finished := fun k hk => by
        by_cases hkj : k = j
        · subst hkj
          simp [setLoop]
        · have hold := hx.finished k (by simpa [setLoop, setSession, hkj] using hk)
          simpa [setLoop, setSession, hkj] using hold
      runLoop := fun h1 h2 => List.subset_nil.mp (hx.runLoop h1 h2 ▸ hsub .run)
      destructorLoop := fun hd => List.subset_nil.mp (hx.destructorLoop hd ▸ hsub .destructor) }

end TcpServer

end ThreadComponent
