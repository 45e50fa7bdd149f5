import ThreadComponent.History
import ThreadComponent.TcpDestructors

/-!
# The session threads of TCPServer_V2

A session is in `m_clients` until a joiner takes it into its local list, joins its thread and
destroys it with the list. The history of a run counts the joins of every session.
-/

set_option autoImplicit false
set_option linter.unusedSectionVars false

namespace ThreadComponent

open Transitions System

/-- Is the accept loop on its way to the session of the descriptor in its hand? -/
def TcpServerHook.starting : TcpServerHook → Bool
  | .makeClientInfo | .startClientSession => true
  | _ => false

theorem TcpServerHook.home_of_starting {hook : TcpServerHook} (h : hook.starting = true) :
    hook.home = some .run := by
  cases hook <;> first | rfl | cases h

/-- A session with the numbers of lists that have it yet to be joined and already joined, and
the number of joins of its thread. -/
inductive SessionAccount (x : Session) : (waiting joined joins : Nat) → Prop where
  | unborn (hhandler : x.handler = .absent) (hworker : x.worker = false) : SessionAccount x 0 0 0
  | waiting (hstarted : x.handler ≠ .absent) (hworker : x.worker = true)
      (hlive : x.destroyed = false) : SessionAccount x 1 0 0
  | joined (hreturned : x.handler = .exited) (hworker : x.worker = false)
      (hlive : x.destroyed = false) : SessionAccount x 0 1 1
  | gone (hreturned : x.handler = .exited) (hworker : x.worker = false)
      (hgone : x.destroyed = true) : SessionAccount x 0 0 1

namespace SessionAccount
variable {x y : Session} {waiting joined joins : Nat}

theorem joins_le_one (h : SessionAccount x waiting joined joins) : joins ≤ 1 := by
  cases h <;> omega

theorem lists_le_one (h : SessionAccount x waiting joined joins) : waiting + joined ≤ 1 := by
  cases h <;> omega

theorem of_destroyed (h : SessionAccount x waiting joined joins) (hgone : x.destroyed = true) :
    x.handler = .absent ∨ (x.handler = .exited ∧ joins = 1) := by
  cases h with
  | unborn hhandler => exact .inl hhandler
  | waiting _ _ hlive | joined _ _ hlive => rw [hlive] at hgone; cases hgone
  | gone hreturned => exact .inr ⟨hreturned, rfl⟩

theorem of_started (h : SessionAccount x waiting joined joins) (hstarted : x.handler ≠ .absent) :
    joins = 1 ∨ (joins = 0 ∧ waiting = 1) := by
  cases h with
  | unborn hhandler => exact absurd hhandler hstarted
  | waiting => exact .inr ⟨rfl, rfl⟩
  | joined | gone => exact .inl rfl

theorem of_waiting (h : SessionAccount x waiting joined joins) (hpos : 0 < waiting) :
    x.handler ≠ .absent ∧ joins = 0 := by
  cases h with
  | waiting hstarted => exact ⟨hstarted, rfl⟩
  | _ => cases hpos

theorem handle (h : SessionAccount x waiting joined joins) (hrunning : x.handler.running = true)
    (hstarted : y.handler ≠ .absent) (hworker : y.worker = x.worker)
    (hdestroyed : y.destroyed = x.destroyed) : SessionAccount y waiting joined joins := by
  cases h with
  | unborn hhandler => rw [hhandler] at hrunning; cases hrunning
  | waiting _ hw hlive => exact .waiting hstarted (hworker.trans hw) (hdestroyed.trans hlive)
  | joined hreturned | gone hreturned => rw [hreturned] at hrunning; cases hrunning

theorem join (h : SessionAccount x (waiting + 1) joined joins)
    (hexited : x.worker = true → x.handler = .exited) :
    SessionAccount { x with worker := false } waiting (joined + 1) (joins + 1) ∧
      x.worker = true := by
  cases h with
  | waiting _ hworker hlive => exact ⟨.joined (hexited hworker) rfl hlive, hworker⟩

theorem destroy (h : SessionAccount x waiting (joined + 1) joins) :
    SessionAccount { x with destroyed := true } waiting joined joins := by
  cases h with
  | joined hreturned hworker => exact .gone hreturned hworker rfl

theorem unborn_of_absent (h : SessionAccount x waiting joined joins)
    (habsent : x.handler = .absent) :
    waiting = 0 ∧ joined = 0 ∧ joins = 0 ∧ x.worker = false := by
  cases h with
  | unborn _ hworker => exact ⟨rfl, rfl, rfl, hworker⟩
  | waiting hstarted => exact absurd habsent hstarted
  | joined hreturned | gone hreturned => rw [habsent] at hreturned; cases hreturned

end SessionAccount

namespace TcpServer
variable {C : Type} [DecidableEq C] {s t : BaseWorker (TcpServerCaller C)} {o o' : TcpServer C}

def sessionLists (o : TcpServer C) : List Nat :=
  o.mClients ++ ((o.loop .run).todo ++ (o.loop .destructor).todo) ++
    ((o.loop .run).joined ++ (o.loop .destructor).joined)

/-- The number of lists that have session `i` yet to be joined. -/
def waiting (o : TcpServer C) (i : Nat) : Nat :=
  o.mClients.count i + ((o.loop .run).todo.count i + (o.loop .destructor).todo.count i)

def joined (o : TcpServer C) (i : Nat) : Nat :=
  (o.loop .run).joined.count i + (o.loop .destructor).joined.count i

theorem count_sessionLists (i : Nat) : o.sessionLists.count i = o.waiting i + o.joined i := by
  simp only [sessionLists, waiting, joined, List.count_append]

theorem listed_of_waiting {i : Nat} (h : 0 < o.waiting i) : Listed o i := by
  unfold waiting at h
  have hcases : 0 < o.mClients.count i ∨ 0 < (o.loop .run).todo.count i ∨
      0 < (o.loop .destructor).todo.count i := by omega
  rcases hcases with h | h | h
  · exact .inl (List.count_pos_iff.mp h)
  · exact .inr ⟨.run, List.count_pos_iff.mp h⟩
  · exact .inr ⟨.destructor, List.count_pos_iff.mp h⟩

/-- Every session's thread has been joined as often as its place says, and the session that
is about to be started has none yet. -/
structure Ledger (o : TcpServer C) (joins : Nat → Nat) : Prop where
  account : ∀ i, SessionAccount (o.session i) (o.waiting i) (o.joined i) (joins i)
  fresh : ∀ i, o.clients.accepted ≤ i → (o.session i).handler = .absent
  accepted : o.hook.starting = true → ∀ i, o.clients.place .accepted = some i →
    i < o.clients.accepted ∧ (o.session i).handler = .absent

variable {joins : Nat → Nat}

def SameLists (o o' : TcpServer C) : Prop :=
  o'.mClients = o.mClients ∧
    ∀ j, (o'.loop j).todo = (o.loop j).todo ∧ (o'.loop j).joined = (o.loop j).joined

/-- Nothing is accepted, and what is in hand on the way to a session has been there before. -/
def SameAccepted (o o' : TcpServer C) : Prop :=
  o'.clients.accepted = o.clients.accepted ∧ (o'.hook.starting = true → o.hook.starting = true ∧
    o'.clients.place .accepted = o.clients.place .accepted)

theorem SameLists.waiting_joined (h : SameLists o o') (i : Nat) :
    o'.waiting i = o.waiting i ∧ o'.joined i = o.joined i := by
  obtain ⟨hclients, hloop⟩ := h
  simp only [waiting, joined, hclients, hloop, and_self]

theorem SameLists.of_eq (h : o'.mClients = o.mClients ∧ o'.loop = o.loop) : SameLists o o' := by
  obtain ⟨hclients, hloop⟩ := h
  exact ⟨hclients, fun j => by rw [hloop]; exact ⟨rfl, rfl⟩⟩

theorem SameAccepted.of_eq (h : o'.clients = o.clients ∧ o'.hook = o.hook) :
    SameAccepted o o' := by
  obtain ⟨hclients, hhook⟩ := h
  rw [SameAccepted, hclients, hhook]
  exact ⟨rfl, fun hs => ⟨hs, rfl⟩⟩

theorem preRun_accepted {a : TcpServerAction C} (h : o.preRun a = some o') :
    SameAccepted o o' := by
  refine ⟨congrArg ClientSockets.accepted (preRun_clients h).1, fun hs => ?_⟩
  exact absurd rfl
    (TcpServerHook.ne_of_run (preRun_home h).2 _ (TcpServerHook.home_of_starting hs))

theorem stopTriggered_accepted {a : TcpServerAction C} (h : o.stopTriggered a = some o') :
    SameAccepted o o' := by
  cases a with
  | stopClientExchange c =>
    simp only [TcpServer.stopTriggered] at h
    split at h
    · obtain rfl := Option.some.inj h
      exact ⟨rfl, fun hs => ⟨hs, ClientSockets.move_place_ne (by simp) (by simp)⟩⟩
    · cases h
  | stopClientClose c =>
    simp only [TcpServer.stopTriggered] at h
    split at h
    · obtain rfl := Option.some.inj h
      exact ⟨ClientSockets.close_accepted,
        fun hs => ⟨hs, ClientSockets.close_place_ne (by simp)⟩⟩
    · cases h
  | _ =>
    refine .of_eq ⟨?_, (stopTriggered_same h).2⟩
    simp only [TcpServer.stopTriggered] at h
    grind -linarith [setStop]

theorem Ledger.of_same (hx : Ledger o joins) (hsession : o'.session = o.session)
    (hlists : SameLists o o') (haccepted : SameAccepted o o') : Ledger o' joins where
  account i := by
    rw [hsession, (hlists.waiting_joined i).1, (hlists.waiting_joined i).2]
    exact hx.account i
  fresh i hi := by
    rw [hsession]
    exact hx.fresh i (haccepted.1 ▸ hi)
  accepted hs i hi := by
    obtain ⟨hold, hplace⟩ := haccepted.2 hs
    rw [hsession, haccepted.1]
    exact hx.accepted hold i (hplace ▸ hi)

/-! ## Handlers and stop hooks -/

/-- A handler goes on with its own session and its own places. -/
theorem handleClient_effect {a : TcpServerAction C} (h : handleClient s o a = some o') :
    ∃ i x, o'.session = Function.update o.session i x ∧
      (o.session i).handler.running = true ∧ x.handler ≠ .absent ∧
      x.worker = (o.session i).worker ∧ x.destroyed = (o.session i).destroyed ∧
      o'.mClients = o.mClients ∧ o'.loop = o.loop ∧ SameAccepted o o' := by
  cases handlerStep_of_handleClient h with
  | @move _ i p hmove =>
    obtain ⟨⟨hrunning, -⟩, hholds⟩ := hmove.holds
    refine ⟨i, _, rfl, hrunning, ?_, rfl, rfl, rfl, rfl, .of_eq ⟨rfl, rfl⟩⟩
    rintro rfl
    cases hholds
  | @exchange i hpc =>
    exact ⟨i, _, rfl, by rw [hpc]; rfl, by simp, rfl, rfl, rfl, rfl, rfl,
      fun hs => ⟨hs, ClientSockets.move_place_ne (by simp) (by simp)⟩⟩
  | @close i hpc =>
    exact ⟨i, _, rfl, by rw [hpc]; rfl, by simp, rfl, rfl, rfl, rfl,
      ClientSockets.close_accepted, fun hs => ⟨hs, ClientSockets.close_place_ne (by simp)⟩⟩
  | @complete i hpc | @returns i hpc =>
    exact ⟨i, _, rfl, by rw [hpc]; rfl, by simp, rfl, rfl, rfl, rfl, .of_eq ⟨rfl, rfl⟩⟩

theorem Ledger.handleClient {a : TcpServerAction C} (hx : Ledger o joins)
    (h : handleClient s o a = some o') : Ledger o' joins := by
  obtain ⟨i, x, hsession, hrunning, hstarted, hworker, hdestroyed, hclients, hloop, haccepted⟩ :=
    handleClient_effect h
  have hlists : SameLists o o' := .of_eq ⟨hclients, hloop⟩
  have habsent : ∀ d, (o.session d).handler = .absent → (o'.session d).handler = .absent := by
    intro d hd
    have hdi : d ≠ i := by
      rintro rfl
      rw [hd] at hrunning
      cases hrunning
    rwa [hsession, Function.update_of_ne hdi]
  refine ⟨fun d => ?_, fun d hd => ?_, fun hs d hd => ?_⟩
  · rw [(hlists.waiting_joined d).1, (hlists.waiting_joined d).2, hsession]
    by_cases hdi : d = i
    · subst hdi
      rw [Function.update_self]
      exact (hx.account d).handle hrunning hstarted hworker hdestroyed
    · rw [Function.update_of_ne hdi]
      exact hx.account d
  · exact habsent d (hx.fresh d (haccepted.1 ▸ hd))
  · obtain ⟨hold, hplace⟩ := haccepted.2 hs
    obtain ⟨hlt, hd⟩ := hx.accepted hold d (hplace ▸ hd)
    exact ⟨haccepted.1 ▸ hlt, habsent d hd⟩

/-! ## Joiners -/

/-- Sessions that a joiner takes out of `m_clients` are in its local list instead. -/
theorem waiting_splice {j : Joiner} {kept taken : List Nat} (htodo : (o.loop j).todo = [])
    (hall : ∀ i, kept.count i + taken.count i = o.mClients.count i) (i : Nat)
    (hook : TcpServerHook) (destructor : TcpServerDestructor) :
    ({ o.setLoop j { todo := taken } with
      mClients := kept, hook := hook, destructor := destructor }).waiting i = o.waiting i := by
  have hi := hall i
  cases j <;> simp [waiting, setLoop, htodo] <;> omega

theorem Ledger.splice (hx : Ledger o joins) {j : Joiner} {kept taken : List Nat}
    (hidle : o.loop j = {}) (hall : ∀ i, kept.count i + taken.count i = o.mClients.count i)
    (hook : TcpServerHook) (destructor : TcpServerDestructor)
    (hhook : hook.starting = true → o.hook.starting = true) :
    Ledger { o.setLoop j { todo := taken } with
      mClients := kept, hook := hook, destructor := destructor } joins where
  account i := by
    rw [waiting_splice (by rw [hidle]) hall]
    have hjoined : ({ o.setLoop j { todo := taken } with
        mClients := kept, hook := hook, destructor := destructor }).joined i = o.joined i := by
      cases j <;> simp [joined, setLoop, hidle]
    rw [hjoined]
    exact hx.account i
  fresh := hx.fresh
  accepted hs := hx.accepted (hhook hs)

theorem joined_loopJoin {j : Joiner} {joined todo : List Nat} {i : Nat}
    (hj : o.loop j = ⟨joined, i :: todo, .join⟩) (x : Session) (d : Nat) :
    o.waiting d = ((o.setSession i x).setLoop j ⟨joined ++ [i], todo, .exchange⟩).waiting d +
        (if d = i then 1 else 0) ∧
      ((o.setSession i x).setLoop j ⟨joined ++ [i], todo, .exchange⟩).joined d =
        o.joined d + (if d = i then 1 else 0) := by
  by_cases hdi : d = i
  · subst hdi
    cases j <;> simp [waiting, TcpServer.joined, setLoop, setSession, hj] <;> omega
  · have hid : i ≠ d := fun h => hdi h.symm
    cases j <;> simp [waiting, TcpServer.joined, setLoop, setSession, hj, hdi, hid]

/-- `client.worker.join()` where the thread is joinable. -/
def countJoin (o : TcpServer C) : TcpServerAction C → (Nat → Nat) → Nat → Nat
  | .loopJoin j, joins =>
    match (o.loop j).todo with
    | i :: _ =>
      if (o.session i).worker = true then Function.update joins i (joins i + 1) else joins
    | [] => joins
  | _, joins => joins

theorem Ledger.loopJoin {j : Joiner} {joined todo : List Nat} {i : Nat} (hx : Ledger o joins)
    (hj : o.loop j = ⟨joined, i :: todo, .join⟩)
    (hexited : (o.session i).worker = true → (o.session i).handler = .exited) :
    Ledger ((o.setSession i { o.session i with worker := false }).setLoop j
      ⟨joined ++ [i], todo, .exchange⟩) (o.countJoin (.loopJoin j) joins) := by
  have haccount := hx.account i
  rw [((joined_loopJoin hj { o.session i with worker := false }) i).1, if_pos rfl] at haccount
  obtain ⟨hjoined, hworker⟩ := haccount.join hexited
  have hcount : o.countJoin (.loopJoin j) joins = Function.update joins i (joins i + 1) := by
    simp [countJoin, hj, hworker]
  have habsent : ∀ d, (o.session d).handler = .absent →
      (Function.update o.session i { o.session i with worker := false } d).handler = .absent := by
    intro d hd
    by_cases hdi : d = i
    · subst hdi
      rwa [Function.update_self]
    · rwa [Function.update_of_ne hdi]
  refine ⟨fun d => ?_, fun d hd => habsent d (hx.fresh d hd), fun hs d hd => ?_⟩
  · obtain ⟨hwaiting, hlist⟩ := joined_loopJoin hj { o.session i with worker := false } d
    rw [hlist, hcount]
    change SessionAccount (Function.update o.session i { o.session i with worker := false } d) _ _ _
    by_cases hdi : d = i
    · subst hdi
      rw [Function.update_self, Function.update_self, if_pos rfl]
      exact hjoined
    · have hold := hx.account d
      rw [hwaiting, if_neg hdi] at hold
      rw [Function.update_of_ne hdi, Function.update_of_ne hdi, if_neg hdi]
      exact hold
  · obtain ⟨hlt, hd⟩ := hx.accepted hs d hd
    exact ⟨hlt, habsent d hd⟩

def Loops (o : TcpServer C) : Prop :=
  (o.hook ≠ .reaping → o.hook ≠ .joining → o.loop .run = {}) ∧
    (o.destructor ≠ .joining → o.loop .destructor = {})

theorem Loops.of_same (hx : Loops o) (hloop : o'.loop = o.loop)
    (hrun : o'.hook ≠ .reaping → o'.hook ≠ .joining → o.hook ≠ .reaping ∧ o.hook ≠ .joining)
    (hdtor : o'.destructor = o.destructor) : Loops o' := by
  rw [Loops, hloop, hdtor]
  exact ⟨fun h1 h2 => hx.1 (hrun h1 h2).1 (hrun h1 h2).2, hx.2⟩

theorem endLoop_loop (j : Joiner) : (o.endLoop j).loop j = {} := by
  simp [endLoop, setLoop]

theorem Loops.run {a : TcpServerAction C} (hx : Loops o) (h : run s o a = some o') :
    Loops o' := by
  cases runStep_of_run h with
  | move hmove => exact hx.of_same rfl (fun _ _ => hmove.accepting.1.2) rfl
  | reapCompletedClients => exact ⟨fun hne _ => absurd rfl hne, hx.2⟩
  | joinAndClearAllClients => exact ⟨fun _ hne => absurd rfl hne, hx.2⟩
  | reaped | joined => exact ⟨fun _ _ => endLoop_loop (o := o) .run, hx.2⟩
  | @startClientSession r _ hhook =>
    have hidle := hx.1 (by simp [hhook]) (by simp [hhook])
    cases r <;> exact ⟨fun _ _ => hidle, hx.2⟩
  | accepted hhook | makeClientInfo hhook | makeClientInfoThrows hhook | closeSocketValue hhook
  | exchangeServer hhook | closeServer hhook =>
    exact hx.of_same rfl (fun _ _ => ⟨by simp [hhook], by simp [hhook]⟩) rfl

theorem Loops.joinLoop {a : TcpServerAction C} (hx : Loops o) (h : o.joinLoop a = some o') :
    Loops o' := by
  have hframe : ∃ j l, o'.loop = Function.update o.loop j l ∧ o.loop j ≠ {} := by
    cases loopStep_of_joinLoop h with
    | @exchange j _ _ _ hj | @close j _ _ hj | @join j _ _ _ hj =>
      refine ⟨j, _, rfl, fun hidle => ?_⟩
      rw [hj] at hidle
      cases hidle
  obtain ⟨j, l, hloop, hbusy⟩ := hframe
  obtain ⟨-, hhook, -, hdtor⟩ := joinLoop_same h
  rw [Loops, hloop, hhook, hdtor]
  -- the joiner is in its loop, and the other one is where it was
  cases j with
  | run => exact ⟨fun h1 h2 => absurd (hx.1 h1 h2) hbusy, hx.2⟩
  | destructor => exact ⟨hx.1, fun hd => absurd (hx.2 hd) hbusy⟩

theorem Loops.destroy {a : TcpServerAction C} (hx : Loops o) (h : destroy s o a = some o') :
    Loops o' := by
  cases a with
  | destructorJoinAndClear =>
    simp only [TcpServer.destroy, Option.ite_none_right_eq_some, Option.some.injEq] at h
    obtain ⟨-, rfl⟩ := h
    exact ⟨hx.1, fun hd => absurd rfl hd⟩
  | destructorJoined =>
    simp only [TcpServer.destroy, Option.ite_none_right_eq_some, Option.some.injEq] at h
    obtain ⟨-, rfl⟩ := h
    exact ⟨hx.1, fun _ => endLoop_loop (o := o) .destructor⟩
  | _ =>
    have hframe : o'.loop = o.loop ∧ o'.hook = o.hook ∧ o.destructor ≠ .joining := by
      simp only [TcpServer.destroy] at h
      grind -linarith
    obtain ⟨hloop, hhook, hdtor⟩ := hframe
    rw [Loops, hloop, hhook]
    exact ⟨hx.1, fun _ => hx.2 hdtor⟩

theorem Loops.own {a : TcpServerAction C} (hx : Loops o) (h : own s o a = some o') :
    Loops o' := by
  obtain ⟨-, h | h | h | h | h | h⟩ := own_cases h
  · have hsame := preRun_same h
    have hne := TcpServerHook.ne_of_run (preRun_home h).1
    exact hx.of_same hsame.loop (fun _ _ => ⟨hne _ rfl, hne _ rfl⟩) hsame.destructor
  · exact hx.run h
  · exact hx.joinLoop h
  · have hsame := handleClient_same h
    obtain ⟨i, x, -, -, -, -, -, -, hloop, -⟩ := handleClient_effect h
    exact hx.of_same hloop (fun h1 h2 => hsame.2.1 ▸ ⟨h1, h2⟩) hsame.2.2.2
  · obtain ⟨hsame, hhook⟩ := stopTriggered_same h
    exact hx.of_same hsame.loop (fun h1 h2 => hhook ▸ ⟨h1, h2⟩) hsame.destructor
  · exact hx.destroy h

theorem Loops.sync {a : BaseAction (TcpServerCaller C)} (hx : Loops o)
    (hat : HookAt s.current o.hook) (hm : BaseWorker.Moves s a t) (hy : sync s a o = some o') :
    Loops o' := by
  have hy := syncHooks_of_sync hy
  have hbegin : s.current.hookHome = none → o.hook ≠ .reaping ∧ o.hook ≠ .joining :=
    fun hcur => by simp [hat.idle hcur]
  cases a with
  | call c k =>
    have hframe : o'.loop = o.loop ∧ (o'.destructor ≠ .joining → o.destructor ≠ .joining) ∧
        (o'.hook = o.hook ∨ (o.hook ≠ .reaping ∧ o.hook ≠ .joining)) := by
      simp only [syncHooks] at hy
      cases c <;> simp only [calls] at hy <;> grind -linarith [setHook, destroyAll]
    obtain ⟨hloop, hdtor, hhook⟩ := hframe
    rw [Loops, hloop]
    refine ⟨fun h1 h2 => ?_, fun hd => hx.2 (hdtor hd)⟩
    rcases hhook with hsame | ⟨h1, h2⟩
    · exact hx.1 (hsame ▸ h1) (hsame ▸ h2)
    · exact hx.1 h1 h2
  | preRunBegin r =>
    obtain rfl := Option.some.inj hy
    cases hm with
    | rest hact => cases hact
    | preRunBegin _ hfrom _ => exact hx.of_same rfl (fun _ _ => hbegin (by rw [hfrom]; rfl)) rfl
  | setRunning r =>
    obtain rfl := Option.some.inj hy
    cases hm with
    | rest hact => cases hact
    | setRunning _ hfrom _ => exact hx.of_same rfl (fun _ _ => hbegin (by rw [hfrom]; rfl)) rfl
  | preRunEnd r e | runEnd r e =>
    simp only [syncHooks, Option.ite_none_right_eq_some, Option.some.injEq] at hy
    obtain ⟨hdone, rfl⟩ := hy
    exact hx.of_same rfl (fun _ _ => by simp [hdone]) rfl
  | _ =>
    have hframe : o'.loop = o.loop ∧ o'.hook = o.hook ∧ o'.destructor = o.destructor := by
      simp only [syncHooks] at hy
      grind -linarith [setStop]
    obtain ⟨hloop, hhook, hdtor⟩ := hframe
    exact hx.of_same hloop (fun h1 h2 => hhook ▸ ⟨h1, h2⟩) hdtor

theorem loops_of_reachable {ok : Object (TcpServerCaller C) (TcpServer C) →
      ObjectAction (TcpServerCaller C) (TcpServerAction C) → Prop}
    {s : Object (TcpServerCaller C) (TcpServer C)}
    (hr : (TCPServer_V2 C).system.ReachableBy ok s) : Loops s.ext := by
  refine ReachableBy.invariant (P := fun s => Loops s.ext) ⟨fun _ _ => rfl, fun _ => rfl⟩
    (fun s a t hr hx _ hs => ?_) hr
  cases a with
  | base a =>
    obtain ⟨hb, hy⟩ := Derived.step_base.mp hs
    obtain ⟨hi, hu⟩ := Derived.inherits hr
    exact hx.sync (hookAt_of_reachable hr) (BaseWorker.moves_of_step hi hu hb) hy
  | own a => exact hx.own (Derived.step_own.mp hs).2

/-- The local list of a joiner goes out of scope: its sessions are behind their joins. -/
theorem Ledger.endLoop (hx : Ledger o joins) {j : Joiner} (htodo : (o.loop j).todo = []) :
    Ledger (o.endLoop j) joins := by
  have hsession : ∀ d, (o.endLoop j).session d =
      if d ∈ (o.loop j).joined then { o.session d with destroyed := true } else o.session d :=
    fun _ => rfl
  have habsent : ∀ d, (o.session d).handler = .absent →
      ((o.endLoop j).session d).handler = .absent := by
    intro d hd
    rw [hsession]
    split <;> exact hd
  have hwaiting : ∀ d, (o.endLoop j).waiting d = o.waiting d := by
    intro d
    cases j <;> simp [waiting, TcpServer.endLoop, destroyAll, setLoop, htodo]
  have hjoined : ∀ d, o.joined d = (o.endLoop j).joined d + (o.loop j).joined.count d := by
    intro d
    cases j with
    | run => simp [joined, TcpServer.endLoop, destroyAll, setLoop, Nat.add_comm]
    | destructor => simp [joined, TcpServer.endLoop, destroyAll, setLoop]
  refine ⟨fun d => ?_, fun d hd => habsent d (hx.fresh d hd), fun hs d hd => ?_⟩
  · have haccount := hx.account d
    rw [hwaiting, hsession]
    split
    · rename_i hmem
      have hone := List.count_pos_iff.mpr hmem
      have hle := haccount.lists_le_one
      have hnone : (o.endLoop j).joined d = 0 ∧ (o.loop j).joined.count d = 1 := by
        have := hjoined d
        omega
      rw [hjoined d, hnone.1, hnone.2] at haccount
      rw [hnone.1]
      exact haccount.destroy
    · rename_i hmem
      have hzero := hjoined d
      rw [List.count_eq_zero.mpr hmem, Nat.add_zero] at hzero
      rwa [← hzero]
  · obtain ⟨hlt, hd⟩ := hx.accepted hs d hd
    exact ⟨hlt, habsent d hd⟩

theorem Ledger.joinLoop {a : TcpServerAction C} (hx : Ledger o joins)
    (h : o.joinLoop a = some o') : Ledger o' (o.countJoin a joins) := by
  have hlists : ∀ (j : Joiner) (l : ClientLoop), l.todo = (o.loop j).todo →
      l.joined = (o.loop j).joined → ∀ k, (Function.update o.loop j l k).todo = (o.loop k).todo ∧
        (Function.update o.loop j l k).joined = (o.loop k).joined := by
    intro j l htodo hjoined k
    by_cases hkj : k = j
    · subst hkj
      rw [Function.update_self]
      exact ⟨htodo, hjoined⟩
    · rw [Function.update_of_ne hkj]
      exact ⟨rfl, rfl⟩
  cases loopStep_of_joinLoop h with
  | @exchange j _ _ _ hj =>
    exact hx.of_same rfl ⟨rfl, hlists j _ (by rw [hj]) (by rw [hj])⟩
      ⟨rfl, fun hs => ⟨hs, ClientSockets.move_place_ne (by simp) (by simp)⟩⟩
  | @close j _ _ hj =>
    exact hx.of_same rfl ⟨rfl, hlists j _ (by rw [hj]) (by rw [hj])⟩
      ⟨ClientSockets.close_accepted, fun hs => ⟨hs, ClientSockets.close_place_ne (by simp)⟩⟩
  | join hj hexited => exact hx.loopJoin hj hexited

/-! ## The worker and the destructor -/

theorem Ledger.created {i : Nat} (hx : Ledger o joins) (hi : i < o.clients.accepted)
    (habsent : (o.session i).handler = .absent) :
    Ledger (o.startClientSession i .created) joins := by
  have hsession : (o.startClientSession i .created).session =
      Function.update o.session i { worker := true, handler := .entry } := rfl
  have hnone := (hx.account i).unborn_of_absent habsent
  have hwaiting : ∀ d, (o.startClientSession i .created).waiting d =
      o.waiting d + if d = i then 1 else 0 := by
    intro d
    by_cases hdi : d = i
    · subst hdi
      simp [waiting, TcpServer.startClientSession, setSession]
      omega
    · have hid : i ≠ d := fun h => hdi h.symm
      simp [waiting, TcpServer.startClientSession, setSession, hdi, hid]
  refine ⟨fun d => ?_, fun d hd => ?_, fun hs => by cases hs⟩
  · rw [hwaiting, hsession]
    change SessionAccount _ _ (o.joined d) _
    by_cases hdi : d = i
    · subst hdi
      rw [Function.update_self, if_pos rfl, hnone.1, hnone.2.1, hnone.2.2.1]
      exact .waiting (by simp) rfl rfl
    · rw [Function.update_of_ne hdi, if_neg hdi]
      exact hx.account d
  · have hdi : d ≠ i := by
      rintro rfl
      exact absurd hi (Nat.not_lt_of_le hd)
    rw [hsession, Function.update_of_ne hdi]
    exact hx.fresh d hd

theorem Ledger.notCreated {i : Nat} (hx : Ledger o joins)
    (habsent : (o.session i).handler = .absent) :
    Ledger (o.startClientSession i .notCreated) joins := by
  have hsession : (o.startClientSession i .notCreated).session =
      Function.update o.session i { destroyed := true } := rfl
  have hnone := (hx.account i).unborn_of_absent habsent
  refine ⟨fun d => ?_, fun d hd => ?_, fun hs => by cases hs⟩
  · rw [hsession]
    change SessionAccount _ (o.waiting d) (o.joined d) _
    by_cases hdi : d = i
    · subst hdi
      rw [Function.update_self, hnone.1, hnone.2.1, hnone.2.2.1]
      exact .unborn rfl rfl
    · rw [Function.update_of_ne hdi]
      exact hx.account d
  · rw [hsession]
    by_cases hdi : d = i
    · subst hdi
      rw [Function.update_self]
    · rw [Function.update_of_ne hdi]
      exact hx.fresh d hd

theorem LoopMove.not_starting {stopRequested : Bool} {descriptor : Option Nat}
    {hook hook' : TcpServerHook} {a : TcpServerAction C}
    (h : LoopMove stopRequested descriptor hook a hook') : hook'.starting = false := by
  cases h with
  | load => cases descriptor <;> rfl
  | continueRunning | interrupted | testStop => cases stopRequested <;> rfl
  | acceptInterrupted | acceptFailed | runStopped => rfl

theorem Ledger.run {a : TcpServerAction C} (hx : Ledger o joins) (hl : Loops o)
    (h : run s o a = some o') : Ledger o' joins := by
  cases runStep_of_run h with
  | move hmove =>
    refine hx.of_same rfl (.of_eq ⟨rfl, rfl⟩) ⟨rfl, fun hs => ?_⟩
    rw [show (o.setHook _).hook.starting = false from hmove.not_starting] at hs
    cases hs
  | reapCompletedClients hhook =>
    refine hx.splice (j := .run) (hl.1 (by simp [hhook]) (by simp [hhook])) (fun i => ?_)
      .reaping o.destructor (fun hs => by cases hs)
    rw [Nat.add_comm, ← List.count_append]
    exact (List.filter_append_perm _ _).count_eq i
  | joinAndClearAllClients hhook =>
    exact hx.splice (j := .run) (hl.1 (by simp [hhook]) (by simp [hhook]))
      (by simp [spliceAll, setLoop]) .joining o.destructor (fun hs => by cases hs)
  | reaped _ htodo | joined _ htodo =>
    exact (hx.endLoop htodo).of_same rfl (.of_eq ⟨rfl, rfl⟩) ⟨rfl, fun hs => by cases hs⟩
  | accepted =>
    -- the new descriptor has the next number, and no session has it yet
    refine ⟨hx.account, fun i hi => hx.fresh i (Nat.le_of_succ_le hi), fun _ i hi => ?_⟩
    obtain rfl : o.clients.accepted = i := by
      simpa [ClientSockets.accept_place] using hi
    exact ⟨Nat.lt_succ_self _, hx.fresh _ (Nat.le_refl _)⟩
  | makeClientInfo hhook =>
    exact hx.of_same rfl (.of_eq ⟨rfl, rfl⟩) ⟨rfl, fun _ => ⟨by rw [hhook]; rfl, rfl⟩⟩
  | @startClientSession r i hhook hi =>
    obtain ⟨hlt, habsent⟩ := hx.accepted (by rw [hhook]; rfl) i hi
    cases r with
    | notAdded => exact hx.of_same rfl (.of_eq ⟨rfl, rfl⟩) ⟨rfl, fun hs => by cases hs⟩
    | created => exact hx.created hlt habsent
    | notCreated => exact hx.notCreated habsent
  | closeSocketValue =>
    exact hx.of_same rfl (.of_eq ⟨rfl, rfl⟩)
      ⟨ClientSockets.close_accepted, fun hs => by cases hs⟩
  | makeClientInfoThrows | exchangeServer | closeServer =>
    exact hx.of_same rfl (.of_eq ⟨rfl, rfl⟩) ⟨rfl, fun hs => by cases hs⟩

theorem Ledger.destroy {a : TcpServerAction C} (hx : Ledger o joins) (hl : Loops o)
    (h : destroy s o a = some o') : Ledger o' joins := by
  cases a with
  | destructorJoinAndClear =>
    simp only [TcpServer.destroy, Option.ite_none_right_eq_some, Option.some.injEq] at h
    obtain ⟨⟨hdtor, -⟩, rfl⟩ := h
    exact hx.splice (j := .destructor) (hl.2 (by simp [hdtor]))
      (by simp [spliceAll, setLoop]) o.hook .joining id
  | destructorJoined =>
    simp only [TcpServer.destroy, Option.ite_none_right_eq_some, Option.some.injEq] at h
    obtain ⟨⟨-, htodo⟩, rfl⟩ := h
    exact (hx.endLoop htodo).of_same rfl (.of_eq ⟨rfl, rfl⟩) ⟨rfl, fun hs => ⟨hs, rfl⟩⟩
  | _ =>
    have hframe : o'.session = o.session ∧ (o'.mClients = o.mClients ∧ o'.loop = o.loop) ∧
        o'.clients = o.clients ∧ o'.hook = o.hook := by
      simp only [TcpServer.destroy] at h
      grind -linarith
    obtain ⟨hsession, hlists, hsame⟩ := hframe
    exact hx.of_same hsession (.of_eq hlists) (.of_eq hsame)

theorem Ledger.own {a : TcpServerAction C} (hx : Ledger o joins) (hl : Loops o)
    (h : own s o a = some o') : Ledger o' (o.countJoin a joins) := by
  obtain ⟨-, h | h | h | h | h | h⟩ := own_cases h
  · have hcount : o.countJoin a joins = joins := by
      cases a <;> first | rfl | cases h
    have hsame := preRun_same h
    rw [hcount]
    exact hx.of_same hsame.session (.of_eq ⟨hsame.mClients, hsame.loop⟩) (preRun_accepted h)
  · have hcount : o.countJoin a joins = joins := by
      cases a <;> first | rfl | cases h
    rw [hcount]
    exact hx.run hl h
  · exact hx.joinLoop h
  · have hcount : o.countJoin a joins = joins := by
      cases a <;> first | rfl | cases h
    rw [hcount]
    exact hx.handleClient h
  · have hcount : o.countJoin a joins = joins := by
      cases a <;> first | rfl | cases h
    rw [hcount]
    have hsame := (stopTriggered_same h).1
    exact hx.of_same hsame.session (.of_eq ⟨hsame.mClients, hsame.loop⟩)
      (stopTriggered_accepted h)
  · have hcount : o.countJoin a joins = joins := by
      cases a <;> first | rfl | cases h
    rw [hcount]
    exact hx.destroy hl h

/-- `~m_clients` finds no session, and no session is added to the destroyed list. -/
def DestroysNoSession (s : Object (TcpServerCaller C) (TcpServer C)) :
    ObjectAction (TcpServerCaller C) (TcpServerAction C) → Prop
  | .base (.call .destructor .destructor) => s.ext.mClients = []
  | .own (.startClientSession .created) => s.ext.destructor ≠ .inBase
  | _ => True

instance (s : Object (TcpServerCaller C) (TcpServer C))
    (a : ObjectAction (TcpServerCaller C) (TcpServerAction C)) :
    Decidable (DestroysNoSession s a) := by
  induction a using ObjectAction.casesOn with
  | base a =>
    induction a using BaseAction.casesOn with
    | call c k =>
      induction c using TcpServerCaller.casesOn <;> induction k using Call.casesOn <;>
        (unfold DestroysNoSession; infer_instance)
    | _ => unfold DestroysNoSession; infer_instance
  | own a =>
    induction a using TcpServerAction.casesOn with
    | startClientSession r =>
      induction r using SessionStart.casesOn <;> (unfold DestroysNoSession; infer_instance)
    | _ => unfold DestroysNoSession; infer_instance

theorem destroyAll_nil : o.destroyAll [] = o := by
  simp [destroyAll]

theorem Ledger.calls {c : TcpServerCaller C} {k : Call} (hx : Ledger o joins)
    (hok : DestroysNoSession ⟨s, o⟩ (.base (.call c k))) (h : o.calls c k = some o') :
    Ledger o' joins := by
  cases c with
  | user c =>
    simp only [TcpServer.calls, Option.ite_none_right_eq_some, Option.some.injEq] at h
    obtain ⟨-, rfl⟩ := h
    exact hx
  | run =>
    simp only [TcpServer.calls, Option.ite_none_right_eq_some, Option.some.injEq] at h
    obtain ⟨-, rfl⟩ := h
    exact hx.of_same rfl (.of_eq ⟨rfl, rfl⟩) ⟨rfl, fun hs => by cases hs⟩
  | destructor =>
    simp only [TcpServer.calls] at h
    split at h
    · simp only [Option.ite_none_right_eq_some, Option.some.injEq] at h
      obtain ⟨-, rfl⟩ := h
      exact hx.of_same rfl (.of_eq ⟨rfl, rfl⟩) ⟨rfl, fun hs => ⟨hs, rfl⟩⟩
    · simp only [Option.ite_none_right_eq_some, Option.some.injEq] at h
      obtain ⟨rfl, rfl⟩ := h
      have hnone : o.mClients = [] := hok
      rw [hnone, destroyAll_nil]
      exact hx.of_same rfl (.of_eq ⟨rfl, rfl⟩) ⟨rfl, fun hs => ⟨hs, rfl⟩⟩
    · cases h

theorem Ledger.sync {a : BaseAction (TcpServerCaller C)} (hx : Ledger o joins)
    (hok : DestroysNoSession ⟨s, o⟩ (.base a)) (hy : sync s a o = some o') :
    Ledger o' joins := by
  have hy := syncHooks_of_sync hy
  cases a with
  | call c k => exact hx.calls hok hy
  | _ =>
    have hframe : o'.session = o.session ∧ (o'.mClients = o.mClients ∧ o'.loop = o.loop) ∧
        o'.clients = o.clients ∧ (o'.hook = o.hook ∨ o'.hook.starting = false) := by
      simp only [syncHooks] at hy
      grind -linarith [setHook, setStop, TcpServerHook.starting]
    obtain ⟨hsession, hlists, hclients, hhook⟩ := hframe
    refine hx.of_same hsession (.of_eq hlists) ⟨by rw [hclients], fun hs => ?_⟩
    rcases hhook with hsame | hnone
    · exact ⟨hsame ▸ hs, by rw [hclients]⟩
    · rw [hnone] at hs
      cases hs

/-! ## Runs -/

def noteJoin (s : Object (TcpServerCaller C) (TcpServer C)) :
    ObjectAction (TcpServerCaller C) (TcpServerAction C) → (Nat → Nat) → Nat → Nat
  | .own a, joins => s.ext.countJoin a joins
  | .base _, joins => joins

variable (C) in
/-- TCPServer_V2 with the number of joins of every session's thread. -/
def joinHistory : System (Object (TcpServerCaller C) (TcpServer C) × (Nat → Nat))
    (ObjectAction (TcpServerCaller C) (TcpServerAction C)) :=
  (TCPServer_V2 C).system.withHistory (fun _ => 0) noteJoin

theorem ledger_init : Ledger ({} : TcpServer C) fun _ => 0 where
  account _ := .unborn rfl rfl
  fresh _ _ := rfl
  accepted h := by cases h

theorem ledger_of_reachable {x : Object (TcpServerCaller C) (TcpServer C) × (Nat → Nat)}
    (hr : (joinHistory C).ReachableBy (Present DestroysNoSession) x) :
    Ledger x.1.ext x.2 := by
  refine ReachableBy.related (R := fun s joins => Ledger s.ext joins) ledger_init ?_ hr
  intro s a t joins hr hx hok hs
  cases a with
  | base a => exact hx.sync hok (Derived.step_base.mp hs).2
  | own a => exact hx.own (loops_of_reachable hr) (Derived.step_own.mp hs).2

/-- `m_clients` is empty from the destruction of the members on. -/
def Emptied (o : TcpServer C) : Prop := o.destructor = .inBase → o.mClients = []

theorem Emptied.sync {a : BaseAction (TcpServerCaller C)} (hx : Emptied o)
    (hok : DestroysNoSession ⟨s, o⟩ (.base a)) (h : sync s a o = some o') : Emptied o' := by
  have hclients := (sync_cleared h).1
  have hdtor : o'.destructor = .inBase → o.destructor = .inBase ∨ o.mClients = [] := by
    have h := syncHooks_of_sync h
    cases a with
    | call c k =>
      simp only [syncHooks] at h
      cases c with
      | destructor =>
        simp only [calls] at h
        split at h
        · simp only [Option.ite_none_right_eq_some, Option.some.injEq] at h
          obtain ⟨-, rfl⟩ := h
          exact fun hbase => by cases hbase
        · simp only [Option.ite_none_right_eq_some, Option.some.injEq] at h
          obtain ⟨rfl, -⟩ := h
          exact fun _ => .inr hok
        · cases h
      | _ =>
        simp only [calls] at h
        grind -linarith [setHook]
    | _ =>
      simp only [syncHooks] at h
      grind -linarith [setHook, setStop]
  intro hbase
  rw [hclients]
  rcases hdtor hbase with hold | hnone
  · exact hx hold
  · exact hnone

theorem Emptied.run {a : TcpServerAction C} (hx : Emptied o)
    (hok : DestroysNoSession ⟨s, o⟩ (.own a)) (h : run s o a = some o') : Emptied o' := by
  intro hbase
  rw [run_destructor h] at hbase
  have hnone := hx hbase
  cases runStep_of_run h with
  | @startClientSession r =>
    cases r with
    | created => exact absurd hbase hok
    | notAdded => exact hnone
    | notCreated => exact hnone
  | reapCompletedClients | joinAndClearAllClients =>
    simp [setHook, spliceCompleted, spliceAll, setLoop, hnone]
  | _ => exact hnone

theorem emptied_of_reachable {s : Object (TcpServerCaller C) (TcpServer C)}
    (hr : (TCPServer_V2 C).system.ReachableBy DestroysNoSession s) : Emptied s.ext := by
  refine ReachableBy.invariant (P := fun s => Emptied s.ext) (fun _ => rfl)
    (fun s a t hr hx hok hs => ?_) hr
  cases a with
  | base a => exact hx.sync hok (Derived.step_base.mp hs).2
  | own a =>
    obtain ⟨-, h | h | h | h | h | h⟩ := own_cases (Derived.step_own.mp hs).2
    · rw [Emptied, (preRun_same h).mClients, (preRun_same h).destructor]
      exact hx
    · exact hx.run hok h
    · rw [Emptied, joinLoop_mClients h, (joinLoop_same h).2.2.2]
      exact hx
    · rw [Emptied, (handleClient_sameSessions h).2.1, (handleClient_same h).2.2.2]
      exact hx
    · have hsame := (stopTriggered_same h).1
      rw [Emptied, hsame.mClients, hsame.destructor]
      exact hx
    · unfold Emptied at hx ⊢
      cases a <;> simp only [TcpServer.destroy] at h <;>
        grind -linarith [spliceAll, TcpServer.endLoop, destroyAll, setLoop]

theorem sessionLists_nodup (hx : Ledger o joins) : o.sessionLists.Nodup := by
  rw [List.nodup_iff_count]
  intro i
  rw [count_sessionLists]
  exact (hx.account i).lists_le_one

/-- If the members are destroyed with `m_clients` empty and nothing is added to it behind, no
session is in two lists, none is destroyed before its handler has returned and has been joined,
and every started one is joined once, at the latest when the destructor has come to the base
class and no joiner is at work. -/
theorem sessions_joined_exactly_once
    {x : Object (TcpServerCaller C) (TcpServer C) × (Nat → Nat)}
    (hr : (joinHistory C).ReachableBy (Present DestroysNoSession) x) :
    x.1.ext.sessionLists.Nodup ∧ ∀ i, x.2 i ≤ 1 ∧
      ((x.1.ext.session i).destroyed = true →
        (x.1.ext.session i).handler = .absent ∨
          ((x.1.ext.session i).handler = .exited ∧ x.2 i = 1)) ∧
      ((x.1.ext.session i).handler ≠ .absent →
        (x.2 i = 1 ∨ (x.2 i = 0 ∧ Listed x.1.ext i)) ∧
          (x.1.ext.destructor = .inBase → x.1.ext.hook ≠ .reaping → x.1.ext.hook ≠ .joining →
            x.2 i = 1)) := by
  have hx := ledger_of_reachable hr
  have hl := loops_of_reachable hr.present
  refine ⟨sessionLists_nodup hx, fun i => ⟨(hx.account i).joins_le_one,
    (hx.account i).of_destroyed, fun hstarted => ?_⟩⟩
  have hcases := (hx.account i).of_started hstarted
  constructor
  · rcases hcases with hjoined | ⟨hnone, hwaiting⟩
    · exact .inl hjoined
    · exact .inr ⟨hnone, listed_of_waiting (by omega)⟩
  · intro hbase hreap hjoin
    rcases hcases with hjoined | ⟨-, hwaiting⟩
    · exact hjoined
    · -- no list is left that could have the session
      have hnone : x.1.ext.waiting i = 0 := by
        simp [waiting, emptied_of_reachable hr.present hbase, hl.1 hreap hjoin,
          hl.2 (by simp [hbase])]
      omega

/-- Otherwise a session is destroyed whose thread nobody has joined. -/
theorem members_destroy_unjoined
    {x y : Object (TcpServerCaller C) (TcpServer C) × (Nat → Nat)} {i : Nat}
    (hr : (joinHistory C).ReachableBy (Present DestroysNoSession) x)
    (h : (joinHistory C).step x (.base (.call .destructor .destructor)) = some y)
    (hi : i ∈ x.1.ext.mClients) :
    (y.1.ext.session i).destroyed = true ∧ (y.1.ext.session i).handler ≠ .absent ∧
      y.2 i = 0 := by
  have hpos : 0 < x.1.ext.waiting i := Nat.add_pos_left (List.count_pos_iff.mpr hi) _
  obtain ⟨hs, hjoins⟩ := step_withHistory.mp h
  have hy := syncHooks_of_sync (Derived.step_base.mp hs).2
  have hsession : y.1.ext.session i = { x.1.ext.session i with destroyed := true } := by
    simp only [syncHooks, calls] at hy
    split at hy
    · cases hy
    · simp only [if_pos, Option.some.injEq] at hy
      rw [← hy]
      exact if_pos hi
    · cases hy
  rw [hsession, hjoins]
  exact ⟨rfl, ((ledger_of_reachable hr).account i).of_waiting hpos⟩

def membersSchedule : List (ObjectAction (TcpServerCaller Bool) (TcpServerAction Bool)) :=
  [.base (.call .destructor .destructor)]

theorem sessions_joined_exactly_once_destroyed :
    let S := joinHistory Bool
    let x := S.after (Present DestroysNoSession) S.init (destroyedSchedule ++ membersSchedule)
    x.2 0 = 1 := by
  intro S x
  have h := (sessions_joined_exactly_once (x := x) (reaches_after (by decide))).2 0
  exact (h.2.2 (by decide)).2 (by decide) (by decide) (by decide)

/-- The wait of the destructor gives up while `run` is about to start a session. -/
def acceptedSchedule : List (ObjectAction (TcpServerCaller Bool) (TcpServerAction Bool)) :=
  [.base (.call .destructor (.stopThread true)), .base (.stopSection .destructor),
    .own (.stopExchange .destructor), .own (.stopClose .destructor), .own (.stopLock .destructor),
    .own (.stopUnlock .destructor), .base (.stopTriggeredEnd .destructor)]

def lateSessionSchedule : List (ObjectAction (TcpServerCaller Bool) (TcpServerAction Bool)) :=
  openedSchedule ++ listeningSchedule ++ acceptSchedule ++ acceptedSchedule ++ gaveUpSchedule ++
    destructorEndSchedule ++ [.own (.startClientSession .created)] ++ membersSchedule

/-- Then the session comes behind the destructor's `joinAndClearAllClients`, and it is destroyed
with its handler running. -/
theorem late_session_destroyed_running :
    ¬ ∀ x, (joinHistory Bool).Reachable x → ∀ i, (x.1.ext.session i).destroyed = true →
      (x.1.ext.session i).handler = .absent ∨ (x.1.ext.session i).handler = .exited := by
  intro hclaim
  let S := joinHistory Bool
  have h := hclaim (S.after Free S.init lateSessionSchedule) (reaches_after (by decide)) 0
    (by decide)
  revert h
  decide

end TcpServer

end ThreadComponent
