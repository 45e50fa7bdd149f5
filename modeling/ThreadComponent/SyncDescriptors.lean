import ThreadComponent.Ownership
import ThreadComponent.SyncErrors
import ThreadComponent.Transitions

/-!
# Descriptors of cTCPSyncClient_V2

The client is the only holder of descriptors. `connect` and `close` keep the accounts; all the
other operations leave the member and the descriptors as they are.
-/

set_option autoImplicit false

namespace ThreadComponent

open StreamSocket Transitions System Ownership

namespace SyncHost
variable {h t u : SyncHost} {r : CloseReply}

/-- `m_socket` holds the only descriptor that is open, if one is. -/
def Accounts (h : SyncHost) : Prop :=
  Accounted (fun _ : Unit => h.client.mSocket) h.kernel.closed h.kernel.opened

def Steady (h t : SyncHost) : Prop :=
  t.client.mSocket = h.client.mSocket ∧ h.kernel.SameDescriptors t.kernel

theorem Steady.trans (hht : h.Steady t) (htu : t.Steady u) : h.Steady u :=
  ⟨htu.1.trans hht.1, htu.2.1.trans hht.2.1, htu.2.2.trans hht.2.2⟩

theorem Steady.accounts (hs : h.Steady t) (ha : h.Accounts) : t.Accounts := by
  obtain ⟨hsocket, hopened, hclosed⟩ := hs
  unfold Accounts
  rwa [hsocket, hopened, hclosed]

/-! ## Closing and connecting -/

theorem update_holder (o o' : Option Nat) :
    Function.update (fun _ : Unit => o) () o' = fun _ => o' :=
  funext fun _ => Function.update_self ..

theorem accounted_opened {closed : Nat → Nat} {opened : Nat}
    (ha : Accounted (fun _ : Unit => none) closed opened) :
    Accounted (fun _ : Unit => some opened) closed (opened + 1) := by
  have hacquire := Accounted.acquire (h := ()) ha rfl
  rwa [update_holder] at hacquire

theorem accounted_discarded {k k' : Kernel}
    (ha : Accounted (fun _ : Unit => none) k.closed k.opened) (hk : k.Discarded k') :
    Accounted (fun _ : Unit => none) k'.closed k'.opened := by
  have hrelease := Accounted.release (h := ()) (accounted_opened ha) rfl
  rw [update_holder] at hrelease
  rwa [hk.1, hk.2]

@[simp] theorem close_mSocket : (h.close r).client.mSocket = none := by
  unfold close
  split
  · rfl
  · assumption

theorem close_isConnected : (h.close r).isConnected = false := by
  unfold isConnected SyncClient.isConnected
  rw [close_mSocket]
  rfl

theorem close_accounts (ha : h.Accounts) : (h.close r).Accounts := by
  unfold close
  split
  · next socketFd hsocket =>
    have hrelease := Accounted.release (h := ()) ha hsocket
    unfold Accounts closeSocketValue
    rw [Kernel.closeSocketValue_closed, Kernel.closeSocketValue_opened]
    rwa [update_holder] at hrelease
  · exact ha

theorem connectLoop_accounts (cs : List Candidate) (ha : h.Accounts)
    (hnone : h.client.mSocket = none) :
    (h.connectLoop cs).2.Accounts ∧
      (h.connectLoop cs).2.isConnected = (h.connectLoop cs).1 := by
  induction cs generalizing h with
  | nil => exact ⟨ha, by simp [connectLoop, isConnected, SyncClient.isConnected, hnone]⟩
  | cons x rest ih =>
    have hfree : Accounted (fun _ : Unit => none) h.kernel.closed h.kernel.opened := by
      unfold Accounts at ha
      rwa [hnone] at ha
    cases hx : x.reason with
    | none =>
      obtain ⟨k, hk, hopened, hclosed⟩ := connectLoop_ok (h := h) rest hx
      rw [hk]
      refine ⟨?_, rfl⟩
      show Accounted (fun _ : Unit => some h.kernel.opened) k.closed k.opened
      rw [hopened, hclosed]
      exact accounted_opened hfree
    | some e =>
      obtain ⟨k, hk, hkernel⟩ := connectLoop_error (h := h) rest hx
      rw [hk]
      refine ih ?_ hnone
      show Accounted (fun _ : Unit => h.client.mSocket) k.closed k.opened
      rw [hnone]
      rcases hkernel with ⟨hopened, hclosed⟩ | hdiscarded
      · rwa [hopened, hclosed]
      · exact accounted_discarded hfree hdiscarded

theorem connect_accounts (l : Lookup) (ha : h.Accounts) :
    (h.connect r l).2.Accounts ∧ (h.connect r l).2.isConnected = (h.connect r l).1 := by
  have hclosed : ((h.close r).clearLastError).Accounts := close_accounts ha
  unfold connect
  split
  · exact ⟨hclosed, close_isConnected⟩
  · exact connectLoop_accounts l.candidates hclosed close_mSocket

/-! ## The other operations -/

theorem applyConfiguredTimeout_steady (timeout : Int) (optionName : SocketOption) (r : Reply) :
    h.Steady (h.applyConfiguredTimeout timeout optionName r).2 := by
  unfold applyConfiguredTimeout
  split
  · exact ⟨rfl, rfl, rfl⟩
  · next socketFd _ =>
    have hsame := h.kernel.setsockopt_same socketFd optionName (toTimeval timeout) r
    split <;> next k hk => exact ⟨rfl, by rwa [hk] at hsame⟩

theorem shutdownWrite_steady (r : Reply) : h.Steady (h.shutdownWrite r).2 := by
  unfold shutdownWrite
  split
  · exact ⟨rfl, rfl, rfl⟩
  · cases r <;> exact ⟨rfl, rfl, rfl⟩

theorem recordSent_steady (payload : Buffer) (i n : Nat) : h.Steady (h.recordSent payload i n) := by
  unfold recordSent
  split <;> exact ⟨rfl, rfl, rfl⟩

theorem sendAllLoop_steady {payload : Buffer} {size totalSent : Nat} {answers : List SendAnswer}
    {result : IOResult} (hs : h.sendAllLoop payload size totalSent answers = some (result, t)) :
    h.Steady t := by
  fun_induction sendAllLoop h payload size totalSent answers with
  | case1 => cases hs
  | case2 h totalSent hge =>
    obtain ⟨-, rfl⟩ := Prod.mk.inj (Option.some.inj hs)
    exact ⟨rfl, rfl, rfl⟩
  | case3 h totalSent rest hlt n hn ih =>
    exact (recordSent_steady payload totalSent n).trans (ih hs)
  | case4 h totalSent rest hlt n hn =>
    obtain ⟨-, rfl⟩ := Prod.mk.inj (Option.some.inj hs)
    exact ⟨rfl, rfl, rfl⟩
  | case5 h totalSent rest hlt ih => exact ih hs
  | case6 h totalSent rest hlt e he =>
    obtain ⟨-, rfl⟩ := Prod.mk.inj (Option.some.inj hs)
    exact ⟨rfl, rfl, rfl⟩
  | case7 h totalSent answer rest hge =>
    obtain ⟨-, rfl⟩ := Prod.mk.inj (Option.some.inj hs)
    exact ⟨rfl, rfl, rfl⟩

theorem sendAll_steady {data : Option Buffer} {size : Nat} {answers : List SendAnswer}
    {result : IOResult} (hs : h.sendAll data size answers = some (result, t)) : h.Steady t := by
  unfold sendAll at hs
  split at hs
  · obtain ⟨-, rfl⟩ := Prod.mk.inj (Option.some.inj hs)
    exact ⟨rfl, rfl, rfl⟩
  · cases data with
    | none =>
      obtain ⟨-, rfl⟩ := Prod.mk.inj (Option.some.inj hs)
      exact ⟨rfl, rfl, rfl⟩
    | some payload =>
      simp only at hs
      split at hs
      · obtain ⟨-, rfl⟩ := Prod.mk.inj (Option.some.inj hs)
        exact ⟨rfl, rfl, rfl⟩
      · have hloop : h.clearLastError.Steady t := sendAllLoop_steady hs
        exact Steady.trans ⟨rfl, rfl, rfl⟩ hloop

theorem receive_steady {call : ReceiveCall} {inlet : Inlet Byte Errno} {d : Exchanged}
    (hd : h.receive call inlet = some d) : h.Steady d.host := by
  obtain ⟨r, hr, rfl⟩ := Option.map_eq_some_iff.mp hd
  exact ⟨(ReceiveCall.perform_end hr).socket, rfl, rfl⟩

/-! ## Exchanges -/

section Exchange
variable {data : Option Buffer} {size n : Nat} {x : Exchange} {d : Exchanged}

/-- The connection is closed on every path, by the scope guard or by `connect` itself. -/
theorem exchange_accounts {rest : SyncHost → Option Exchanged} (ha : h.Accounts)
    (hrest : ∀ t d, rest t = some d → t.Steady d.host)
    (hd : (match h.connect x.close x.lookup with
      | (false, h) => some ⟨.failed, [], h⟩
      | (true, h) => closeOnExit x.cleanup (rest h)) = some d) :
    d.host.Accounts ∧ d.host.isConnected = false := by
  obtain ⟨hconnect, hopen⟩ := connect_accounts (r := x.close) x.lookup ha
  rcases afterConnect hd with ⟨t, ht, rfl⟩ | ⟨t, d', ht, hd', rfl⟩
  · rw [ht] at hconnect hopen
    exact ⟨hconnect, hopen⟩
  · rw [ht] at hconnect
    exact ⟨close_accounts ((hrest t d' hd').accounts hconnect), close_isConnected⟩

theorem exchangeOnce_accounts (ha : h.Accounts) (hd : h.exchangeOnce data size n x = some d) :
    d.host.Accounts ∧ d.host.isConnected = false := by
  refine exchange_accounts ha (fun t d hrest => ?_) hd
  rcases afterSend hrest with ⟨h₁, hs, hr⟩ | ⟨sendResult, h₁, hs, rfl⟩
  · exact (sendAll_steady hs).trans (receive_steady hr)
  · exact sendAll_steady hs

theorem exchangeOnceUntilClosed_accounts (ha : h.Accounts)
    (hd : h.exchangeOnceUntilClosed data size n x = some d) :
    d.host.Accounts ∧ d.host.isConnected = false := by
  refine exchange_accounts ha (fun t d hrest => ?_) hd
  rcases afterSend hrest with ⟨h₁, hs, hr⟩ | ⟨sendResult, h₁, hs, rfl⟩
  · have hshutdown := shutdownWrite_steady (h := h₁) x.shutdown
    split at hr
    · next h₂ hh₂ =>
      rw [hh₂] at hshutdown
      obtain rfl := Option.some.inj hr
      exact (sendAll_steady hs).trans hshutdown
    · next h₂ hh₂ =>
      rw [hh₂] at hshutdown
      exact ((sendAll_steady hs).trans hshutdown).trans (receive_steady hr)
  · exact sendAll_steady hs

end Exchange

/-! ## Runs -/

theorem perform_accounts {call : SyncCall} {result : CallResult} (ha : h.Accounts)
    (hp : h.perform call = some (result, t)) : t.Accounts := by
  cases call with
  | connect c l =>
    obtain ⟨-, rfl⟩ := Prod.mk.inj (Option.some.inj hp)
    exact (connect_accounts l ha).1
  | reconnect c c' l =>
    obtain ⟨-, rfl⟩ := Prod.mk.inj (Option.some.inj hp)
    exact (connect_accounts l (close_accounts ha)).1
  | close c =>
    obtain ⟨-, rfl⟩ := Prod.mk.inj (Option.some.inj hp)
    exact close_accounts ha
  | shutdownWrite c =>
    obtain ⟨-, rfl⟩ := Prod.mk.inj (Option.some.inj hp)
    exact (shutdownWrite_steady c).accounts ha
  | setSendTimeout timeout c =>
    obtain ⟨-, rfl⟩ := Prod.mk.inj (Option.some.inj hp)
    exact (applyConfiguredTimeout_steady _ _ c).accounts ha
  | setReceiveTimeout timeout c =>
    obtain ⟨-, rfl⟩ := Prod.mk.inj (Option.some.inj hp)
    exact (applyConfiguredTimeout_steady _ _ c).accounts ha
  | sendAll data size answers =>
    obtain ⟨d, hd, heq⟩ := Option.map_eq_some_iff.mp hp
    cases heq
    exact (sendAll_steady hd).accounts ha
  | receive call inlet =>
    obtain ⟨d, hd, heq⟩ := Option.map_eq_some_iff.mp hp
    cases heq
    exact (receive_steady hd).accounts ha
  | exchangeOnce data size n x =>
    obtain ⟨d, hd, heq⟩ := Option.map_eq_some_iff.mp hp
    cases heq
    exact (exchangeOnce_accounts ha hd).1
  | exchangeOnceUntilClosed data size n x =>
    obtain ⟨d, hd, heq⟩ := Option.map_eq_some_iff.mp hp
    cases heq
    exact (exchangeOnceUntilClosed_accounts ha hd).1

end SyncHost

/-- One client, from its constructor on: an action is a call with the answers that it gets. -/
def syncSystem : System SyncHost SyncCall where
  init := {}
  step h call := (h.perform call).map Prod.snd

theorem reachable_accounts {h : SyncHost} (hr : syncSystem.Reachable h) : h.Accounts := by
  have hinit : syncSystem.init.Accounts := accounted_init
  refine hr.invariant hinit fun s call t _ ha _ hs => ?_
  obtain ⟨⟨result, t⟩, hp, rfl⟩ := Option.map_eq_some_iff.mp hs
  exact SyncHost.perform_accounts ha hp

def Kernel.IsOpen (k : Kernel) (fd : Nat) : Prop := fd < k.opened ∧ k.closed fd = 0

instance (k : Kernel) (fd : Nat) : Decidable (k.IsOpen fd) :=
  inferInstanceAs (Decidable (_ ∧ _))

theorem SyncHost.Accounts.isOpen_iff {h : SyncHost} (ha : h.Accounts) (fd : Nat) :
    h.kernel.IsOpen fd ↔ h.client.mSocket = some fd := by
  constructor
  · rintro ⟨hlt, hclosed⟩
    rcases Accounted.settled ha hlt with hreleased | ⟨-, hheld⟩
    · rw [hclosed] at hreleased
      cases hreleased
    · exact hheld
  · intro hheld
    exact Accounted.held (h := ()) ha hheld

/-- Behind the destructor every descriptor has been closed exactly once. -/
theorem destructor_closes_all {h : SyncHost} (hr : syncSystem.Reachable h) (r : CloseReply)
    {fd : Nat} (hfd : fd < (h.close r).kernel.opened) : (h.close r).kernel.closed fd = 1 := by
  have ha := SyncHost.close_accounts (r := r) (reachable_accounts hr)
  refine Accounted.released_of_unheld ha hfd fun _ hheld => ?_
  rw [SyncHost.close_mSocket] at hheld
  cases hheld

/-- Over any sequence of calls and any answers of the kernel: behind each call the open
descriptors are the one in `m_socket`, if the client is connected, and none otherwise, none was
closed twice, and an exchange leaves no connection, whichever way it has ended. -/
theorem descriptors_neither_leaked_nor_closed_twice {h : SyncHost}
    (hr : syncSystem.Reachable h) :
    (∀ fd, h.kernel.IsOpen fd ↔ h.client.mSocket = some fd) ∧
      (h.isConnected = false → ∀ fd, ¬ h.kernel.IsOpen fd) ∧
      (∀ fd, h.kernel.closed fd ≤ 1) ∧
      (∀ data size n x d, h.exchangeOnce data size n x = some d → d.host.isConnected = false) ∧
      ∀ data size n x d, h.exchangeOnceUntilClosed data size n x = some d →
        d.host.isConnected = false := by
  have ha := reachable_accounts hr
  refine ⟨ha.isOpen_iff, fun hnot fd hopen => ?_, Accounted.released_le_one ha,
    fun data size n x d hd => (SyncHost.exchangeOnce_accounts ha hd).2,
    fun data size n x d hd => (SyncHost.exchangeOnceUntilClosed_accounts ha hd).2⟩
  rw [SyncHost.isConnected, SyncClient.isConnected, (ha.isOpen_iff fd).mp hopen] at hnot
  cases hnot

/-- A refused entry, a connection, and an exchange over it that cannot find the name. -/
def reconnecting : List SyncCall :=
  [.connect {} { candidates := [{ connect := .error 111 }, {}] },
    .exchangeOnce (some [1]) 1 16 { lookup := { code := -2 } }, .connect {} { candidates := [{}] }]

theorem descriptors_neither_leaked_nor_closed_twice_reconnecting :
    let h := syncSystem.after Free syncSystem.init reconnecting
    h.kernel.opened = 3 ∧ h.client.mSocket = some 2 ∧
      (∀ fd, h.kernel.IsOpen fd ↔ h.client.mSocket = some fd) ∧ ∀ fd, h.kernel.closed fd ≤ 1 := by
  have hclaim := descriptors_neither_leaked_nor_closed_twice
    (h := syncSystem.after Free syncSystem.init reconnecting) (reaches_after (by decide))
  exact ⟨by decide, by decide, hclaim.1, hclaim.2.2.1⟩

end ThreadComponent
