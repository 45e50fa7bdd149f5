import ThreadComponent.SyncDescriptors

/-!
# The timeouts of cTCPSyncClient_V2

A timeout is kept in a member and given to every descriptor that `connect` opens. A setter gives
it to the descriptor of the connection too, if there is one.
-/

set_option autoImplicit false

namespace ThreadComponent

open StreamSocket Transitions System

/-- A number of microseconds, with less than a second of them beside the seconds. -/
structure Timeval.WellFormed (v : Timeval) : Prop where
  tvSec : 0 ≤ v.tvSec
  tvUsec : 0 ≤ v.tvUsec ∧ v.tvUsec < 1000000

/-- A timeout in milliseconds, as the kernel is told about it. -/
structure Timeval.Means (v : Timeval) (timeout : Int) : Prop extends v.WellFormed where
  value : v.tvSec * 1000000 + v.tvUsec = timeout * 1000

theorem sanitizeTimeout_nonneg (timeout : Int) : 0 ≤ sanitizeTimeout timeout := by
  unfold sanitizeTimeout
  split <;> omega

theorem toTimeval_means {timeout : Int} (h : 0 ≤ timeout) : (toTimeval timeout).Means timeout := by
  have hsame : sanitizeTimeout timeout = timeout := if_neg (by omega)
  unfold toTimeval
  rw [hsame]
  constructor
  · constructor
    · dsimp only
      omega
    · dsimp only
      omega
  · dsimp only
    omega

namespace SyncHost
variable {h t u : SyncHost}

/-- The descriptor of the connection has the timeouts of the members. -/
def InForce (h : SyncHost) : Prop :=
  ∀ fd, h.client.mSocket = some fd → h.kernel.sendTimeout fd = toTimeval h.mSendTimeout ∧
    h.kernel.receiveTimeout fd = toTimeval h.mReceiveTimeout

structure SameMembers (h t : SyncHost) : Prop where
  mSendTimeout : t.mSendTimeout = h.mSendTimeout
  mReceiveTimeout : t.mReceiveTimeout = h.mReceiveTimeout

theorem SameMembers.refl (h : SyncHost) : h.SameMembers h := ⟨rfl, rfl⟩

theorem SameMembers.trans (hht : h.SameMembers t) (htu : t.SameMembers u) : h.SameMembers u :=
  ⟨htu.1.trans hht.1, htu.2.trans hht.2⟩

/-- Neither the members nor the connection nor what the kernel was told has changed. -/
structure SameTimeouts (h t : SyncHost) : Prop extends h.SameMembers t where
  mSocket : t.client.mSocket = h.client.mSocket
  sendTimeout : t.kernel.sendTimeout = h.kernel.sendTimeout
  receiveTimeout : t.kernel.receiveTimeout = h.kernel.receiveTimeout

theorem SameTimeouts.trans (hht : h.SameTimeouts t) (htu : t.SameTimeouts u) :
    h.SameTimeouts u where
  toSameMembers := hht.toSameMembers.trans htu.toSameMembers
  mSocket := htu.mSocket.trans hht.mSocket
  sendTimeout := htu.sendTimeout.trans hht.sendTimeout
  receiveTimeout := htu.receiveTimeout.trans hht.receiveTimeout

theorem SameTimeouts.inForce (hs : h.SameTimeouts t) (hx : h.InForce) : t.InForce := by
  intro fd hfd
  rw [hs.mSendTimeout, hs.mReceiveTimeout, hs.sendTimeout, hs.receiveTimeout]
  exact hx fd (hs.mSocket ▸ hfd)

theorem inForce_of_unconnected (hnone : h.client.mSocket = none) : h.InForce := by
  intro fd hfd
  rw [hnone] at hfd
  cases hfd

/-! ## Connecting -/

theorem close_sameMembers (r : CloseReply) : h.SameMembers (h.close r) := by
  unfold close
  split <;> exact ⟨rfl, rfl⟩

/-- An entry without a failure has got both timeouts. -/
theorem connectLoop_inForce {x : Candidate} (rest : List Candidate) (hx : x.reason = none) :
    (h.connectLoop (x :: rest)).2.InForce ∧ h.SameMembers (h.connectLoop (x :: rest)).2 := by
  obtain ⟨socket, sendTimeout, receiveTimeout, connect, cleanup⟩ := x
  cases socket with
  | error e => cases hx
  | ok =>
    cases sendTimeout with
    | error e => cases hx
    | ok =>
      cases receiveTimeout with
      | error e => cases hx
      | ok =>
        cases connect with
        | error e => cases hx
        | ok =>
          refine ⟨fun fd hfd => ?_, ⟨rfl, rfl⟩⟩
          obtain rfl : h.kernel.opened = fd := Option.some.inj hfd
          exact ⟨Function.update_self .., Function.update_self ..⟩

theorem connectLoop_timeouts (cs : List Candidate) (hnone : h.client.mSocket = none) :
    (h.connectLoop cs).2.InForce ∧ h.SameMembers (h.connectLoop cs).2 := by
  induction cs generalizing h with
  | nil => exact ⟨inForce_of_unconnected hnone, .refl h⟩
  | cons x rest ih =>
    cases hx : x.reason with
    | none => exact connectLoop_inForce rest hx
    | some e =>
      obtain ⟨k, hk, -⟩ := connectLoop_error (h := h) rest hx
      obtain ⟨hforce, hsame⟩ := ih (h := { h with
        client := h.client.setLastPlatformError e, kernel := k }) hnone
      rw [hk]
      exact ⟨hforce, ⟨hsame.1, hsame.2⟩⟩

theorem connect_timeouts (r : CloseReply) (l : Lookup) :
    (h.connect r l).2.InForce ∧ h.SameMembers (h.connect r l).2 := by
  have hclosed : h.SameMembers ((h.close r).clearLastError) :=
    (close_sameMembers r).trans ⟨rfl, rfl⟩
  unfold connect
  split
  · exact ⟨inForce_of_unconnected close_mSocket, hclosed.trans ⟨rfl, rfl⟩⟩
  · obtain ⟨hforce, hsame⟩ := connectLoop_timeouts (h := (h.close r).clearLastError)
      l.candidates close_mSocket
    exact ⟨hforce, hclosed.trans hsame⟩

/-! ## The other operations -/

theorem shutdownWrite_timeouts (r : Reply) : h.SameTimeouts (h.shutdownWrite r).2 := by
  unfold shutdownWrite
  split
  · exact ⟨⟨rfl, rfl⟩, rfl, rfl, rfl⟩
  · cases r <;> exact ⟨⟨rfl, rfl⟩, rfl, rfl, rfl⟩

theorem recordSent_timeouts (payload : Buffer) (i n : Nat) :
    h.SameTimeouts (h.recordSent payload i n) := by
  unfold recordSent
  split <;> exact ⟨⟨rfl, rfl⟩, rfl, rfl, rfl⟩

theorem sendAllLoop_timeouts {payload : Buffer} {size totalSent : Nat} {answers : List SendAnswer}
    {result : IOResult} (hs : h.sendAllLoop payload size totalSent answers = some (result, t)) :
    h.SameTimeouts t := by
  fun_induction sendAllLoop h payload size totalSent answers with
  | case1 => cases hs
  | case2 h totalSent hge =>
    obtain ⟨-, rfl⟩ := Prod.mk.inj (Option.some.inj hs)
    exact ⟨⟨rfl, rfl⟩, rfl, rfl, rfl⟩
  | case3 h totalSent rest hlt n hn ih =>
    exact (recordSent_timeouts payload totalSent n).trans (ih hs)
  | case4 h totalSent rest hlt n hn =>
    obtain ⟨-, rfl⟩ := Prod.mk.inj (Option.some.inj hs)
    exact ⟨⟨rfl, rfl⟩, rfl, rfl, rfl⟩
  | case5 h totalSent rest hlt ih =>
    obtain ⟨⟨hsend, hreceive⟩, hsocket, hk, hk'⟩ := ih hs
    exact ⟨⟨hsend, hreceive⟩, hsocket, hk, hk'⟩
  | case6 h totalSent rest hlt e he =>
    obtain ⟨-, rfl⟩ := Prod.mk.inj (Option.some.inj hs)
    exact ⟨⟨rfl, rfl⟩, rfl, rfl, rfl⟩
  | case7 h totalSent answer rest hge =>
    obtain ⟨-, rfl⟩ := Prod.mk.inj (Option.some.inj hs)
    exact ⟨⟨rfl, rfl⟩, rfl, rfl, rfl⟩

theorem sendAll_timeouts {data : Option Buffer} {size : Nat} {answers : List SendAnswer}
    {result : IOResult} (hs : h.sendAll data size answers = some (result, t)) :
    h.SameTimeouts t := by
  have hclear : h.SameTimeouts h.clearLastError := ⟨⟨rfl, rfl⟩, rfl, rfl, rfl⟩
  unfold sendAll at hs
  split at hs
  · obtain ⟨-, rfl⟩ := Prod.mk.inj (Option.some.inj hs)
    exact hclear
  · cases data with
    | none =>
      obtain ⟨-, rfl⟩ := Prod.mk.inj (Option.some.inj hs)
      exact hclear
    | some payload =>
      simp only at hs
      split at hs
      · obtain ⟨-, rfl⟩ := Prod.mk.inj (Option.some.inj hs)
        exact hclear
      · exact hclear.trans (sendAllLoop_timeouts hs)

theorem receive_timeouts {call : ReceiveCall} {inlet : Inlet Byte Errno} {d : Exchanged}
    (hd : h.receive call inlet = some d) : h.SameTimeouts d.host := by
  obtain ⟨r, hr, rfl⟩ := Option.map_eq_some_iff.mp hd
  exact ⟨⟨rfl, rfl⟩, (ReceiveCall.perform_end hr).socket, rfl, rfl⟩

section Exchange
variable {data : Option Buffer} {size n : Nat} {x : Exchange} {d : Exchanged}

theorem exchange_timeouts {rest : SyncHost → Option Exchanged}
    (hrest : ∀ t d, rest t = some d → t.SameMembers d.host)
    (hd : (match h.connect x.close x.lookup with
      | (false, h) => some ⟨.failed, [], h⟩
      | (true, h) => closeOnExit x.cleanup (rest h)) = some d) :
    d.host.InForce ∧ h.SameMembers d.host := by
  obtain ⟨hforce, hsame⟩ := connect_timeouts (h := h) x.close x.lookup
  rcases afterConnect hd with ⟨t, ht, rfl⟩ | ⟨t, d', ht, hd', rfl⟩
  · rw [ht] at hforce hsame
    exact ⟨hforce, hsame⟩
  · rw [ht] at hsame
    exact ⟨inForce_of_unconnected close_mSocket,
      (hsame.trans (hrest t d' hd')).trans (close_sameMembers _)⟩

theorem exchangeOnce_timeouts (hd : h.exchangeOnce data size n x = some d) :
    d.host.InForce ∧ h.SameMembers d.host := by
  refine exchange_timeouts (fun t d hrest => ?_) hd
  rcases afterSend hrest with ⟨h₁, hs, hr⟩ | ⟨sendResult, h₁, hs, rfl⟩
  · exact (sendAll_timeouts hs).toSameMembers.trans (receive_timeouts hr).toSameMembers
  · exact (sendAll_timeouts hs).toSameMembers

theorem exchangeOnceUntilClosed_timeouts (hd : h.exchangeOnceUntilClosed data size n x = some d) :
    d.host.InForce ∧ h.SameMembers d.host := by
  refine exchange_timeouts (fun t d hrest => ?_) hd
  rcases afterSend hrest with ⟨h₁, hs, hr⟩ | ⟨sendResult, h₁, hs, rfl⟩
  · have hsent := (sendAll_timeouts hs).toSameMembers
    have hshutdown := (shutdownWrite_timeouts (h := h₁) x.shutdown).toSameMembers
    split at hr
    · next h₂ hh₂ =>
      rw [hh₂] at hshutdown
      obtain rfl := Option.some.inj hr
      exact hsent.trans hshutdown
    · next h₂ hh₂ =>
      rw [hh₂] at hshutdown
      exact (hsent.trans hshutdown).trans (receive_timeouts hr).toSameMembers
  · exact (sendAll_timeouts hs).toSameMembers

end Exchange

/-! ## The setters -/

theorem setSendTimeout_inForce (timeout : Int) {r : Reply}
    (hr : h.isConnected = true → r = .ok) (hx : h.InForce) :
    (h.setSendTimeout timeout r).2.InForce ∧
      (h.setSendTimeout timeout r).2.mSendTimeout = sanitizeTimeout timeout ∧
      (h.setSendTimeout timeout r).2.mReceiveTimeout = h.mReceiveTimeout := by
  cases hsocket : h.client.mSocket with
  | none =>
    have hset : h.setSendTimeout timeout r =
        (true, { h with mSendTimeout := sanitizeTimeout timeout }.clearLastError) := by
      unfold setSendTimeout applyConfiguredTimeout
      rw [hsocket]
    rw [hset]
    exact ⟨inForce_of_unconnected hsocket, rfl, rfl⟩
  | some socketFd =>
    obtain rfl := hr (by rw [isConnected, SyncClient.isConnected, hsocket]; rfl)
    let k := (h.kernel.setsockopt socketFd .sndTimeo (toTimeval (sanitizeTimeout timeout)) .ok).2
    have hset : (h.setSendTimeout timeout .ok).2 =
        { h with
          mSendTimeout := sanitizeTimeout timeout
          client := h.client.clearLastError
          kernel := k } := by
      unfold setSendTimeout applyConfiguredTimeout
      rw [hsocket]
      rfl
    rw [hset]
    refine ⟨fun fd hfd => ?_, rfl, rfl⟩
    obtain rfl : socketFd = fd := Option.some.inj (hsocket.symm.trans hfd)
    exact ⟨Function.update_self .., (hx socketFd hsocket).2⟩

theorem setReceiveTimeout_inForce (timeout : Int) {r : Reply}
    (hr : h.isConnected = true → r = .ok) (hx : h.InForce) :
    (h.setReceiveTimeout timeout r).2.InForce ∧
      (h.setReceiveTimeout timeout r).2.mSendTimeout = h.mSendTimeout ∧
      (h.setReceiveTimeout timeout r).2.mReceiveTimeout = sanitizeTimeout timeout := by
  cases hsocket : h.client.mSocket with
  | none =>
    have hset : h.setReceiveTimeout timeout r =
        (true, { h with mReceiveTimeout := sanitizeTimeout timeout }.clearLastError) := by
      unfold setReceiveTimeout applyConfiguredTimeout
      rw [hsocket]
    rw [hset]
    exact ⟨inForce_of_unconnected hsocket, rfl, rfl⟩
  | some socketFd =>
    obtain rfl := hr (by rw [isConnected, SyncClient.isConnected, hsocket]; rfl)
    let k := (h.kernel.setsockopt socketFd .rcvTimeo (toTimeval (sanitizeTimeout timeout)) .ok).2
    have hset : (h.setReceiveTimeout timeout .ok).2 =
        { h with
          mReceiveTimeout := sanitizeTimeout timeout
          client := h.client.clearLastError
          kernel := k } := by
      unfold setReceiveTimeout applyConfiguredTimeout
      rw [hsocket]
      rfl
    rw [hset]
    refine ⟨fun fd hfd => ?_, rfl, rfl⟩
    obtain rfl : socketFd = fd := Option.some.inj (hsocket.symm.trans hfd)
    exact ⟨(hx socketFd hsocket).1, Function.update_self ..⟩

/-! ## Runs -/

structure Configured (h : SyncHost) : Prop where
  mSendTimeout : 0 ≤ h.mSendTimeout
  mReceiveTimeout : 0 ≤ h.mReceiveTimeout
  inForce : h.InForce

theorem Configured.of_same (hx : h.Configured) (hsame : h.SameMembers t) (hforce : t.InForce) :
    t.Configured :=
  ⟨hsame.1 ▸ hx.mSendTimeout, hsame.2 ▸ hx.mReceiveTimeout, hforce⟩

/-- The kernel takes the timeout of a setter that is called on a connection. -/
def TakesTimeouts (h : SyncHost) : SyncCall → Prop
  | .setSendTimeout _ r | .setReceiveTimeout _ r => h.isConnected = true → r = .ok
  | _ => True

instance (h : SyncHost) (call : SyncCall) : Decidable (h.TakesTimeouts call) := by
  induction call using SyncCall.casesOn <;> (unfold TakesTimeouts; infer_instance)

theorem perform_configured {call : SyncCall} {result : CallResult} (hx : h.Configured)
    (hok : h.TakesTimeouts call) (hp : h.perform call = some (result, t)) : t.Configured := by
  cases call with
  | connect c l =>
    obtain ⟨-, rfl⟩ := Prod.mk.inj (Option.some.inj hp)
    obtain ⟨hforce, hsame⟩ := connect_timeouts (h := h) c l
    exact hx.of_same hsame hforce
  | reconnect c c' l =>
    obtain ⟨-, rfl⟩ := Prod.mk.inj (Option.some.inj hp)
    obtain ⟨hforce, hsame⟩ := connect_timeouts (h := h.close c) c' l
    exact hx.of_same ((close_sameMembers c).trans hsame) hforce
  | close c =>
    obtain ⟨-, rfl⟩ := Prod.mk.inj (Option.some.inj hp)
    exact hx.of_same (close_sameMembers c) (inForce_of_unconnected close_mSocket)
  | shutdownWrite c =>
    obtain ⟨-, rfl⟩ := Prod.mk.inj (Option.some.inj hp)
    have hsame := shutdownWrite_timeouts (h := h) c
    exact hx.of_same hsame.toSameMembers (hsame.inForce hx.inForce)
  | setSendTimeout timeout c =>
    obtain ⟨-, rfl⟩ := Prod.mk.inj (Option.some.inj hp)
    obtain ⟨hforce, hsend, hreceive⟩ := setSendTimeout_inForce timeout hok hx.inForce
    exact ⟨le_of_le_of_eq (sanitizeTimeout_nonneg timeout) hsend.symm,
      le_of_le_of_eq hx.mReceiveTimeout hreceive.symm, hforce⟩
  | setReceiveTimeout timeout c =>
    obtain ⟨-, rfl⟩ := Prod.mk.inj (Option.some.inj hp)
    obtain ⟨hforce, hsend, hreceive⟩ := setReceiveTimeout_inForce timeout hok hx.inForce
    exact ⟨le_of_le_of_eq hx.mSendTimeout hsend.symm,
      le_of_le_of_eq (sanitizeTimeout_nonneg timeout) hreceive.symm, hforce⟩
  | sendAll data size answers =>
    obtain ⟨d, hd, heq⟩ := Option.map_eq_some_iff.mp hp
    cases heq
    have hsame := sendAll_timeouts hd
    exact hx.of_same hsame.toSameMembers (hsame.inForce hx.inForce)
  | receive call inlet =>
    obtain ⟨d, hd, heq⟩ := Option.map_eq_some_iff.mp hp
    cases heq
    have hsame := receive_timeouts hd
    exact hx.of_same hsame.toSameMembers (hsame.inForce hx.inForce)
  | exchangeOnce data size n x =>
    obtain ⟨d, hd, heq⟩ := Option.map_eq_some_iff.mp hp
    cases heq
    obtain ⟨hforce, hsame⟩ := exchangeOnce_timeouts hd
    exact hx.of_same hsame hforce
  | exchangeOnceUntilClosed data size n x =>
    obtain ⟨d, hd, heq⟩ := Option.map_eq_some_iff.mp hp
    cases heq
    obtain ⟨hforce, hsame⟩ := exchangeOnceUntilClosed_timeouts hd
    exact hx.of_same hsame hforce

end SyncHost

/-- Over any sequence of calls, whatever the kernel answers but for a setter that it refuses on a
connection: behind each call the descriptor of the connection has the timeouts that the getters
return, to the microsecond, and both are non-negative. -/
theorem timeouts_are_in_force {h : SyncHost}
    (hr : syncSystem.ReachableBy SyncHost.TakesTimeouts h) :
    (0 ≤ h.mSendTimeout ∧ 0 ≤ h.mReceiveTimeout) ∧
      ∀ fd, h.client.mSocket = some fd →
        (h.kernel.sendTimeout fd).Means h.mSendTimeout ∧
        (h.kernel.receiveTimeout fd).Means h.mReceiveTimeout := by
  have hinit : syncSystem.init.Configured :=
    ⟨Int.le_refl 0, Int.le_refl 0, SyncHost.inForce_of_unconnected rfl⟩
  have hx : h.Configured := by
    refine hr.invariant hinit fun s call t _ hx hok hs => ?_
    obtain ⟨⟨result, t⟩, hp, rfl⟩ := Option.map_eq_some_iff.mp hs
    exact SyncHost.perform_configured hx hok hp
  refine ⟨⟨hx.mSendTimeout, hx.mReceiveTimeout⟩, fun fd hfd => ?_⟩
  obtain ⟨hsend, hreceive⟩ := hx.inForce fd hfd
  rw [hsend, hreceive]
  exact ⟨toTimeval_means hx.mSendTimeout, toTimeval_means hx.mReceiveTimeout⟩

/-- A negative timeout, a connection on the second try, and a timeout on it. -/
def timedCalls : List SyncCall :=
  [.setSendTimeout (-5) .ok, .setReceiveTimeout 1500 (.error 9),
    .connect {} { candidates := [{ receiveTimeout := .error 22 }, {}] }, .setSendTimeout 250 .ok]

theorem timeouts_are_in_force_timed :
    let h := syncSystem.after SyncHost.TakesTimeouts syncSystem.init timedCalls
    h.client.mSocket = some 1 ∧ (h.kernel.sendTimeout 1).Means 250 ∧
      (h.kernel.receiveTimeout 1).Means 1500 := by
  have hclaim := timeouts_are_in_force
    (h := syncSystem.after SyncHost.TakesTimeouts syncSystem.init timedCalls)
    (reaches_after (by decide))
  exact ⟨by decide, hclaim.2 1 (by decide)⟩

end ThreadComponent
