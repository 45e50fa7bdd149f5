import ThreadComponent.SyncChunking
import ThreadComponent.SyncDescriptors

/-!
# One-shot exchanges of cTCPSyncClient_V2

`exchangeOnceUntilClosed` opens a connection of its own, sends the request, ends its side of the
connection and collects the response until the peer closes.
-/

set_option autoImplicit false

namespace ThreadComponent

open StreamSocket Transitions System Ownership

/-! ## The response -/

namespace SyncClient
variable {c : SyncClient} {before after : List (Event Byte Errno)} {maxBytes : Nat} {out : Buffer}

/-- A stream that does not end with the peer's close is no response. -/
theorem receiveUntilClosedLoop_error (maxBytes : Nat) (out : Buffer)
    (after : List (Event Byte Errno)) (delivered : Buffer) {e : Errno} (he : e ≠ EINTR)
    (hs : Streamed before) (hc : c.isConnected = true) (hclear : c.clearLastError = c) :
    ∃ r, c.receiveUntilClosedLoop maxBytes out
        ⟨before ++ (Terminal.error e he).event :: after, delivered⟩ = some r ∧
      r.result ≠ .success := by
  have hfailed : SyncClient.classifySocketError e ≠ .success :=
    (Terminal.error e he).result_ne_success
  have hclosed : SyncClient.classifySocketError e ≠ .closed := by
    unfold SyncClient.classifySocketError
    split <;> simp
  generalize hchunks : chunks defaultReceiveChunkSize before = cs
  induction cs generalizing before out delivered with
  | nil =>
    by_cases hlt : out.length < maxBytes
    · obtain ⟨r, hread, hresult, -⟩ := receiveSome_terminal after delivered (.error e he) hs hc
        hclear hlt hchunks
      have hr : r.result = SyncClient.classifySocketError e := hresult
      rw [receiveUntilClosedLoop_read hlt hread, if_neg (by rw [hr]; exact hfailed),
        if_neg (by rw [hr]; exact hclosed)]
      exact ⟨_, rfl, by rw [hr]; exact hfailed⟩
    · rw [receiveUntilClosedLoop_full (by omega)]
      exact ⟨_, rfl, by simp⟩
  | cons chunk cs ih =>
    by_cases hlt : out.length < maxBytes
    · obtain ⟨rest, hread, hrest, hmore⟩ := receiveSome_chunk after delivered (.error e he) hs hc
        hclear hlt hchunks
      rw [receiveUntilClosedLoop_read hlt hread, if_pos rfl]
      by_cases hfits : (out ++ chunk).length ≤ maxBytes
      · exact ih _ _ hrest (hmore hfits)
      · have hfull : maxBytes ≤ (out ++ chunk.take (maxBytes - out.length)).length := by
          simp only [List.length_append, List.length_take] at hfits ⊢
          omega
        rw [receiveUntilClosedLoop_full hfull]
        exact ⟨_, rfl, by simp⟩
    · rw [receiveUntilClosedLoop_full (by omega)]
      exact ⟨_, rfl, by simp⟩

/-- The whole of a stream that the peer has closed, if the limit is above it. -/
theorem receiveUntilClosedLoop_closed (maxBytes : Nat) (after : List (Event Byte Errno))
    (delivered : Buffer) (hs : Streamed before) (hc : c.isConnected = true)
    (hclear : c.clearLastError = c) :
    ∃ r, c.receiveUntilClosedLoop maxBytes []
        ⟨before ++ Terminal.closed.event :: after, delivered⟩ = some r ∧
      (r.result = .success ↔ (payload before).length < maxBytes) ∧
      (r.result = .success → r.out = payload before) := by
  obtain ⟨r, hr, hcollected⟩ := receiveUntilClosedLoop_fill maxBytes [] after delivered hs hc
    hclear
  refine ⟨r, hr, ?_⟩
  have hfilled : Filled maxBytes (fun _ => false) [] (chunks defaultReceiveChunkSize before)
      (fill maxBytes (fun _ => false) [] (chunks defaultReceiveChunkSize before)) :=
    fill_filled (Nat.zero_le _) rfl
  generalize fill maxBytes (fun _ => false) [] (chunks defaultReceiveChunkSize before) = x
    at hcollected hfilled
  cases hfilled with
  | found i hfound => cases hfound
  | full hlen =>
    cases hcollected with | full hresult =>
    rw [List.nil_append, flatten_chunks] at hlen
    rw [hresult]
    exact ⟨iff_of_false (by simp) (by omega), fun h => by cases h⟩
  | drained hlen =>
    cases hcollected with | drained hresult _ hout =>
    rw [List.nil_append, flatten_chunks] at hlen hout
    rw [hresult, hout]
    exact ⟨iff_of_true rfl hlen, fun _ => rfl⟩

theorem receiveUntilClosed_success_iff (c : SyncClient) (maxBytes : Nat)
    (before after : List (Event Byte Errno)) (delivered : Buffer) (t : Terminal)
    (hc : c.isConnected = true) (hs : Streamed before) :
    ∃ r, c.receiveUntilClosed maxBytes ⟨before ++ t.event :: after, delivered⟩ = some r ∧
      (r.result = .success ↔ t = .closed ∧ (payload before).length < maxBytes) ∧
      (r.result = .success → r.out = payload before) := by
  by_cases hpos : maxBytes = 0
  · refine ⟨⟨.invalidArgument, [], c.clearLastError, _⟩, by rw [receiveUntilClosed, if_pos hpos],
      ?_, fun h => by cases h⟩
    exact iff_of_false (by simp) fun h => by omega
  · have hloop : ∀ k, c.receiveUntilClosed maxBytes k =
        c.clearLastError.receiveUntilClosedLoop maxBytes [] k := by
      intro k
      rw [receiveUntilClosed, if_neg hpos, hc]
      rfl
    rw [hloop]
    cases t with
    | closed =>
      obtain ⟨r, hr, hiff, hout⟩ := receiveUntilClosedLoop_closed (c := c.clearLastError) maxBytes
        after delivered hs hc rfl
      exact ⟨r, hr, hiff.trans (by simp), hout⟩
    | error e he =>
      obtain ⟨r, hr, hne⟩ := receiveUntilClosedLoop_error (c := c.clearLastError) maxBytes []
        after delivered he hs hc rfl
      exact ⟨r, hr, iff_of_false hne (by simp), fun h => absurd h hne⟩

end SyncClient

/-! ## The request -/

namespace Kernel
variable {k : Kernel}

@[simp] theorem answer_sent (r : Reply) : (k.answer r).sent = k.sent := by cases r <;> rfl

@[simp] theorem closeSocketValue_sent (fd : Nat) (r : CloseReply) :
    (k.closeSocketValue fd r).sent = k.sent := by
  simp [closeSocketValue]

theorem setsockopt_sent (fd : Nat) (optionName : SocketOption) (value : Timeval) (r : Reply) :
    (k.setsockopt fd optionName value r).2.sent = k.sent := by
  cases r with
  | ok => cases optionName <;> rfl
  | error e => rfl

end Kernel

namespace SyncHost
variable {h t : SyncHost} {fd : Nat} {r : CloseReply}

@[simp] theorem close_sent : (h.close r).kernel.sent = h.kernel.sent := by
  unfold close
  split
  · exact Kernel.closeSocketValue_sent _ r
  · rfl

theorem close_opened : (h.close r).kernel.opened = h.kernel.opened := by
  unfold close
  split
  · exact Kernel.closeSocketValue_opened r
  · rfl

theorem configureSocket_sent (fd : Nat) (x : Candidate) :
    (h.configureSocket fd x).2.kernel.sent = h.kernel.sent := by
  unfold configureSocket
  have hsend := Kernel.setsockopt_sent (k := h.kernel) fd .sndTimeo (toTimeval h.mSendTimeout)
    x.sendTimeout
  split
  · rename_i k hk
    rw [hk] at hsend
    exact hsend
  · rename_i k hk
    rw [hk] at hsend
    have hreceive := Kernel.setsockopt_sent (k := k) fd .rcvTimeo (toTimeval h.mReceiveTimeout)
      x.receiveTimeout
    split
    · rename_i k' hk'
      rw [hk'] at hreceive
      exact hreceive.trans hsend
    · rename_i k' hk'
      rw [hk'] at hreceive
      exact hreceive.trans hsend

/-- Connecting sends nothing. -/
theorem connectLoop_sent (cs : List Candidate) :
    (h.connectLoop cs).2.kernel.sent = h.kernel.sent := by
  induction cs generalizing h with
  | nil => rfl
  | cons x rest ih =>
    rw [connectLoop]
    cases x.socket with
    | error e => exact ih
    | ok =>
      simp only [Kernel.socket]
      have hconfigure := configureSocket_sent
        (h := { h with kernel := { h.kernel with opened := h.kernel.opened + 1 } })
        h.kernel.opened x
      split
      · rename_i host hhost
        rw [hhost] at hconfigure
        rw [ih]
        exact (Kernel.closeSocketValue_sent _ _).trans hconfigure
      · rename_i host hhost
        rw [hhost] at hconfigure
        cases x.connect with
        | ok => exact hconfigure
        | error e =>
          simp only
          rw [ih]
          exact (Kernel.closeSocketValue_sent _ _).trans hconfigure

theorem connectLoop_fresh (cs : List Candidate) (htrue : (h.connectLoop cs).1 = true) :
    ∃ fd, (h.connectLoop cs).2.client.mSocket = some fd ∧ h.kernel.opened ≤ fd ∧
      fd < (h.connectLoop cs).2.kernel.opened := by
  induction cs generalizing h with
  | nil => cases htrue
  | cons x rest ih =>
    cases hx : x.reason with
    | none =>
      obtain ⟨k, hk, hopened, -⟩ := connectLoop_ok (h := h) rest hx
      rw [hk]
      refine ⟨h.kernel.opened, rfl, Nat.le_refl _, ?_⟩
      change h.kernel.opened < k.opened
      omega
    | some e =>
      obtain ⟨k, hk, hkernel⟩ := connectLoop_error (h := h) rest hx
      rw [hk] at htrue ⊢
      obtain ⟨fd, hfd, hle, hlt⟩ := ih htrue
      have hmono : h.kernel.opened ≤ k.opened := by
        rcases hkernel with ⟨hopened, -⟩ | ⟨hopened, -⟩ <;> omega
      exact ⟨fd, hfd, hmono.trans hle, hlt⟩

theorem connect_sent (r : CloseReply) (l : Lookup) :
    (h.connect r l).2.kernel.sent = h.kernel.sent := by
  unfold connect
  split
  · exact close_sent
  · rw [connectLoop_sent]
    exact close_sent

theorem connect_fresh {l : Lookup} (htrue : (h.connect r l).1 = true) :
    ∃ fd, (h.connect r l).2.client.mSocket = some fd ∧ h.kernel.opened ≤ fd ∧
      fd < (h.connect r l).2.kernel.opened := by
  unfold connect at htrue ⊢
  split at htrue
  · cases htrue
  · rename_i hcode
    rw [if_neg hcode]
    obtain ⟨fd, hfd, hle, hlt⟩ := connectLoop_fresh l.candidates htrue
    refine ⟨fd, hfd, ?_, hlt⟩
    have hopened : ((h.close r).clearLastError).kernel.opened = h.kernel.opened := close_opened
    rwa [hopened] at hle

theorem recordSent_sent (hopen : h.client.mSocket = some fd) (payload : Buffer) (i n : Nat) :
    (h.recordSent payload i n).kernel.sent =
      Function.update h.kernel.sent fd (h.kernel.sent fd ++ (payload.drop i).take n) := by
  unfold recordSent
  rw [hopen]

theorem recordSent_others (hne : h.client.mSocket ≠ some fd) (payload : Buffer) (i n : Nat) :
    (h.recordSent payload i n).kernel.sent fd = h.kernel.sent fd := by
  unfold recordSent
  split
  · rename_i socketFd hsocket
    refine Function.update_of_ne ?_ _ _
    rintro rfl
    exact hne hsocket
  · rfl

theorem classifySocketError_ne_success (h : SyncHost) :
    h.classifySocketError.1 ≠ .success := by
  intro hsuccess
  have hfine := classifySocketError_not_fine h.kernel.errno
  rw [show SyncClient.classifySocketError h.kernel.errno = .success from hsuccess] at hfine
  cases hfine

theorem sendAllLoop_others {payload : Buffer} {size totalSent : Nat} {answers : List SendAnswer}
    {result : IOResult} (hne : h.client.mSocket ≠ some fd)
    (hs : h.sendAllLoop payload size totalSent answers = some (result, t)) :
    t.kernel.sent fd = h.kernel.sent fd := by
  fun_induction sendAllLoop h payload size totalSent answers with
  | case1 => cases hs
  | case3 h totalSent rest hlt n hn ih =>
    rw [ih (by rw [recordSent_client]; exact hne) hs, recordSent_others hne]
  | case5 h totalSent rest hlt ih => exact ih hne hs
  | case6 h totalSent rest hlt e he =>
    obtain ⟨-, rfl⟩ := Prod.mk.inj (Option.some.inj hs)
    rfl
  | case2 | case4 | case7 =>
    obtain ⟨-, rfl⟩ := Prod.mk.inj (Option.some.inj hs)
    rfl

theorem sendAllLoop_all {payload : Buffer} {size totalSent : Nat} {answers : List SendAnswer}
    (hopen : h.client.mSocket = some fd) (hsize : size = payload.length)
    (hs : h.sendAllLoop payload size totalSent answers = some (.success, t)) :
    t.kernel.sent fd = h.kernel.sent fd ++ payload.drop totalSent := by
  fun_induction sendAllLoop h payload size totalSent answers with
  | case1 => cases hs
  | case2 h totalSent hge | case7 h totalSent answer rest hge =>
    obtain ⟨-, rfl⟩ := Prod.mk.inj (Option.some.inj hs)
    rw [List.drop_eq_nil_of_le (by omega), List.append_nil]
  | case3 h totalSent rest hlt n hn ih =>
    rw [ih (by rw [recordSent_client]; exact hopen) hs, recordSent_sent hopen,
      Function.update_self, List.append_assoc, ← List.drop_drop, List.take_append_drop]
  | case4 h totalSent rest hlt n hn =>
    exact absurd (Prod.mk.inj (Option.some.inj hs)).1 (classifySocketError_ne_success h)
  | case5 h totalSent rest hlt ih => exact ih hopen hs
  | case6 h totalSent rest hlt e he =>
    exact absurd (Prod.mk.inj (Option.some.inj hs)).1 (classifySocketError_ne_success _)

theorem sendAll_others {data : Option Buffer} {size : Nat} {answers : List SendAnswer}
    {result : IOResult} (hne : h.client.mSocket ≠ some fd)
    (hs : h.sendAll data size answers = some (result, t)) :
    t.kernel.sent fd = h.kernel.sent fd := by
  unfold sendAll at hs
  split at hs
  · obtain ⟨-, rfl⟩ := Prod.mk.inj (Option.some.inj hs)
    rfl
  · cases data with
    | none =>
      obtain ⟨-, rfl⟩ := Prod.mk.inj (Option.some.inj hs)
      rfl
    | some payload =>
      simp only at hs
      split at hs
      · obtain ⟨-, rfl⟩ := Prod.mk.inj (Option.some.inj hs)
        rfl
      · exact sendAllLoop_others (h := h.clearLastError) hne hs

theorem sendAll_all {payload : Buffer} {answers : List SendAnswer}
    (hopen : h.client.mSocket = some fd)
    (hs : h.sendAll (some payload) payload.length answers = some (.success, t)) :
    t.kernel.sent fd = h.kernel.sent fd ++ payload := by
  unfold sendAll at hs
  split at hs
  · rename_i hsize
    obtain ⟨-, rfl⟩ := Prod.mk.inj (Option.some.inj hs)
    rw [List.eq_nil_of_length_eq_zero hsize, List.append_nil]
    rfl
  · simp only at hs
    split at hs
    · cases (Prod.mk.inj (Option.some.inj hs)).1
    · exact sendAllLoop_all (h := h.clearLastError) hopen rfl hs

/-! ## What was sent on a descriptor that is not there yet -/

/-- Nothing is sent on a descriptor before it is opened. -/
def Unsent (h : SyncHost) : Prop := ∀ fd, h.kernel.opened ≤ fd → h.kernel.sent fd = []

theorem Unsent.of_sent (hx : h.Unsent) (hopened : h.kernel.opened ≤ t.kernel.opened)
    (hsent : t.kernel.sent = h.kernel.sent) : t.Unsent := by
  intro fd hfd
  rw [hsent]
  exact hx fd (hopened.trans hfd)

theorem connectLoop_opened (cs : List Candidate) :
    h.kernel.opened ≤ (h.connectLoop cs).2.kernel.opened := by
  induction cs generalizing h with
  | nil => exact Nat.le_refl _
  | cons x rest ih =>
    cases hx : x.reason with
    | none =>
      obtain ⟨k, hk, hopened, -⟩ := connectLoop_ok (h := h) rest hx
      rw [hk]
      change h.kernel.opened ≤ k.opened
      omega
    | some e =>
      obtain ⟨k, hk, hkernel⟩ := connectLoop_error (h := h) rest hx
      rw [hk]
      have hmono : h.kernel.opened ≤ k.opened := by
        rcases hkernel with ⟨hopened, -⟩ | ⟨hopened, -⟩ <;> omega
      exact hmono.trans (ih (h := { h with
        client := h.client.setLastPlatformError e, kernel := k }))

theorem connect_opened (r : CloseReply) (l : Lookup) :
    h.kernel.opened ≤ (h.connect r l).2.kernel.opened := by
  have hclosed : ((h.close r).clearLastError).kernel.opened = h.kernel.opened := close_opened
  unfold connect
  split
  · exact Nat.le_of_eq hclosed.symm
  · rw [← hclosed]
    exact connectLoop_opened l.candidates

theorem sendAll_unsent {data : Option Buffer} {size : Nat} {answers : List SendAnswer}
    {result : IOResult} (hheld : ∀ fd, h.client.mSocket = some fd → fd < h.kernel.opened)
    (hs : h.sendAll data size answers = some (result, t)) (hx : h.Unsent) : t.Unsent := by
  intro fd hfd
  rw [(sendAll_steady hs).2.1] at hfd
  rw [sendAll_others (fun hsocket => ?_) hs, hx fd hfd]
  have hlt := hheld fd hsocket
  omega

section Exchange
variable {data : Option Buffer} {size n : Nat} {x : Exchange} {d : Exchanged}

theorem exchange_unsent {rest : SyncHost → Option Exchanged} (hx : h.Unsent)
    (hrest : ∀ t d, (∀ fd, t.client.mSocket = some fd → fd < t.kernel.opened) → t.Unsent →
      rest t = some d → d.host.Unsent)
    (hd : (match h.connect x.close x.lookup with
      | (false, h) => some ⟨.failed, [], h⟩
      | (true, h) => closeOnExit x.cleanup (rest h)) = some d) : d.host.Unsent := by
  have hconnect : (h.connect x.close x.lookup).2.Unsent :=
    hx.of_sent (connect_opened _ _) (connect_sent _ _)
  rcases afterConnect hd with ⟨t, ht, rfl⟩ | ⟨t, d', ht, hd', rfl⟩
  · rw [ht] at hconnect
    exact hconnect
  · have hfresh := connect_fresh (h := h) (r := x.close) (l := x.lookup) (by rw [ht])
    rw [ht] at hconnect hfresh
    obtain ⟨fd, hfd, -, hlt⟩ := hfresh
    have hend := hrest t d' (fun fd' hfd' => by
      obtain rfl := Option.some.inj (hfd.symm.trans hfd')
      exact hlt) hconnect hd'
    exact hend.of_sent (Nat.le_of_eq close_opened.symm) close_sent

theorem receive_unsent {call : ReceiveCall} {inlet : Inlet Byte Errno} (hx : h.Unsent)
    (hd : h.receive call inlet = some d) : d.host.Unsent := by
  obtain ⟨r, -, rfl⟩ := Option.map_eq_some_iff.mp hd
  exact hx

theorem shutdownWrite_sent (r : Reply) :
    (h.shutdownWrite r).2.kernel.sent = h.kernel.sent := by
  unfold shutdownWrite
  split
  · rfl
  · cases r <;> rfl

theorem shutdownWrite_unsent (r : Reply) (hx : h.Unsent) : (h.shutdownWrite r).2.Unsent :=
  hx.of_sent (Nat.le_of_eq (shutdownWrite_steady r).2.1.symm) (shutdownWrite_sent r)

theorem exchangeOnce_unsent (hx : h.Unsent) (hd : h.exchangeOnce data size n x = some d) :
    d.host.Unsent := by
  refine exchange_unsent hx (fun t d hheld ht hrest => ?_) hd
  rcases afterSend hrest with ⟨h₁, hs, hr⟩ | ⟨sendResult, h₁, hs, rfl⟩
  · exact receive_unsent (sendAll_unsent hheld hs ht) hr
  · exact sendAll_unsent hheld hs ht

theorem exchangeOnceUntilClosed_unsent (hx : h.Unsent)
    (hd : h.exchangeOnceUntilClosed data size n x = some d) : d.host.Unsent := by
  refine exchange_unsent hx (fun t d hheld ht hrest => ?_) hd
  rcases afterSend hrest with ⟨h₁, hs, hr⟩ | ⟨sendResult, h₁, hs, rfl⟩
  · have hshutdown := shutdownWrite_unsent x.shutdown (sendAll_unsent hheld hs ht)
    split at hr
    · next h₂ hh₂ =>
      rw [hh₂] at hshutdown
      obtain rfl := Option.some.inj hr
      exact hshutdown
    · next h₂ hh₂ =>
      rw [hh₂] at hshutdown
      exact receive_unsent hshutdown hr
  · exact sendAll_unsent hheld hs ht

end Exchange

theorem applyConfiguredTimeout_sent {timeout : Int} {optionName : SocketOption} (r : Reply) :
    (h.applyConfiguredTimeout timeout optionName r).2.kernel.sent = h.kernel.sent := by
  unfold applyConfiguredTimeout
  split
  · rfl
  · rename_i socketFd _
    have hsent := Kernel.setsockopt_sent (k := h.kernel) socketFd optionName (toTimeval timeout) r
    split <;> rename_i k hk <;> rw [hk] at hsent <;> exact hsent

theorem applyConfiguredTimeout_unsent {timeout : Int} {optionName : SocketOption} (r : Reply)
    (hx : h.Unsent) : (h.applyConfiguredTimeout timeout optionName r).2.Unsent :=
  hx.of_sent (Nat.le_of_eq (applyConfiguredTimeout_steady _ _ r).2.1.symm)
    (applyConfiguredTimeout_sent r)

theorem close_unsent (r : CloseReply) (hx : h.Unsent) : (h.close r).Unsent :=
  hx.of_sent (Nat.le_of_eq close_opened.symm) close_sent

theorem connect_unsent (r : CloseReply) (l : Lookup) (hx : h.Unsent) : (h.connect r l).2.Unsent :=
  hx.of_sent (connect_opened r l) (connect_sent r l)

theorem perform_unsent {call : SyncCall} {result : CallResult} (ha : h.Accounts) (hx : h.Unsent)
    (hp : h.perform call = some (result, t)) : t.Unsent := by
  cases call with
  | connect c l =>
    obtain ⟨-, rfl⟩ := Prod.mk.inj (Option.some.inj hp)
    exact connect_unsent c l hx
  | reconnect c c' l =>
    obtain ⟨-, rfl⟩ := Prod.mk.inj (Option.some.inj hp)
    exact connect_unsent c' l (close_unsent c hx)
  | close c =>
    obtain ⟨-, rfl⟩ := Prod.mk.inj (Option.some.inj hp)
    exact close_unsent c hx
  | shutdownWrite c =>
    obtain ⟨-, rfl⟩ := Prod.mk.inj (Option.some.inj hp)
    exact shutdownWrite_unsent c hx
  | setSendTimeout timeout c =>
    obtain ⟨-, rfl⟩ := Prod.mk.inj (Option.some.inj hp)
    exact applyConfiguredTimeout_unsent (h := { h with mSendTimeout := _ }) c hx
  | setReceiveTimeout timeout c =>
    obtain ⟨-, rfl⟩ := Prod.mk.inj (Option.some.inj hp)
    exact applyConfiguredTimeout_unsent (h := { h with mReceiveTimeout := _ }) c hx
  | sendAll data size answers =>
    obtain ⟨d, hd, heq⟩ := Option.map_eq_some_iff.mp hp
    cases heq
    exact sendAll_unsent (fun fd hfd => (Accounted.held (h := ()) ha hfd).1) hd hx
  | receive call inlet =>
    obtain ⟨d, hd, heq⟩ := Option.map_eq_some_iff.mp hp
    cases heq
    exact receive_unsent hx hd
  | exchangeOnce data size n x =>
    obtain ⟨d, hd, heq⟩ := Option.map_eq_some_iff.mp hp
    cases heq
    exact exchangeOnce_unsent hx hd
  | exchangeOnceUntilClosed data size n x =>
    obtain ⟨d, hd, heq⟩ := Option.map_eq_some_iff.mp hp
    cases heq
    exact exchangeOnceUntilClosed_unsent hx hd

theorem unsent_of_reachable (hr : syncSystem.Reachable h) : h.Unsent := by
  have hinit : syncSystem.init.Unsent := fun _ _ => rfl
  refine hr.invariant hinit fun s call t hs hx _ hstep => ?_
  obtain ⟨⟨result, t⟩, hp, rfl⟩ := Option.map_eq_some_iff.mp hstep
  exact perform_unsent (reachable_accounts hs) hx hp

end SyncHost

/-! ## The exchange -/

/-- A request that was sent in full, and a descriptor of its own that is closed again. -/
structure SentOnce (h t : SyncHost) (request : Buffer) (fd : Nat) : Prop where
  fresh : h.kernel.opened ≤ fd ∧ fd < t.kernel.opened
  sent : t.kernel.sent fd = request
  closed : t.kernel.closed fd = 1
  others : ∀ i, i ≠ fd → t.kernel.sent i = h.kernel.sent i

/-- The answers take all of `size` bytes before one of them is an error other than an
interruption. -/
def sendsAll (size : Nat) : List SendAnswer → Bool
  | [] => size == 0
  | answer :: rest =>
    if size = 0 then true
    else
      match answer with
      | .sent n => sendsAll (size - n) rest
      | .error e => if e = EINTR then sendsAll size rest else false

/-- The answers take all of `size` bytes, or one of them is the error that ends the sending. -/
def SendsOrFails (size : Nat) (answers : List SendAnswer) : Prop :=
  sendsAll size answers = true ∨ sendError size answers ≠ none

instance (size : Nat) (answers : List SendAnswer) : Decidable (SendsOrFails size answers) := by
  unfold SendsOrFails
  infer_instance

theorem sendsAll_zero (answers : List SendAnswer) : sendsAll 0 answers = true := by
  cases answers <;> rfl

section Sending
variable {h : SyncHost} {answers : List SendAnswer}

theorem sendAllLoop_success_iff (payload : Buffer) {size totalSent : Nat}
    (hdoc : ∀ a ∈ answers, a.Documented) :
    (∃ t, h.sendAllLoop payload size totalSent answers = some (.success, t)) ↔
      sendsAll (size - totalSent) answers = true := by
  fun_induction SyncHost.sendAllLoop h payload size totalSent answers with
  | case1 h totalSent hlt =>
    refine iff_of_false ?_ ?_
    · rintro ⟨t, ht⟩
      cases ht
    · simp only [sendsAll, beq_iff_eq]
      omega
  | case2 h totalSent hge =>
    rw [show size - totalSent = 0 by omega]
    exact iff_of_true ⟨h, rfl⟩ rfl
  | case3 h totalSent rest hlt n hn ih =>
    rw [sendsAll, if_neg (by omega), ih fun a ha => hdoc a (List.mem_cons_of_mem _ ha),
      Nat.sub_sub]
  | case4 h totalSent rest hlt n hn => exact absurd (hdoc (.sent n) List.mem_cons_self) hn
  | case5 h totalSent rest hlt ih =>
    rw [sendsAll, if_neg (by omega), ih fun a ha => hdoc a (List.mem_cons_of_mem _ ha)]
    rfl
  | case6 h totalSent rest hlt e he =>
    rw [sendsAll, if_neg (by omega)]
    refine iff_of_false ?_ (by simp [he])
    rintro ⟨t, ht⟩
    exact SyncHost.classifySocketError_ne_success _ (Prod.mk.inj (Option.some.inj ht)).1
  | case7 h totalSent answer rest hge =>
    rw [show size - totalSent = 0 by omega]
    exact iff_of_true ⟨h, rfl⟩ (sendsAll_zero _)

theorem sendAllLoop_returns (payload : Buffer) {size totalSent : Nat}
    (hends : SendsOrFails (size - totalSent) answers) :
    ∃ result t, h.sendAllLoop payload size totalSent answers = some (result, t) := by
  fun_induction SyncHost.sendAllLoop h payload size totalSent answers with
  | case1 h totalSent hlt =>
    rcases hends with hall | herror
    · simp only [sendsAll, beq_iff_eq] at hall
      omega
    · exact absurd rfl herror
  | case2 h | case4 h | case6 h | case7 h => exact ⟨_, _, rfl⟩
  | case3 h totalSent rest hlt n hn ih =>
    refine ih ?_
    unfold SendsOrFails at hends ⊢
    rw [sendsAll, sendError, if_neg (by omega), if_neg (by omega), Nat.sub_sub] at hends
    exact hends
  | case5 h totalSent rest hlt ih =>
    refine ih ?_
    unfold SendsOrFails at hends ⊢
    have hlive : ¬ size - totalSent = 0 := by omega
    simp only [sendsAll, sendError, if_neg hlive, if_true] at hends
    exact hends

theorem sendAll_success_iff (payload : Buffer) (hdoc : ∀ a ∈ answers, a.Documented)
    (hopen : h.isConnected = true) :
    (∃ t, h.sendAll (some payload) payload.length answers = some (.success, t)) ↔
      sendsAll payload.length answers = true := by
  unfold SyncHost.sendAll
  by_cases hsize : payload.length = 0
  · rw [if_pos hsize, hsize]
    exact iff_of_true ⟨_, rfl⟩ (sendsAll_zero _)
  · simp only [if_neg hsize, hopen, Bool.not_true, Bool.false_eq_true, if_false]
    exact sendAllLoop_success_iff payload hdoc

theorem sendAll_returns (h : SyncHost) (payload : Buffer)
    (hends : SendsOrFails payload.length answers) :
    ∃ result t, h.sendAll (some payload) payload.length answers = some (result, t) := by
  unfold SyncHost.sendAll
  by_cases hsize : payload.length = 0
  · rw [if_pos hsize]
    exact ⟨_, _, rfl⟩
  · cases hopen : h.isConnected with
    | false => exact ⟨_, _, by rw [if_neg hsize]; rfl⟩
    | true =>
      simp only [if_neg hsize, Bool.not_true, Bool.false_eq_true, if_false]
      exact sendAllLoop_returns payload hends

end Sending

/-- Behind the request: the client's side is shut down, and the response is collected. -/
theorem respond_success_iff {h : SyncHost} (hopen : h.isConnected = true) (shutdown : Reply)
    (maxResponseBytes : Nat) (before after : List (Event Byte Errno)) (t : Terminal)
    (delivered : Buffer) (hs : Streamed before) :
    ∃ d : Exchanged, (match h.shutdownWrite shutdown with
      | (false, h) => some ⟨.failed, [], h⟩
      | (true, h) => h.receive (.receiveUntilClosed maxResponseBytes)
          ⟨before ++ t.event :: after, delivered⟩) = some d ∧
      d.host.kernel.sent = h.kernel.sent ∧ d.host.kernel.opened = h.kernel.opened ∧
      (d.result = .success ↔ shutdown = .ok ∧ t = .closed ∧
        (payload before).length < maxResponseBytes) ∧
      (d.result = .success → d.out = payload before) := by
  have hsent := SyncHost.shutdownWrite_sent (h := h) shutdown
  obtain ⟨hsocket, hopened, -⟩ := SyncHost.shutdownWrite_steady (h := h) shutdown
  have hend := SyncHost.shutdownWrite_end shutdown hopen
  cases shutdown with
  | error e =>
    obtain ⟨h', hh', -⟩ := hend
    rw [hh'] at hsent hopened ⊢
    exact ⟨_, rfl, hsent, hopened, iff_of_false (by simp) (by simp), fun hr => by cases hr⟩
  | ok =>
    obtain ⟨h', hh'⟩ := hend
    rw [hh'] at hsent hopened hsocket ⊢
    have hopen' : h'.client.isConnected = true := by
      unfold SyncHost.isConnected SyncClient.isConnected at hopen
      unfold SyncClient.isConnected
      rwa [hsocket]
    obtain ⟨r, hr, hiff, hout⟩ := SyncClient.receiveUntilClosed_success_iff h'.client
      maxResponseBytes before after delivered t hopen' hs
    have hreceive : h'.receive (.receiveUntilClosed maxResponseBytes)
        ⟨before ++ t.event :: after, delivered⟩ =
          some ⟨r.result, r.out, { h' with client := r.client }⟩ := congrArg (Option.map _) hr
    exact ⟨_, hreceive, hsent, hopened, hiff.trans (by simp), hout⟩

section Connected
variable {h u : SyncHost} {request : Buffer} {maxResponseBytes : Nat} {x : Exchange}

theorem exchange_of_unsent (hu : h.connect x.close x.lookup = (true, u))
    (hsend : u.sendAll (some request) request.length x.answers = none) :
    h.exchangeOnceUntilClosed (some request) request.length maxResponseBytes x = none := by
  rw [SyncHost.exchangeOnceUntilClosed, hu]
  simp only [hsend]
  rfl

theorem exchange_of_send_error {sendResult : IOResult} {h₁ : SyncHost}
    (hu : h.connect x.close x.lookup = (true, u)) (hne : sendResult ≠ .success)
    (hsend : u.sendAll (some request) request.length x.answers = some (sendResult, h₁)) :
    h.exchangeOnceUntilClosed (some request) request.length maxResponseBytes x =
      some ⟨sendResult, [], h₁.close x.cleanup⟩ := by
  rw [SyncHost.exchangeOnceUntilClosed, hu]
  simp only [hsend]
  cases sendResult with
  | success => exact absurd rfl hne
  | _ => rfl

theorem exchange_of_sent {h₁ : SyncHost} (maxResponseBytes : Nat)
    (hu : h.connect x.close x.lookup = (true, u))
    (hopen : u.isConnected = true)
    (hsend : u.sendAll (some request) request.length x.answers = some (.success, h₁))
    {before after : List (Event Byte Errno)} {t : Terminal} {delivered : Buffer}
    (hinlet : x.inlet = ⟨before ++ t.event :: after, delivered⟩) (hs : Streamed before) :
    ∃ d : Exchanged,
      h.exchangeOnceUntilClosed (some request) request.length maxResponseBytes x =
        some { d with host := d.host.close x.cleanup } ∧
      d.host.kernel.sent = h₁.kernel.sent ∧ d.host.kernel.opened = h₁.kernel.opened ∧
      (d.result = .success ↔ x.shutdown = .ok ∧ t = .closed ∧
        (payload before).length < maxResponseBytes) ∧
      (d.result = .success → d.out = payload before) := by
  have hopen₁ : h₁.isConnected = true := by
    unfold SyncHost.isConnected SyncClient.isConnected at hopen ⊢
    rwa [(SyncHost.sendAll_steady hsend).1]
  obtain ⟨d, hd, hrest⟩ := respond_success_iff hopen₁ x.shutdown maxResponseBytes
    before after t delivered hs
  refine ⟨d, ?_, hrest⟩
  rw [SyncHost.exchangeOnceUntilClosed, hu]
  simp only [hsend, hinlet]
  exact congrArg (closeOnExit x.cleanup) hd

/-- The request is what was sent on the descriptor of the exchange, and the descriptor is closed. -/
theorem sentOnce_of_exchange {h₁ : SyncHost} {d : Exchanged} (hr : syncSystem.Reachable h)
    (hu : h.connect x.close x.lookup = (true, u))
    (hsend : u.sendAll (some request) request.length x.answers = some (.success, h₁))
    (hd : h.exchangeOnceUntilClosed (some request) request.length maxResponseBytes x =
      some { d with host := d.host.close x.cleanup })
    (hsent : d.host.kernel.sent = h₁.kernel.sent)
    (hopened : d.host.kernel.opened = h₁.kernel.opened) :
    ∃ fd, SentOnce h (d.host.close x.cleanup) request fd := by
  have haccounts := (SyncHost.exchangeOnceUntilClosed_accounts (reachable_accounts hr) hd).1
  have hfresh := SyncHost.connect_fresh (h := h) (r := x.close) (l := x.lookup) (by rw [hu])
  have hsame := SyncHost.connect_sent (h := h) x.close x.lookup
  rw [hu] at hfresh hsame
  obtain ⟨fd, hfd, hle, hlt⟩ := hfresh
  have hfinal : fd < (d.host.close x.cleanup).kernel.opened := by
    rw [SyncHost.close_opened, hopened, (SyncHost.sendAll_steady hsend).2.1]
    exact hlt
  have hnew : u.kernel.sent fd = [] := by
    rw [hsame]
    exact SyncHost.unsent_of_reachable hr fd hle
  refine ⟨fd, ⟨hle, hfinal⟩, ?_, ?_, fun i hi => ?_⟩
  · rw [SyncHost.close_sent, hsent, SyncHost.sendAll_all hfd hsend, hnew, List.nil_append]
  · refine Accounted.released_of_unheld haccounts hfinal fun _ hheld => ?_
    rw [SyncHost.close_mSocket] at hheld
    cases hheld
  · rw [SyncHost.close_sent, hsent, SyncHost.sendAll_others (fun hsocket => ?_) hsend, hsame]
    exact hi (Option.some.inj (hsocket.symm.trans hfd))

end Connected

/-- Behind any calls, for any answers of the kernel and any chunks of the response: an exchange is
successful if and only if an address takes the connection, the answers take the whole request,
the client's side is shut down, and the peer closes behind fewer bytes than the limit. Then the
response is all that the peer has sent, the request is all that was sent, on a connection of its
own, and the connection is closed. Where the answers take the request or refuse it, the exchange
returns. -/
theorem exchange_succeeds_iff {h : SyncHost} (hr : syncSystem.Reachable h) (request : Buffer)
    (maxResponseBytes : Nat) {x : Exchange} (hx : x.Documented)
    {before after : List (Event Byte Errno)} {t : Terminal} {delivered : Buffer}
    (hinlet : x.inlet = ⟨before ++ t.event :: after, delivered⟩) (hs : Streamed before) :
    ((∃ d, h.exchangeOnceUntilClosed (some request) request.length maxResponseBytes x = some d ∧
        d.result = .success) ↔
      x.lookup.cause = none ∧ sendsAll request.length x.answers = true ∧ x.shutdown = .ok ∧
        t = .closed ∧ (payload before).length < maxResponseBytes) ∧
    (∀ d, h.exchangeOnceUntilClosed (some request) request.length maxResponseBytes x = some d →
      d.result = .success → d.out = payload before ∧ ∃ fd, SentOnce h d.host request fd) ∧
    ((x.lookup.cause = none → SendsOrFails request.length x.answers) →
      ∃ d, h.exchangeOnceUntilClosed (some request) request.length maxResponseBytes x =
        some d) := by
  cases hcause : x.lookup.cause with
  | some c =>
    obtain ⟨u, hu, -⟩ := SyncHost.connect_error (h := h) x.close hx.lookup.2 hcause
    rw [SyncHost.exchangeOnceUntilClosed, hu]
    refine ⟨iff_of_false ?_ (by simp), fun d hd hresult => ?_, fun _ => ⟨_, rfl⟩⟩
    · rintro ⟨d, hd, hresult⟩
      obtain rfl := Option.some.inj hd
      cases hresult
    · obtain rfl := Option.some.inj hd
      cases hresult
  | none =>
    obtain ⟨u, hu, hopen, -⟩ := SyncHost.connect_ok (h := h) x.close hx.lookup.2 hcause
    have hsends := sendAll_success_iff request hx.answers hopen
    have hreturns := fun hends : SendsOrFails request.length x.answers =>
      sendAll_returns u request hends
    cases hsend : u.sendAll (some request) request.length x.answers with
    | none =>
      -- too few answers for the request: both sides fail, and so does the premise of the third part
      rw [hsend] at hsends hreturns
      rw [exchange_of_unsent hu hsend]
      refine ⟨iff_of_false (fun ⟨_, hd, _⟩ => by cases hd) fun hall => ?_,
        fun _ hd => (by cases hd), fun hends => ?_⟩
      · obtain ⟨_, ht⟩ := hsends.mpr hall.2.1
        cases ht
      · obtain ⟨_, _, ht⟩ := hreturns (hends rfl)
        cases ht
    | some p =>
      obtain ⟨sendResult, h₁⟩ := p
      by_cases hsuccess : sendResult = .success
      · subst hsuccess
        obtain ⟨d, hd, hsent, hopened, hresult, hout⟩ := exchange_of_sent
          maxResponseBytes hu hopen hsend hinlet hs
        rw [hd]
        refine ⟨?_, fun d' hd' hr' => ?_, fun _ => ⟨_, rfl⟩⟩
        · simpa only [Option.some.injEq, exists_eq_left', hsends.mp ⟨h₁, hsend⟩, true_and]
            using hresult
        · obtain rfl := Option.some.inj hd'
          exact ⟨hout hr', sentOnce_of_exchange hr hu hsend hd hsent hopened⟩
      · -- the error of the send is that of the exchange
        rw [exchange_of_send_error hu hsuccess hsend]
        refine ⟨iff_of_false ?_ fun hall => ?_, fun d hd hresult => ?_, fun _ => ⟨_, rfl⟩⟩
        · rintro ⟨d, hd, hresult⟩
          obtain rfl := Option.some.inj hd
          exact hsuccess hresult
        · obtain ⟨h', hh'⟩ := hsends.mpr hall.2.1
          exact hsuccess (Prod.mk.inj (Option.some.inj (hsend.symm.trans hh'))).1
        · obtain rfl := Option.some.inj hd
          exact absurd hresult hsuccess

/-- A refused address, a request in two pieces and a response in two chunks. -/
def answeredExchange : Exchange where
  lookup := { candidates := [{ connect := .error 111 }, {}] }
  answers := [.sent 1, .error EINTR, .sent 2]
  inlet := ⟨[.data 79 [], .error EINTR, .data 75 [], .eof], []⟩

theorem exchange_succeeds_iff_answered :
    ∃ d, SyncHost.exchangeOnceUntilClosed {} (some [71, 69, 84]) 3 16 answeredExchange = some d ∧
      d.result = .success ∧ d.out = [79, 75] ∧ ∃ fd, SentOnce {} d.host [71, 69, 84] fd := by
  have hs : Streamed [.data 79 [], .error EINTR, .data 75 []] := by simp [Streamed, Streaming]
  have hx : answeredExchange.Documented := by
    refine ⟨⟨fun x hmem => ?_, fun _ => by decide⟩, ?_, by simp [answeredExchange, Reply.Documented],
      by simp [answeredExchange, EINTR]⟩
    · simp only [answeredExchange, List.mem_cons, List.not_mem_nil, or_false] at hmem
      rcases hmem with rfl | rfl <;> constructor <;> simp [Reply.Documented]
    · simp [answeredExchange, SendAnswer.Documented, EINTR]
  have hinlet : answeredExchange.inlet =
      ⟨[.data 79 [], .error EINTR, .data 75 []] ++ Terminal.closed.event :: [], []⟩ := rfl
  obtain ⟨hiff, hall, -⟩ := exchange_succeeds_iff (.refl _) [71, 69, 84] 16 hx hinlet hs
  obtain ⟨d, hd, hsuccess⟩ := hiff.mpr ⟨by decide, by decide, rfl, rfl, by decide⟩
  exact ⟨d, hd, hsuccess, hall d hd hsuccess⟩

end ThreadComponent
