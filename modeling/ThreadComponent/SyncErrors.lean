import ThreadComponent.SyncConnect

/-!
# Results and last errors of cTCPSyncClient_V2

An operation that fails leaves the reason that the last system call of its own has given. An
interrupted call is made again, and what the scope guard or the cleanup of a candidate runs
into is never looked at.
-/

set_option autoImplicit false

namespace ThreadComponent

open StreamSocket

def IOResult.fine : IOResult → Bool
  | .success | .closed | .notConnected | .invalidArgument => true
  | .timeout | .failed => false

/-- The reason that ends a receive operation, if one does. -/
def receiveError : List (Event Byte Errno) → Option Errno
  | [] => none
  | .error e :: rest => if e = EINTR then receiveError rest else some e
  | _ :: rest => receiveError rest

/-- The reason that ends the sending of `size` bytes, if one does. -/
def sendError (size : Nat) : List SendAnswer → Option Errno
  | [] => none
  | answer :: rest =>
    if size = 0 then none
    else
      match answer with
      | .sent n => sendError (size - n) rest
      | .error e => if e = EINTR then sendError size rest else some e

theorem classifySocketError_not_fine (e : Errno) :
    (SyncClient.classifySocketError e).fine = false := by
  unfold SyncClient.classifySocketError
  split <;> rfl

/-! ## Receiving -/

section Receive
variable {k k' : Inlet Byte Errno} {n : Nat} {bs : Buffer} {e : Errno}

@[simp] theorem receiveError_pushBack (bs : Buffer) (rest : List (Event Byte Errno)) :
    receiveError (pushBack bs rest) = receiveError rest := by
  cases bs <;> rfl

theorem receiveError_bytes (h : k.recv n = some (.bytes bs, k')) :
    receiveError k'.pending = receiveError k.pending := by
  unfold Inlet.recv at h
  split at h <;> simp only [Option.some.injEq, Prod.mk.injEq, Read.bytes.injEq, reduceCtorEq,
    false_and] at h
  rename_i hp
  obtain ⟨-, rfl⟩ := h
  rw [receiveError_pushBack, hp]
  rfl

theorem receiveError_error (h : k.recv n = some (.error e, k')) :
    receiveError k.pending = if e = EINTR then receiveError k'.pending else some e := by
  unfold Inlet.recv at h
  split at h <;> simp only [Option.some.injEq, Prod.mk.injEq, Read.error.injEq, reduceCtorEq,
    false_and] at h
  rename_i hp
  obtain ⟨rfl, rfl⟩ := h
  rw [hp]
  rfl

/-- How a receive operation ends: without an error, with the reason of a read, or with its
limit reached. -/
inductive ReceiveEnd (c : SyncClient) (k : Inlet Byte Errno) (limit : Nat) : Received → Prop where
  | fine {r : Received} (hresult : r.result.fine = true) (hclient : r.client = c.clearLastError) :
      ReceiveEnd c k limit r
  | error {r : Received} (e : Errno) (he : receiveError k.pending = some e)
      (hresult : r.result = SyncClient.classifySocketError e)
      (hclient : r.client = c.setLastPlatformError e) : ReceiveEnd c k limit r
  | full {r : Received} (hfull : limit ≤ r.out.length) (hresult : r.result = .failed)
      (hclient : r.client = c.setLastPlatformError EMSGSIZE) : ReceiveEnd c k limit r

variable {c : SyncClient} {limit : Nat} {r : Received}

theorem ReceiveEnd.of_pending (h : ReceiveEnd c k' limit r)
    (hpending : receiveError k'.pending = receiveError k.pending) : ReceiveEnd c k limit r := by
  cases h with
  | fine hresult hclient => exact .fine hresult hclient
  | error e he hresult hclient => exact .error e (hpending ▸ he) hresult hclient
  | full hfull hresult hclient => exact .full hfull hresult hclient

theorem ReceiveEnd.socket (h : ReceiveEnd c k limit r) : r.client.mSocket = c.mSocket := by
  cases h with
  | fine _ hclient => rw [hclient]; rfl
  | error _ _ _ hclient => rw [hclient]; rfl
  | full _ _ hclient => rw [hclient]; rfl

namespace SyncClient

theorem failWith_end {out : Buffer} (hc : k.recv n = some (.error e, k')) (he : e ≠ EINTR) :
    ReceiveEnd c k limit (c.failWith e out k') := by
  refine .error e ?_ rfl rfl
  rw [receiveError_error hc, if_neg he]

theorem receiveSomeLoop_end (limit : Nat) (hc : c.clearLastError = c)
    (h : c.receiveSomeLoop n k = some r) : ReceiveEnd c k limit r := by
  fun_induction receiveSomeLoop c n k with
  | case1 => cases h
  | case2 k bs k' hrecv =>
    obtain rfl := Option.some.inj h
    exact .fine rfl hc.symm
  | case3 k k' hrecv =>
    obtain rfl := Option.some.inj h
    exact .fine rfl hc.symm
  | case4 k k' hrecv _ ih =>
    exact (ih h).of_pending (by rw [receiveError_error hrecv, if_pos rfl])
  | case5 k e k' hrecv he =>
    obtain rfl := Option.some.inj h
    exact failWith_end hrecv he

theorem receiveSome_end (limit : Nat) (h : c.receiveSome n k = some r) :
    ReceiveEnd c k limit r := by
  unfold receiveSome at h
  split at h
  · obtain rfl := Option.some.inj h
    exact .fine rfl rfl
  · split at h
    · obtain rfl := Option.some.inj h
      exact .fine rfl rfl
    · cases receiveSomeLoop_end limit (by rfl) h with
      | fine hresult hclient => exact .fine hresult hclient
      | error e he hresult hclient => exact .error e he hresult hclient
      | full hfull hresult hclient => exact .full hfull hresult hclient

/-- A successful read leaves what ends the operation to the reads behind it. -/
theorem receiveSomeLoop_pending (h : c.receiveSomeLoop n k = some r)
    (hr : r.result = .success) : receiveError r.inlet.pending = receiveError k.pending := by
  fun_induction receiveSomeLoop c n k with
  | case1 => cases h
  | case2 k bs k' hrecv =>
    obtain rfl := Option.some.inj h
    exact receiveError_bytes hrecv
  | case3 =>
    obtain rfl := Option.some.inj h
    cases hr
  | case4 k k' hrecv _ ih => rw [ih h, receiveError_error hrecv, if_pos rfl]
  | case5 k e k' hrecv he =>
    obtain rfl := Option.some.inj h
    have hfine := classifySocketError_not_fine e
    rw [show classifySocketError e = .success from hr] at hfine
    cases hfine

theorem receiveSome_pending (h : c.receiveSome n k = some r) (hr : r.result = .success) :
    receiveError r.inlet.pending = receiveError k.pending := by
  unfold receiveSome at h
  split at h
  · obtain rfl := Option.some.inj h
    cases hr
  · split at h
    · obtain rfl := Option.some.inj h
      cases hr
    · exact receiveSomeLoop_pending h hr

/-- A successful read leaves a client without an error. -/
theorem receiveSome_client (h : c.receiveSome n k = some r) (hr : r.result.fine = true) :
    r.client = c.clearLastError := by
  cases receiveSome_end 0 h with
  | fine _ hclient => exact hclient
  | error e _ hresult _ =>
    rw [hresult, classifySocketError_not_fine] at hr
    cases hr
  | full _ hresult _ =>
    rw [hresult] at hr
    cases hr

theorem receiveExactLoop_end {out : Buffer} (hc : c.clearLastError = c)
    (h : c.receiveExactLoop n out k = some r) : ReceiveEnd c k limit r := by
  fun_induction receiveExactLoop c n out k with
  | case1 => cases h
  | case2 out k hlt bs k' hrecv _ ih => exact (ih h).of_pending (receiveError_bytes hrecv)
  | case3 out k hlt k' hrecv =>
    obtain rfl := Option.some.inj h
    exact .fine rfl hc.symm
  | case4 out k hlt k' hrecv _ ih =>
    exact (ih h).of_pending (by rw [receiveError_error hrecv, if_pos rfl])
  | case5 out k hlt e k' hrecv he =>
    obtain rfl := Option.some.inj h
    exact failWith_end hrecv he
  | case6 out k hge =>
    obtain rfl := Option.some.inj h
    exact .fine rfl hc.symm

/-- A loop hands on how a chunk has ended, with what it has collected so far. -/
theorem receiveSome_end_with {chunk : Received} (out : Buffer)
    (h : c.receiveSome n k = some chunk) :
    ReceiveEnd c k limit ⟨chunk.result, out, chunk.client, chunk.inlet⟩ := by
  -- a chunk is never too long for itself
  cases receiveSome_end (chunk.out.length + 1) h with
  | fine hresult hclient => exact .fine hresult hclient
  | error e he hresult hclient => exact .error e he hresult hclient
  | full hfull _ _ => exact absurd hfull (Nat.not_succ_le_self _)

theorem receiveUntilDelimiterLoop_end {delimiter out : Buffer} (hc : c.clearLastError = c)
    (h : c.receiveUntilDelimiterLoop delimiter n out k = some r) : ReceiveEnd c k n r := by
  fun_induction receiveUntilDelimiterLoop c delimiter n out k with
  | case1 => cases h
  | case2 c out k hlt chunk hread hok hfound =>
    obtain rfl := Option.some.inj h
    have hclient : chunk.client = c.clearLastError := receiveSome_client hread (hok ▸ rfl)
    exact .fine rfl hclient
  | case3 c out k hlt chunk hread hok hfound _ ih =>
    have hclient : chunk.client = c := (receiveSome_client hread (hok ▸ rfl)).trans hc
    rw [hclient] at h ih
    exact (ih hc h).of_pending (receiveSome_pending hread hok)
  | case4 c out k hlt chunk hread hfail =>
    obtain rfl := Option.some.inj h
    exact receiveSome_end_with out hread
  | case5 c out k hge =>
    obtain rfl := Option.some.inj h
    exact .full (Nat.le_of_not_lt hge) rfl rfl

theorem receiveUntilClosedLoop_end {out : Buffer} (hc : c.clearLastError = c)
    (h : c.receiveUntilClosedLoop n out k = some r) : ReceiveEnd c k n r := by
  fun_induction receiveUntilClosedLoop c n out k with
  | case1 => cases h
  | case2 c out k hlt chunk hread hok _ ih =>
    have hclient : chunk.client = c := (receiveSome_client hread (hok ▸ rfl)).trans hc
    rw [hclient] at h ih
    exact (ih hc h).of_pending (receiveSome_pending hread hok)
  | case3 c out k hlt chunk hread hfail hclosed =>
    obtain rfl := Option.some.inj h
    exact .fine rfl (by rw [receiveSome_client hread (hclosed ▸ rfl)]; rfl)
  | case4 c out k hlt chunk hread hfail hclosed =>
    obtain rfl := Option.some.inj h
    exact receiveSome_end_with out hread
  | case5 c out k hge =>
    obtain rfl := Option.some.inj h
    exact .full (Nat.le_of_not_lt hge) rfl rfl

end SyncClient

theorem ReceiveCall.perform_end {call : ReceiveCall} (h : call.perform c k = some r) :
    ReceiveEnd c k call.limit r := by
  -- the loops start from a client without an error
  have fromCleared {r : Received} {n : Nat} (hr : ReceiveEnd c.clearLastError k n r) :
      ReceiveEnd c k n r := by
    cases hr with
    | fine hresult hclient => exact .fine hresult hclient
    | error e he hresult hclient => exact .error e he hresult hclient
    | full hfull hresult hclient => exact .full hfull hresult hclient
  cases call with
  | receiveSome n => exact SyncClient.receiveSome_end n h
  | receiveExact n =>
    simp only [perform, SyncClient.receiveExact] at h
    split at h
    · obtain rfl := Option.some.inj h
      exact .fine rfl rfl
    · split at h
      · obtain rfl := Option.some.inj h
        exact .fine rfl rfl
      · exact fromCleared (SyncClient.receiveExactLoop_end rfl h)
  | receiveUntilDelimiter d n =>
    simp only [perform, SyncClient.receiveUntilDelimiter] at h
    split at h
    · obtain rfl := Option.some.inj h
      exact .fine rfl rfl
    · split at h
      · obtain rfl := Option.some.inj h
        exact .fine rfl rfl
      · exact fromCleared (SyncClient.receiveUntilDelimiterLoop_end rfl h)
  | receiveUntilClosed n =>
    simp only [perform, SyncClient.receiveUntilClosed] at h
    split at h
    · obtain rfl := Option.some.inj h
      exact .fine rfl rfl
    · split at h
      · obtain rfl := Option.some.inj h
        exact .fine rfl rfl
      · exact fromCleared (SyncClient.receiveUntilClosedLoop_end rfl h)

end Receive

/-! ## Sending -/

section Send
variable {h t : SyncHost} {result : IOResult} {size : Nat} {answers : List SendAnswer}

/-- How `sendAll` ends, with the reason of its last system call. -/
inductive SendEnd (c : SyncClient) (reason : Option Errno) (result : IOResult)
    (c' : SyncClient) : Prop where
  | fine (hreason : result = .success → reason = none) (hresult : result.fine = true)
      (hclient : c' = c.clearLastError)
  | error (e : Errno) (hreason : reason = some e)
      (hresult : result = SyncClient.classifySocketError e)
      (hclient : c' = c.setLastPlatformError e)

@[simp] theorem SyncHost.recordSent_client (h : SyncHost) (payload : Buffer) (i n : Nat) :
    (h.recordSent payload i n).client = h.client := by
  unfold SyncHost.recordSent
  split <;> rfl

namespace SyncHost

theorem sendAllLoop_end {payload : Buffer} {totalSent : Nat}
    (hsent : ∀ n, .sent n ∈ answers → 0 < n) (hc : h.client.clearLastError = h.client)
    (hs : h.sendAllLoop payload size totalSent answers = some (result, t)) :
    SendEnd h.client (sendError (size - totalSent) answers) result t.client := by
  fun_induction sendAllLoop h payload size totalSent answers with
  | case1 => cases hs
  | case2 h totalSent hge =>
    obtain ⟨rfl, rfl⟩ := Prod.mk.inj (Option.some.inj hs)
    exact .fine (fun _ => rfl) rfl hc.symm
  | case3 h totalSent rest hlt n hn ih =>
    have hrest := ih (fun m hm => hsent m (List.mem_cons_of_mem _ hm))
      (by rw [recordSent_client, hc]) hs
    rw [recordSent_client] at hrest
    rw [sendError, if_neg (by omega)]
    rwa [Nat.sub_sub]
  | case4 h totalSent rest hlt n hn => exact absurd (hsent n (List.mem_cons_self ..)) hn
  | case5 h totalSent rest hlt ih =>
    have hrest := ih (fun m hm => hsent m (List.mem_cons_of_mem _ hm)) hc hs
    rw [sendError, if_neg (by omega)]
    rwa [if_pos rfl]
  | case6 h totalSent rest hlt e he =>
    obtain ⟨rfl, rfl⟩ := Prod.mk.inj (Option.some.inj hs)
    refine .error e ?_ rfl rfl
    rw [sendError, if_neg (by omega)]
    exact if_neg he
  | case7 h totalSent answer rest hge =>
    obtain ⟨rfl, rfl⟩ := Prod.mk.inj (Option.some.inj hs)
    refine .fine (fun _ => ?_) rfl hc.symm
    rw [show size - totalSent = 0 by omega]
    cases rest <;> rfl

theorem sendAll_end {data : Option Buffer} (hsent : ∀ n, .sent n ∈ answers → 0 < n)
    (hs : h.sendAll data size answers = some (result, t)) :
    SendEnd h.client (sendError size answers) result t.client := by
  unfold sendAll at hs
  split at hs
  · next hsize =>
    obtain ⟨rfl, rfl⟩ := Prod.mk.inj (Option.some.inj hs)
    refine .fine (fun _ => ?_) rfl rfl
    rw [hsize]
    cases answers <;> rfl
  · cases data with
    | none =>
      obtain ⟨rfl, rfl⟩ := Prod.mk.inj (Option.some.inj hs)
      exact .fine nofun rfl rfl
    | some payload =>
      simp only at hs
      split at hs
      · obtain ⟨rfl, rfl⟩ := Prod.mk.inj (Option.some.inj hs)
        exact .fine nofun rfl rfl
      · cases sendAllLoop_end hsent rfl hs with
        | fine hreason hresult hclient => exact .fine hreason hresult hclient
        | error e hreason hresult hclient => exact .error e hreason hresult hclient

end SyncHost

theorem SendEnd.socket {c c' : SyncClient} {reason : Option Errno}
    (hend : SendEnd c reason result c') : c'.mSocket = c.mSocket := by
  cases hend with
  | fine _ _ hclient => rw [hclient]; rfl
  | error _ _ _ hclient => rw [hclient]; rfl

end Send

/-! ## Connecting -/

def SyncHost.lastErrors (h : SyncHost) : Errno × Int :=
  (h.client.mLastPlatformError, h.client.mLastAddressInfoError)

/-- What made a call fail: a system call, or `::getaddrinfo`. -/
inductive Cause where
  | platform (e : Errno)
  | addressInfo (code : Int)
  deriving DecidableEq, Repr

/-- The two error members, if this is what they tell. -/
def Cause.lastErrors : Cause → Errno × Int
  | .platform e => (e, 0)
  | .addressInfo code => (0, code)

/-- Why a list leads to no connection: the reason of its last entry, if all fail. -/
def lastReason : List Candidate → Option Errno
  | [] => none
  | x :: rest =>
    match x.reason with
    | none => none
    | some e => if rest.isEmpty then some e else lastReason rest

def Lookup.cause (l : Lookup) : Option Cause :=
  if l.code ≠ 0 then some (.addressInfo l.code) else (lastReason l.candidates).map .platform

section Connect
variable {h t : SyncHost}

theorem SyncHost.connectLoop_end (cs : List Candidate) (hcs : cs ≠ []) :
    match lastReason cs with
    | none => ∃ t, h.connectLoop cs = (true, t) ∧ t.isConnected = true ∧ t.lastErrors = (0, 0)
    | some e => ∃ t, h.connectLoop cs = (false, t) ∧ t.lastErrors = (e, 0) := by
  induction cs generalizing h with
  | nil => exact absurd rfl hcs
  | cons x rest ih =>
    cases hx : x.reason with
    | none =>
      obtain ⟨k, hk, -, -⟩ := connectLoop_ok (h := h) rest hx
      simp only [lastReason, hx]
      exact ⟨_, hk, rfl, rfl⟩
    | some e =>
      obtain ⟨k, hk, -⟩ := connectLoop_error (h := h) rest hx
      simp only [lastReason, hx]
      rw [hk]
      cases rest with
      | nil => exact ⟨_, rfl, rfl⟩
      | cons y ys => exact ih (List.cons_ne_nil y ys)

theorem SyncHost.connect_ok {l : Lookup} (r : CloseReply) (hl : l.code = 0 → l.candidates ≠ [])
    (hcause : l.cause = none) :
    ∃ t, h.connect r l = (true, t) ∧ t.isConnected = true ∧ t.lastErrors = (0, 0) := by
  unfold Lookup.cause at hcause
  split at hcause
  · cases hcause
  · next hcode =>
    have hend := connectLoop_end (h := (h.close r).clearLastError) l.candidates
      (hl (not_not.mp hcode))
    rw [Option.map_eq_none_iff.mp hcause] at hend
    rwa [connect, if_neg hcode]

theorem SyncHost.connect_error {l : Lookup} {c : Cause} (r : CloseReply)
    (hl : l.code = 0 → l.candidates ≠ []) (hcause : l.cause = some c) :
    ∃ t, h.connect r l = (false, t) ∧ t.lastErrors = c.lastErrors := by
  unfold Lookup.cause at hcause
  split at hcause
  · next hcode =>
    obtain rfl := Option.some.inj hcause
    exact ⟨_, by rw [connect, if_pos hcode], rfl⟩
  · next hcode =>
    obtain ⟨e, he, rfl⟩ := Option.map_eq_some_iff.mp hcause
    have hend := connectLoop_end (h := (h.close r).clearLastError) l.candidates
      (hl (not_not.mp hcode))
    rw [he] at hend
    rwa [connect, if_neg hcode]

end Connect

/-! ## What a call has failed of -/

/-- What makes a receive operation fail that has filled `out`. -/
inductive ReceiveCause (call : ReceiveCall) (inlet : Inlet Byte Errno) (out : Buffer) :
    Cause → Prop where
  | error (e : Errno) (he : receiveError inlet.pending = some e) :
      ReceiveCause call inlet out (.platform e)
  | full (hfull : call.limit ≤ out.length) : ReceiveCause call inlet out (.platform EMSGSIZE)

/-- What makes an exchange fail: the first of its stages that does. The answers to the scope
guard and to the cleanup of a candidate are no part of it. -/
inductive ExchangeCause (x : Exchange) (size : Nat) (shutdown : Reply) (call : ReceiveCall)
    (out : Buffer) : Cause → Prop where
  | connect (c : Cause) (hc : x.lookup.cause = some c) : ExchangeCause x size shutdown call out c
  | send (e : Errno) (hconnect : x.lookup.cause = none)
      (he : sendError size x.answers = some e) :
      ExchangeCause x size shutdown call out (.platform e)
  | shutdown (e : Errno) (hconnect : x.lookup.cause = none)
      (hsend : sendError size x.answers = none) (he : shutdown.reason = some e) :
      ExchangeCause x size shutdown call out (.platform e)
  | receive (c : Cause) (hconnect : x.lookup.cause = none)
      (hsend : sendError size x.answers = none) (hshutdown : shutdown.reason = none)
      (hc : ReceiveCause call x.inlet out c) : ExchangeCause x size shutdown call out c

/-- `call` fails of this, with `out` in the caller's buffer. -/
def SyncCall.FailsOf (call : SyncCall) (out : Buffer) (c : Cause) : Prop :=
  match call with
  | .sendAll _ size answers => ∃ e, sendError size answers = some e ∧ c = .platform e
  | .receive call inlet => ReceiveCause call inlet out c
  | .exchangeOnce _ size n x => ExchangeCause x size .ok (.receiveSome n) out c
  | .exchangeOnceUntilClosed _ size n x =>
    ExchangeCause x size x.shutdown (.receiveUntilClosed n) out c
  | _ => False

/-- A result and the error members tell the same, `causes` being what may have gone wrong. -/
inductive Agree (causes : Cause → Prop) (result : IOResult) (errors : Errno × Int) : Prop where
  | fine (hresult : result.fine = true) (herrors : errors = (0, 0)) : Agree causes result errors
  | failed (c : Cause) (hc : causes c) (hresult : result.fine = false)
      (herrors : errors = c.lastErrors) : Agree causes result errors

section Agree
variable {h t : SyncHost} {causes causes' : Cause → Prop} {result : IOResult}
  {errors : Errno × Int}

theorem Agree.mono (ha : Agree causes result errors) (himp : ∀ c, causes c → causes' c) :
    Agree causes' result errors := by
  cases ha with
  | fine hresult herrors => exact .fine hresult herrors
  | failed c hc hresult herrors => exact .failed c (himp c hc) hresult herrors

/-- The scope guard runs into nothing that the error members tell. -/
@[simp] theorem SyncHost.close_lastErrors (h : SyncHost) (r : CloseReply) :
    (h.close r).lastErrors = h.lastErrors := by
  unfold SyncHost.close
  split <;> rfl

theorem SyncHost.receive_agree {call : ReceiveCall} {inlet : Inlet Byte Errno} {d : Exchanged}
    (hd : h.receive call inlet = some d) :
    Agree (ReceiveCause call inlet d.out) d.result d.host.lastErrors := by
  obtain ⟨r, hr, rfl⟩ := Option.map_eq_some_iff.mp hd
  cases ReceiveCall.perform_end hr with
  | fine hresult hclient => exact .fine hresult (by simp only [lastErrors, hclient]; rfl)
  | error e he hresult hclient =>
    exact .failed (.platform e) (.error e he) (hresult ▸ classifySocketError_not_fine e)
      (by simp only [lastErrors, hclient]; rfl)
  | full hfull hresult hclient =>
    exact .failed (.platform EMSGSIZE) (.full hfull) (hresult ▸ rfl)
      (by simp only [lastErrors, hclient]; rfl)

theorem SyncHost.sendAll_agree {data : Option Buffer} {size : Nat} {answers : List SendAnswer}
    (hsent : ∀ n, .sent n ∈ answers → 0 < n)
    (hs : h.sendAll data size answers = some (result, t)) :
    Agree (fun c => ∃ e, sendError size answers = some e ∧ c = .platform e) result
      t.lastErrors := by
  cases sendAll_end hsent hs with
  | fine _ hresult hclient => exact .fine hresult (by simp only [lastErrors, hclient]; rfl)
  | error e he hresult hclient =>
    exact .failed (.platform e) ⟨e, he, rfl⟩ (hresult ▸ classifySocketError_not_fine e)
      (by simp only [lastErrors, hclient]; rfl)

theorem SyncHost.shutdownWrite_end (r : Reply) (hopen : h.isConnected = true) :
    match r.reason with
    | none => ∃ t, h.shutdownWrite r = (true, t)
    | some e => ∃ t, h.shutdownWrite r = (false, t) ∧ t.lastErrors = (e, 0) := by
  unfold shutdownWrite
  rw [hopen]
  cases r with
  | ok => exact ⟨_, rfl⟩
  | error e => exact ⟨_, rfl, rfl⟩

end Agree

/-! ## Calls -/

def Reply.Documented (r : Reply) : Prop := ∀ e, r = .error e → e ≠ 0

structure Candidate.Documented (x : Candidate) : Prop where
  socket : x.socket.Documented
  sendTimeout : x.sendTimeout.Documented
  receiveTimeout : x.receiveTimeout.Documented
  connect : x.connect.Documented

def Lookup.Documented (l : Lookup) : Prop :=
  (∀ x ∈ l.candidates, x.Documented) ∧ (l.code = 0 → l.candidates ≠ [])

def SendAnswer.Documented : SendAnswer → Prop
  | .sent n => 0 < n
  | .error e => e ≠ 0

structure Exchange.Documented (x : Exchange) : Prop where
  lookup : x.lookup.Documented
  answers : ∀ a ∈ x.answers, a.Documented
  shutdown : x.shutdown.Documented
  inlet : ∀ e, .error e ∈ x.inlet.pending → e ≠ 0

/-- A system call that fails gives a reason, one that sends takes at least one byte, and a name
that is found has an address. -/
def SyncCall.Documented : SyncCall → Prop
  | .sendAll _ _ answers => ∀ a ∈ answers, a.Documented
  | .receive _ inlet => ∀ e, .error e ∈ inlet.pending → e ≠ 0
  | .exchangeOnce _ _ _ x | .exchangeOnceUntilClosed _ _ _ x => x.Documented
  | _ => True

section Calls
variable {h t : SyncHost} {x : Exchange} {data : Option Buffer} {size n : Nat} {d : Exchanged}
  {out : Buffer} {result : IOResult}

theorem sent_of_documented {answers : List SendAnswer} (hdoc : ∀ a ∈ answers, a.Documented) :
    ∀ m, .sent m ∈ answers → 0 < m := fun m hm => hdoc (.sent m) hm

theorem sendError_of_success {answers : List SendAnswer}
    (hdoc : ∀ a ∈ answers, a.Documented)
    (hs : h.sendAll data size answers = some (.success, t)) :
    sendError size answers = none := by
  cases SyncHost.sendAll_end (sent_of_documented hdoc) hs with
  | fine hreason _ _ => exact hreason rfl
  | error e _ hresult _ =>
    have hfine := classifySocketError_not_fine e
    rw [← hresult] at hfine
    cases hfine

theorem sendAll_agree_exchange {shutdown : Reply} {call : ReceiveCall} (hx : x.Documented)
    (hl : x.lookup.cause = none) (hs : h.sendAll data size x.answers = some (result, t)) :
    Agree (ExchangeCause x size shutdown call out) result t.lastErrors := by
  refine (SyncHost.sendAll_agree (sent_of_documented hx.answers) hs).mono ?_
  rintro _ ⟨e, he, rfl⟩
  exact .send e hl he

/-- What is expected of an exchange holds of it as soon as it holds behind `connect`. -/
theorem exchange_agree {rest : SyncHost → Option Exchanged} {shutdown : Reply}
    {call : ReceiveCall} (hx : x.Documented)
    (hrest : ∀ t d, x.lookup.cause = none → t.isConnected = true → rest t = some d →
      Agree (ExchangeCause x size shutdown call d.out) d.result d.host.lastErrors)
    (hd : (match h.connect x.close x.lookup with
      | (false, h) => some ⟨.failed, [], h⟩
      | (true, h) => closeOnExit x.cleanup (rest h)) = some d) :
    Agree (ExchangeCause x size shutdown call d.out) d.result d.host.lastErrors := by
  cases hl : x.lookup.cause with
  | some c =>
    obtain ⟨t, ht, herrors⟩ := SyncHost.connect_error (h := h) x.close hx.lookup.2 hl
    rw [ht] at hd
    obtain rfl := Option.some.inj hd
    exact .failed c (.connect c hl) rfl herrors
  | none =>
    obtain ⟨t, ht, hopen, -⟩ := SyncHost.connect_ok (h := h) x.close hx.lookup.2 hl
    rw [ht] at hd
    obtain ⟨d', hd', rfl⟩ := Option.map_eq_some_iff.mp hd
    rw [SyncHost.close_lastErrors]
    exact hrest t d' hl hopen hd'

theorem SyncHost.exchangeOnce_agree (hx : x.Documented)
    (hd : h.exchangeOnce data size n x = some d) :
    Agree (ExchangeCause x size .ok (.receiveSome n) d.out) d.result d.host.lastErrors := by
  refine exchange_agree hx (fun t d hl hopen hrest => ?_) hd
  rcases afterSend hrest with ⟨h₁, hs, hr⟩ | ⟨sendResult, h₁, hs, rfl⟩
  · exact (receive_agree hr).mono fun c hc =>
      .receive c hl (sendError_of_success hx.answers hs) rfl hc
  · exact sendAll_agree_exchange hx hl hs

theorem SyncHost.exchangeOnceUntilClosed_agree (hx : x.Documented)
    (hd : h.exchangeOnceUntilClosed data size n x = some d) :
    Agree (ExchangeCause x size x.shutdown (.receiveUntilClosed n) d.out) d.result
      d.host.lastErrors := by
  refine exchange_agree hx (fun t d hl hopen hrest => ?_) hd
  rcases afterSend hrest with ⟨h₁, hs, hr⟩ | ⟨sendResult, h₁, hs, rfl⟩
  · have hsend := sendError_of_success hx.answers hs
    -- sending has kept the descriptor, so the connection is shut down
    have hopen₁ : h₁.isConnected = true := by
      have hsocket := (sendAll_end (sent_of_documented hx.answers) hs).socket
      unfold isConnected SyncClient.isConnected at hopen ⊢
      rwa [hsocket]
    have hshutdown := shutdownWrite_end x.shutdown hopen₁
    cases hreason : x.shutdown.reason with
    | some e =>
      rw [hreason] at hshutdown
      obtain ⟨h₂, hh₂, herrors⟩ := hshutdown
      rw [hh₂] at hr
      obtain rfl := Option.some.inj hr
      exact .failed (.platform e) (.shutdown e hl hsend hreason) rfl herrors
    | none =>
      rw [hreason] at hshutdown
      obtain ⟨h₂, hh₂⟩ := hshutdown
      rw [hh₂] at hr
      exact (receive_agree hr).mono fun c hc => .receive c hl hsend hreason hc
  · exact sendAll_agree_exchange hx hl hs

/-- Whatever was behind the client before the call. -/
theorem SyncHost.perform_agree {call : SyncCall} (hdoc : call.Documented)
    (hp : h.perform call = some (.io result out, t)) :
    Agree (call.FailsOf out) result t.lastErrors := by
  cases call with
  | connect r l => cases hp
  | reconnect r r' l => cases hp
  | close r => cases hp
  | shutdownWrite r => cases hp
  | setSendTimeout timeout r => cases hp
  | setReceiveTimeout timeout r => cases hp
  | sendAll data size answers =>
    obtain ⟨d, hd, heq⟩ := Option.map_eq_some_iff.mp hp
    cases heq
    exact sendAll_agree (sent_of_documented hdoc) hd
  | receive call inlet =>
    obtain ⟨d, hd, heq⟩ := Option.map_eq_some_iff.mp hp
    cases heq
    exact receive_agree hd
  | exchangeOnce data size n x =>
    obtain ⟨d, hd, heq⟩ := Option.map_eq_some_iff.mp hp
    cases heq
    exact exchangeOnce_agree hdoc hd
  | exchangeOnceUntilClosed data size n x =>
    obtain ⟨d, hd, heq⟩ := Option.map_eq_some_iff.mp hp
    cases heq
    exact exchangeOnceUntilClosed_agree hdoc hd

/-! ### A reason is never zero -/

theorem mem_of_receiveError {pending : List (Event Byte Errno)} {e : Errno}
    (he : receiveError pending = some e) : .error e ∈ pending := by
  induction pending with
  | nil => cases he
  | cons event rest ih =>
    cases event with
    | data b bs => exact List.mem_cons_of_mem _ (ih he)
    | eof => exact List.mem_cons_of_mem _ (ih he)
    | error e' =>
      rw [receiveError] at he
      split at he
      · exact List.mem_cons_of_mem _ (ih he)
      · obtain rfl := Option.some.inj he
        exact List.mem_cons_self ..

theorem mem_of_sendError {answers : List SendAnswer} {e : Errno}
    (he : sendError size answers = some e) : .error e ∈ answers := by
  induction answers generalizing size with
  | nil => cases he
  | cons answer rest ih =>
    cases answer with
    | sent m =>
      rw [sendError] at he
      split at he
      · cases he
      · exact List.mem_cons_of_mem _ (ih he)
    | error e' =>
      rw [sendError] at he
      split at he
      · cases he
      · split at he
        · exact List.mem_cons_of_mem _ (ih he)
        · obtain rfl := Option.some.inj he
          exact List.mem_cons_self ..

theorem reason_of_lastReason {cs : List Candidate} {e : Errno} (he : lastReason cs = some e) :
    ∃ x ∈ cs, x.reason = some e := by
  induction cs with
  | nil => cases he
  | cons x rest ih =>
    rw [lastReason] at he
    cases hx : x.reason with
    | none =>
      rw [hx] at he
      cases he
    | some e' =>
      rw [hx] at he
      simp only at he
      split at he
      · exact ⟨x, List.mem_cons_self .., hx.trans he⟩
      · obtain ⟨y, hy, hreason⟩ := ih he
        exact ⟨y, List.mem_cons_of_mem _ hy, hreason⟩

theorem Reply.Documented.reason {r : Reply} {e : Errno} (hr : r.Documented)
    (he : r.reason = some e) : e ≠ 0 := by
  cases r with
  | ok => cases he
  | error e' =>
    obtain rfl := Option.some.inj he
    exact hr e' rfl

theorem Candidate.Documented.reason {x : Candidate} {e : Errno} (hx : x.Documented)
    (he : x.reason = some e) : e ≠ 0 := by
  unfold Candidate.reason Candidate.configureReason at he
  simp only [Option.orElse_eq_orElse, Option.orElse_eq_or, Option.or_eq_some_iff] at he
  rcases he with he | ⟨-, (he | ⟨-, he⟩) | ⟨-, he⟩⟩
  · exact hx.socket.reason he
  · exact hx.sendTimeout.reason he
  · exact hx.receiveTimeout.reason he
  · exact hx.connect.reason he

def Cause.number : Cause → Int
  | .platform e => e
  | .addressInfo code => code

theorem Lookup.Documented.number_ne_zero {l : Lookup} {c : Cause} (hl : l.Documented)
    (hc : l.cause = some c) : c.number ≠ 0 := by
  unfold Lookup.cause at hc
  split at hc
  · next hcode =>
    obtain rfl := Option.some.inj hc
    exact hcode
  · obtain ⟨e, he, rfl⟩ := Option.map_eq_some_iff.mp hc
    obtain ⟨x, hx, hreason⟩ := reason_of_lastReason he
    exact (hl.1 x hx).reason hreason

theorem ReceiveCause.number_ne_zero {call : ReceiveCall} {inlet : Inlet Byte Errno} {c : Cause}
    (hinlet : ∀ e, .error e ∈ inlet.pending → e ≠ 0) (hc : ReceiveCause call inlet out c) :
    c.number ≠ 0 := by
  cases hc with
  | error e he => exact hinlet e (mem_of_receiveError he)
  | full _ => decide

theorem ExchangeCause.number_ne_zero {shutdown : Reply} {call : ReceiveCall} {c : Cause}
    (hx : x.Documented) (hshutdown : shutdown.Documented)
    (hc : ExchangeCause x size shutdown call out c) : c.number ≠ 0 := by
  cases hc with
  | connect _ hc => exact hx.lookup.number_ne_zero hc
  | send e _ he => exact hx.answers _ (mem_of_sendError he)
  | shutdown e _ _ he => exact hshutdown.reason he
  | receive _ _ _ _ hc => exact hc.number_ne_zero hx.inlet

theorem SyncCall.FailsOf.number_ne_zero {call : SyncCall} {c : Cause} (hdoc : call.Documented)
    (hc : call.FailsOf out c) : c.number ≠ 0 := by
  cases call with
  | connect r l => exact hc.elim
  | reconnect r r' l => exact hc.elim
  | close r => exact hc.elim
  | shutdownWrite r => exact hc.elim
  | setSendTimeout timeout r => exact hc.elim
  | setReceiveTimeout timeout r => exact hc.elim
  | sendAll data size answers =>
    obtain ⟨e, he, rfl⟩ := hc
    exact hdoc _ (mem_of_sendError he)
  | receive call inlet => exact ReceiveCause.number_ne_zero hdoc hc
  | exchangeOnce data size n x =>
    exact ExchangeCause.number_ne_zero hdoc (fun e he => by cases he) hc
  | exchangeOnceUntilClosed data size n x =>
    exact ExchangeCause.number_ne_zero hdoc hdoc.shutdown hc

theorem Cause.exactly_one {c : Cause} (hc : c.number ≠ 0) :
    Xor (c.lastErrors.1 ≠ 0) (c.lastErrors.2 ≠ 0) := by
  cases c with
  | platform e => exact .inl ⟨hc, not_not.mpr rfl⟩
  | addressInfo code => exact .inr ⟨hc, not_not.mpr rfl⟩

end Calls

/-- After any operation with a result, from whatever the operations before it have left: a
result that is no failure leaves both members zero, and a failure leaves exactly one that is
not, which tells what this operation has failed of. -/
theorem last_errors_agree_with_result (h : SyncHost) (call : SyncCall)
    (hdoc : call.Documented) {result : IOResult} {out : Buffer} {t : SyncHost}
    (hp : h.perform call = some (.io result out, t)) :
    (result.fine = true → t.client.mLastPlatformError = 0 ∧ t.client.mLastAddressInfoError = 0) ∧
      (result.fine = false →
        Xor (t.client.mLastPlatformError ≠ 0) (t.client.mLastAddressInfoError ≠ 0) ∧
          ∃ c, call.FailsOf out c ∧ t.lastErrors = c.lastErrors) := by
  cases SyncHost.perform_agree hdoc hp with
  | fine hresult herrors =>
    refine ⟨fun _ => Prod.mk.inj herrors, fun hfailed => ?_⟩
    rw [hresult] at hfailed
    cases hfailed
  | failed c hc hresult herrors =>
    refine ⟨fun hfine => ?_, fun _ => ⟨?_, c, hc, herrors⟩⟩
    · rw [hresult] at hfine
      cases hfine
    · have hone := Cause.exactly_one (hc.number_ne_zero hdoc)
      rwa [← herrors] at hone

/-- Of two entries the last is refused, and closing its descriptor fails too. -/
def refusedExchange : SyncCall :=
  .exchangeOnce (some [1]) 1 16 { lookup := { candidates :=
    [{ socket := .error 97 }, { connect := .error 111, cleanup := { close := .error 5 } }] } }

theorem last_errors_agree_with_result_refused :
    ∃ t, SyncHost.perform { client := { mLastAddressInfoError := -2 } } refusedExchange =
        some (.io .failed [], t) ∧ t.lastErrors = (111, 0) ∧
      Xor (t.client.mLastPlatformError ≠ 0) (t.client.mLastAddressInfoError ≠ 0) ∧
        ∃ c, refusedExchange.FailsOf [] c ∧ t.lastErrors = c.lastErrors := by
  have hdoc : refusedExchange.Documented := by
    refine ⟨⟨?_, nofun⟩, nofun, nofun, nofun⟩
    rintro x (_ | ⟨_, _ | ⟨_, ⟨⟩⟩⟩)
    · exact ⟨fun e he => by cases he; decide, nofun, nofun, nofun⟩
    · exact ⟨nofun, nofun, nofun, fun e he => by cases he; decide⟩
  exact ⟨_, rfl, rfl, (last_errors_agree_with_result _ refusedExchange hdoc rfl).2 rfl⟩

end ThreadComponent
