import ThreadComponent.SyncClient

/-!
# Received bytes are neither lost nor repeated nor reordered

Each operation leaves in the caller's buffer exactly what the kernel handed over during
the call, whatever the result, and never more than the limit it was given.
-/

set_option autoImplicit false

namespace ThreadComponent

open StreamSocket

/-- During a call that started at `k`, the kernel handed over exactly `bs`. -/
def Delivers (k : Inlet Byte Errno) (bs : Buffer) (k' : Inlet Byte Errno) : Prop :=
  k'.delivered = k.delivered ++ bs

theorem Delivers.nil (k : Inlet Byte Errno) : Delivers k [] k := (List.append_nil _).symm

theorem Delivers.append {k k' k'' : Inlet Byte Errno} {bs cs : Buffer}
    (h : Delivers k bs k') (h' : Delivers k' cs k'') : Delivers k (bs ++ cs) k'' := by
  unfold Delivers at *
  rw [h', h, List.append_assoc]

namespace SyncClient

theorem receiveSomeLoop_delivers {c : SyncClient} {n : Nat} {k : Inlet Byte Errno}
    {r : Received} (h : c.receiveSomeLoop n k = some r) :
    Delivers k r.out r.inlet ∧ r.out.length ≤ n := by
  fun_induction receiveSomeLoop c n k with
  | case1 => simp at h
  | case2 k bs k' hrecv =>
    obtain rfl := Option.some.inj h
    obtain ⟨hd, -, hle⟩ := recv_bytes hrecv
    exact ⟨hd, hle⟩
  | case3 k k' hrecv =>
    obtain rfl := Option.some.inj h
    exact ⟨(recv_eof hrecv).trans (List.append_nil _).symm, Nat.zero_le _⟩
  | case4 k k' hrecv _ ih =>
    obtain ⟨hd, hle⟩ := ih h
    exact ⟨hd.trans (by rw [recv_error hrecv]), hle⟩
  | case5 k e k' hrecv _ =>
    obtain rfl := Option.some.inj h
    exact ⟨(recv_error hrecv).trans (List.append_nil _).symm, Nat.zero_le _⟩

theorem receiveSome_delivers {c : SyncClient} {n : Nat} {k : Inlet Byte Errno} {r : Received}
    (h : c.receiveSome n k = some r) : Delivers k r.out r.inlet ∧ r.out.length ≤ n := by
  unfold receiveSome at h
  split at h
  · obtain rfl := Option.some.inj h
    exact ⟨.nil k, Nat.zero_le _⟩
  · split at h
    · obtain rfl := Option.some.inj h
      exact ⟨.nil k, Nat.zero_le _⟩
    · exact receiveSomeLoop_delivers h

/-- Only a successful read puts anything into the chunk. -/
theorem receiveSome_out_nil {c : SyncClient} {n : Nat} {k : Inlet Byte Errno} {r : Received}
    (h : c.receiveSome n k = some r) (hr : r.result ≠ .success) : r.out = [] := by
  have loop : ∀ {c : SyncClient} {k : Inlet Byte Errno},
      c.receiveSomeLoop n k = some r → r.out = [] := by
    intro c k h
    fun_induction receiveSomeLoop c n k with
    | case1 => simp at h
    | case2 k bs k' hrecv =>
      obtain rfl := Option.some.inj h
      exact absurd rfl hr
    | case3 =>
      obtain rfl := Option.some.inj h
      rfl
    | case4 k k' hrecv _ ih => exact ih h
    | case5 =>
      obtain rfl := Option.some.inj h
      rfl
  unfold receiveSome at h
  split at h
  · obtain rfl := Option.some.inj h
    rfl
  · split at h
    · obtain rfl := Option.some.inj h
      rfl
    · exact loop h

/-! ## The loops

`out` is what the caller's buffer holds when the loop is entered; the loop only appends
to it what the kernel hands over. -/

theorem receiveExactLoop_delivers {c : SyncClient} {n : Nat} {out : Buffer}
    {k : Inlet Byte Errno} {r : Received} (h : c.receiveExactLoop n out k = some r)
    (hout : out.length ≤ n) :
    ∃ more, r.out = out ++ more ∧ Delivers k more r.inlet ∧ r.out.length ≤ n := by
  fun_induction receiveExactLoop c n out k with
  | case1 => simp at h
  | case2 out k hlt bs k' hrecv _ ih =>
    obtain ⟨hd, -, hle⟩ := recv_bytes hrecv
    obtain ⟨more, hmore, hdm, hlen⟩ := ih h (by simp only [List.length_append]; omega)
    exact ⟨bs ++ more, by rw [hmore, List.append_assoc], .append hd hdm, hlen⟩
  | case3 out k hlt k' hrecv =>
    obtain rfl := Option.some.inj h
    exact ⟨[], (List.append_nil _).symm, (recv_eof hrecv).trans (List.append_nil _).symm, hout⟩
  | case4 out k hlt k' hrecv _ ih =>
    obtain ⟨more, hmore, hdm, hlen⟩ := ih h hout
    exact ⟨more, hmore, hdm.trans (by rw [recv_error hrecv]), hlen⟩
  | case5 out k hlt e k' hrecv _ =>
    obtain rfl := Option.some.inj h
    exact ⟨[], (List.append_nil _).symm, (recv_error hrecv).trans (List.append_nil _).symm, hout⟩
  | case6 out k hge =>
    obtain rfl := Option.some.inj h
    exact ⟨[], (List.append_nil _).symm, .nil k, hout⟩

theorem nextChunkSize_le {n : Nat} {out bs : Buffer} (hlt : out.length < n)
    (hle : bs.length ≤ nextChunkSize n out) : (out ++ bs).length ≤ n := by
  unfold nextChunkSize at hle
  simp only [List.length_append]
  omega

theorem receiveUntilDelimiterLoop_delivers {c : SyncClient} {delimiter : Buffer} {n : Nat}
    {out : Buffer} {k : Inlet Byte Errno} {r : Received}
    (h : c.receiveUntilDelimiterLoop delimiter n out k = some r) (hout : out.length ≤ n) :
    ∃ more, r.out = out ++ more ∧ Delivers k more r.inlet ∧ r.out.length ≤ n := by
  fun_induction receiveUntilDelimiterLoop c delimiter n out k with
  | case1 => simp at h
  | case2 c out k hlt chunk hread hok hfound =>
    obtain rfl := Option.some.inj h
    obtain ⟨hd, hle⟩ := receiveSome_delivers hread
    exact ⟨chunk.out, rfl, hd, nextChunkSize_le hlt hle⟩
  | case3 c out k hlt chunk hread hok hfound _ ih =>
    obtain ⟨hd, hle⟩ := receiveSome_delivers hread
    obtain ⟨more, hmore, hdm, hlen⟩ := ih h (nextChunkSize_le hlt hle)
    exact ⟨chunk.out ++ more, by rw [hmore, List.append_assoc], hd.append hdm, hlen⟩
  | case4 c out k hlt chunk hread hfail =>
    obtain rfl := Option.some.inj h
    have hd := (receiveSome_delivers hread).1
    rw [receiveSome_out_nil hread hfail] at hd
    exact ⟨[], (List.append_nil _).symm, hd, hout⟩
  | case5 c out k hge =>
    obtain rfl := Option.some.inj h
    exact ⟨[], (List.append_nil _).symm, .nil k, hout⟩

theorem receiveUntilClosedLoop_delivers {c : SyncClient} {n : Nat} {out : Buffer}
    {k : Inlet Byte Errno} {r : Received} (h : c.receiveUntilClosedLoop n out k = some r)
    (hout : out.length ≤ n) :
    ∃ more, r.out = out ++ more ∧ Delivers k more r.inlet ∧ r.out.length ≤ n := by
  fun_induction receiveUntilClosedLoop c n out k with
  | case1 => simp at h
  | case2 c out k hlt chunk hread hok _ ih =>
    obtain ⟨hd, hle⟩ := receiveSome_delivers hread
    obtain ⟨more, hmore, hdm, hlen⟩ := ih h (nextChunkSize_le hlt hle)
    exact ⟨chunk.out ++ more, by rw [hmore, List.append_assoc], hd.append hdm, hlen⟩
  | case3 c out k hlt chunk hread hfail hclosed =>
    obtain rfl := Option.some.inj h
    have hd := (receiveSome_delivers hread).1
    rw [receiveSome_out_nil hread hfail] at hd
    exact ⟨[], (List.append_nil _).symm, hd, hout⟩
  | case4 c out k hlt chunk hread hfail hclosed =>
    obtain rfl := Option.some.inj h
    have hd := (receiveSome_delivers hread).1
    rw [receiveSome_out_nil hread hfail] at hd
    exact ⟨[], (List.append_nil _).symm, hd, hout⟩
  | case5 c out k hge =>
    obtain rfl := Option.some.inj h
    exact ⟨[], (List.append_nil _).symm, .nil k, hout⟩

end SyncClient

/-! ## Sequences of calls -/

inductive ReceiveCall where
  | receiveSome (maxBytes : Nat)
  | receiveExact (bytesToRead : Nat)
  | receiveUntilDelimiter (delimiter : Buffer) (maxBytes : Nat)
  | receiveUntilClosed (maxBytes : Nat)

def ReceiveCall.limit : ReceiveCall → Nat
  | .receiveSome n | .receiveExact n | .receiveUntilDelimiter _ n | .receiveUntilClosed n => n

def ReceiveCall.perform (c : SyncClient) (k : Inlet Byte Errno) :
    ReceiveCall → Option Received
  | .receiveSome n => c.receiveSome n k
  | .receiveExact n => c.receiveExact n k
  | .receiveUntilDelimiter d n => c.receiveUntilDelimiter d n k
  | .receiveUntilClosed n => c.receiveUntilClosed n k

theorem ReceiveCall.perform_delivers {c : SyncClient} {k : Inlet Byte Errno}
    {call : ReceiveCall} {r : Received} (h : call.perform c k = some r) :
    Delivers k r.out r.inlet ∧ r.out.length ≤ call.limit := by
  -- the loops start from an empty buffer
  have fromEmpty : ∀ {n : Nat}, (∃ more, r.out = [] ++ more ∧ Delivers k more r.inlet ∧
      r.out.length ≤ n) → Delivers k r.out r.inlet ∧ r.out.length ≤ n := by
    rintro n ⟨more, hmore, hd, hlen⟩
    exact ⟨by rw [hmore]; exact hd, hlen⟩
  cases call with
  | receiveSome n => exact SyncClient.receiveSome_delivers h
  | receiveExact n =>
    simp only [perform, SyncClient.receiveExact] at h
    split at h
    · obtain rfl := Option.some.inj h
      exact ⟨.nil k, Nat.zero_le _⟩
    · split at h
      · obtain rfl := Option.some.inj h
        exact ⟨.nil k, Nat.zero_le _⟩
      · exact fromEmpty (SyncClient.receiveExactLoop_delivers h (Nat.zero_le _))
  | receiveUntilDelimiter d n =>
    simp only [perform, SyncClient.receiveUntilDelimiter] at h
    split at h
    · obtain rfl := Option.some.inj h
      exact ⟨.nil k, Nat.zero_le _⟩
    · split at h
      · obtain rfl := Option.some.inj h
        exact ⟨.nil k, Nat.zero_le _⟩
      · exact fromEmpty (SyncClient.receiveUntilDelimiterLoop_delivers h (Nat.zero_le _))
  | receiveUntilClosed n =>
    simp only [perform, SyncClient.receiveUntilClosed] at h
    split at h
    · obtain rfl := Option.some.inj h
      exact ⟨.nil k, Nat.zero_le _⟩
    · split at h
      · obtain rfl := Option.some.inj h
        exact ⟨.nil k, Nat.zero_le _⟩
      · exact fromEmpty (SyncClient.receiveUntilClosedLoop_delivers h (Nat.zero_le _))

/-- Perform calls one after another until one blocks for ever; every completed call
with the buffer it left, and the kernel side after the last of them. -/
def performAll (c : SyncClient) (k : Inlet Byte Errno) :
    List ReceiveCall → List (ReceiveCall × Received) × Inlet Byte Errno
  | [] => ([], k)
  | call :: calls =>
    match call.perform c k with
    | none => ([], k)
    | some r =>
      let rest := performAll r.client r.inlet calls
      ((call, r) :: rest.1, rest.2)

/-- Over any script and any calls, the buffers as the calls left them make up exactly
what the kernel handed over, and each is within its limit. -/
theorem received_bytes_are_exact (c : SyncClient) (script : List (Event Byte Errno))
    (calls : List ReceiveCall) :
    let done := performAll c { pending := script } calls
    (done.1.map fun p => p.2.out).flatten = done.2.delivered ∧
      ∀ p ∈ done.1, p.2.out.length ≤ p.1.limit := by
  have general : ∀ (calls : List ReceiveCall) (c : SyncClient) (k : Inlet Byte Errno),
      Delivers k ((performAll c k calls).1.map fun p => p.2.out).flatten (performAll c k calls).2 ∧
        ∀ p ∈ (performAll c k calls).1, p.2.out.length ≤ p.1.limit := by
    intro calls
    induction calls with
    | nil => exact fun c k => ⟨.nil k, by simp [performAll]⟩
    | cons call calls ih =>
      intro c k
      cases hp : call.perform c k with
      | none => simpa [performAll, hp] using Delivers.nil k
      | some r =>
        obtain ⟨hd, hle⟩ := ReceiveCall.perform_delivers hp
        obtain ⟨hrest, hall⟩ := ih r.client r.inlet
        simp only [performAll, hp, List.map_cons, List.flatten_cons, List.forall_mem_cons]
        exact ⟨hd.append hrest, hle, hall⟩
  obtain ⟨hd, hall⟩ := general calls c { pending := script }
  exact ⟨hd.symm.trans rfl, hall⟩

end ThreadComponent
