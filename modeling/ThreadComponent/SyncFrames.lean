import Mathlib.Algebra.GroupWithZero.Nat
import ThreadComponent.SyncChunking
import ThreadComponent.SyncReceive

/-!
# Reading frames with receiveExact

A protocol that knows the sizes of its frames reads one after another with `receiveExact`. The
frames are consecutive pieces of the stream, in whatever chunks the kernel hands it over.
-/

set_option autoImplicit false

namespace ThreadComponent

open StreamSocket

/-- What reads of these sizes find of a stream, up to the first that is cut short by what comes
behind it. -/
def frames (t : Terminal) : List Nat → Buffer → List (IOResult × Buffer)
  | [], _ => []
  | n :: sizes, s =>
    if n ≤ s.length then (.success, s.take n) :: frames t sizes (s.drop n) else [(t.result, s)]

/-- As long as they fit the stream they are successful, and they are what is at the front of
it. -/
theorem frames_of_fits (t : Terminal) (sizes : List Nat) (s : Buffer) (h : sizes.sum ≤ s.length) :
    (∀ f ∈ frames t sizes s, f.1 = .success) ∧
      ((frames t sizes s).map Prod.snd).flatten = s.take sizes.sum ∧
      (frames t sizes s).map (fun f => f.2.length) = sizes := by
  induction sizes generalizing s with
  | nil => simp [frames]
  | cons n sizes ih =>
    rw [List.sum_cons] at h
    obtain ⟨hresult, hflat, hlength⟩ := ih (s.drop n) (by rw [List.length_drop]; omega)
    rw [frames, if_pos (by omega)]
    refine ⟨?_, ?_, ?_⟩
    · intro f hf
      rcases List.mem_cons.mp hf with rfl | hf
      · rfl
      · exact hresult f hf
    · rw [List.map_cons, List.flatten_cons, hflat, List.sum_cons, List.take_add]
    · rw [List.map_cons, hlength, List.length_take, Nat.min_eq_left (by omega)]

namespace SyncClient
variable {c : SyncClient} {before after : List (Event Byte Errno)} {delivered o : Buffer}
  {n : Nat}

/-! ## One read -/

/-- Bytes that are there are handed over, and the stream goes on behind them. -/
theorem recv_data {b : Byte} {bs : List Byte} {m : Nat} (after : List (Event Byte Errno))
    (delivered : Buffer) (t : Terminal) (hs : Streamed (.data b bs :: before)) (hm : 0 < m) :
    ∃ chunk rest, Inlet.recv ⟨.data b bs :: before ++ t.event :: after, delivered⟩ m =
        some (.bytes chunk, ⟨rest ++ t.event :: after, delivered ++ chunk⟩) ∧
      Streamed rest ∧ chunk.length ≤ m ∧ b :: bs ++ payload before = chunk ++ payload rest ∧
      weight rest < weight (.data b bs :: before) := by
  obtain ⟨m, rfl⟩ : ∃ k, m = k + 1 := ⟨m - 1, by omega⟩
  refine ⟨b :: bs.take m, pushBack (bs.drop m) before, ?_, hs.tail.pushBack _, ?_, ?_, ?_⟩
  · rw [← pushBack_append]
    rfl
  · rw [List.length_cons, List.length_take]
    omega
  · rw [payload_pushBack, List.cons_append, List.cons_append, ← List.append_assoc,
      List.take_append_drop]
  · simp only [weight_pushBack, weight, List.length_drop]
    omega

/-- How the loop goes on behind a read. -/
def afterRead (c : SyncClient) (n : Nat) (o : Buffer) (k : Inlet Byte Errno) :
    Read Byte Errno → Option Received
  | .bytes chunk => c.receiveExactLoop n (o ++ chunk) k
  | .eof => some ⟨.closed, o, c, k⟩
  | .error e => if e = EINTR then c.receiveExactLoop n o k else some (c.failWith e o k)

theorem receiveExactLoop_read {k k' : Inlet Byte Errno} {read : Read Byte Errno}
    (hlt : o.length < n) (hread : k.recv (n - o.length) = some (read, k')) :
    c.receiveExactLoop n o k = c.afterRead n o k' read := by
  rw [receiveExactLoop, if_pos hlt]
  split
  · rename_i heq
    rw [hread] at heq
    cases heq
  all_goals
    rename_i heq
    rw [hread] at heq
    cases heq
    rfl

theorem receiveExactLoop_full (hle : n ≤ o.length) (k : Inlet Byte Errno) :
    c.receiveExactLoop n o k = some ⟨.success, o, c, k⟩ := by
  rw [receiveExactLoop, if_neg (by omega)]

theorem recv_other {x : Event Byte Errno} {m : Nat} (hm : 0 < m) (hx : ∀ b bs, x ≠ .data b bs)
    (pending : List (Event Byte Errno)) (delivered : Buffer) :
    Inlet.recv ⟨x :: pending, delivered⟩ m = some (match x with
      | .error e => .error e
      | _ => .eof, ⟨pending, delivered⟩) := by
  obtain ⟨m, rfl⟩ : ∃ k, m = k + 1 := ⟨m - 1, by omega⟩
  cases x with
  | data b bs => exact absurd rfl (hx b bs)
  | eof => rfl
  | error e => rfl

theorem receiveExactLoop_interrupted (hlt : o.length < n) (pending : List (Event Byte Errno))
    (delivered : Buffer) :
    c.receiveExactLoop n o ⟨.error EINTR :: pending, delivered⟩ =
      c.receiveExactLoop n o ⟨pending, delivered⟩ := by
  have hread := recv_other (x := .error EINTR) (show 0 < n - o.length by omega)
    (fun b bs => by simp) pending delivered
  rw [receiveExactLoop_read hlt hread]
  rfl

theorem receiveExactLoop_terminal (after : List (Event Byte Errno)) (delivered : Buffer)
    (t : Terminal) (hlt : o.length < n) :
    ∃ r, c.receiveExactLoop n o ⟨t.event :: after, delivered⟩ = some r ∧
      r.result = t.result ∧ r.out = o := by
  have hread := recv_other (x := t.event) (show 0 < n - o.length by omega)
    (fun b bs => by cases t <;> simp [Terminal.event]) after delivered
  rw [receiveExactLoop_read hlt hread]
  cases t with
  | closed => exact ⟨_, rfl, rfl, rfl⟩
  | error e he =>
    simp only [Terminal.event, afterRead, if_neg he]
    exact ⟨_, rfl, rfl, rfl⟩

/-! ## One frame -/

theorem receiveExactLoop_success (after : List (Event Byte Errno)) (delivered : Buffer)
    (t : Terminal) (hs : Streamed before) (hout : o.length ≤ n)
    (hfits : n - o.length ≤ (payload before).length) :
    ∃ rest delivered', c.receiveExactLoop n o ⟨before ++ t.event :: after, delivered⟩ =
        some ⟨.success, o ++ (payload before).take (n - o.length), c,
          ⟨rest ++ t.event :: after, delivered'⟩⟩ ∧
      Streamed rest ∧ payload rest = (payload before).drop (n - o.length) := by
  induction hw : weight before using Nat.strong_induction_on generalizing before o delivered with
  | _ w ih =>
    by_cases hlt : o.length < n
    · cases before with
      | nil =>
        simp only [payload, List.length_nil] at hfits
        omega
      | cons x before =>
        cases x with
        | data b bs =>
          obtain ⟨chunk, rest, hread, hrest, hle, hpayload, hweight⟩ :=
            recv_data after delivered t hs (show 0 < n - o.length by omega)
          have hremaining : n - (o ++ chunk).length = n - o.length - chunk.length := by
            rw [List.length_append]
            omega
          have htaken : (payload (.data b bs :: before)).take (n - o.length) =
              chunk ++ (payload rest).take (n - (o ++ chunk).length) := by
            rw [payload, hpayload, List.take_append, List.take_of_length_le hle, hremaining]
          have hdropped : (payload (.data b bs :: before)).drop (n - o.length) =
              (payload rest).drop (n - (o ++ chunk).length) := by
            rw [payload, hpayload, List.drop_append, List.drop_eq_nil_of_le hle, hremaining,
              List.nil_append]
          have hfits' : n - (o ++ chunk).length ≤ (payload rest).length := by
            have hlength := congrArg List.length hpayload
            rw [payload, hlength] at hfits
            simp only [List.length_append] at hfits ⊢
            omega
          obtain ⟨more, delivered', hloop, hmore, hdrop⟩ := ih (weight rest) (by omega)
            (delivered ++ chunk) hrest (by rw [List.length_append]; omega) hfits' rfl
          refine ⟨more, delivered', ?_, hmore, ?_⟩
          · rw [receiveExactLoop_read hlt hread, afterRead, hloop, htaken, List.append_assoc]
          · rw [hdrop, hdropped]
        | eof => exact absurd rfl (hs _ List.mem_cons_self).1
        | error e =>
          obtain rfl : e = EINTR := (hs _ List.mem_cons_self).2 e rfl
          have hpayload : payload (.error EINTR :: before) = payload before := rfl
          rw [hpayload] at hfits ⊢
          rw [List.cons_append, receiveExactLoop_interrupted hlt]
          refine ih (weight before) ?_ delivered hs.tail hout hfits rfl
          rw [← hw]
          simp only [weight]
          omega
    · have hzero : n - o.length = 0 := by omega
      refine ⟨before, delivered, ?_, hs, ?_⟩
      · rw [receiveExactLoop_full (by omega), hzero, List.take_zero, List.append_nil]
      · rw [hzero, List.drop_zero]

theorem receiveExactLoop_short (after : List (Event Byte Errno)) (delivered : Buffer)
    (t : Terminal) (hs : Streamed before) (hshort : o.length + (payload before).length < n) :
    ∃ r, c.receiveExactLoop n o ⟨before ++ t.event :: after, delivered⟩ = some r ∧
      r.result = t.result ∧ r.out = o ++ payload before := by
  induction hw : weight before using Nat.strong_induction_on generalizing before o delivered with
  | _ w ih =>
    cases before with
    | nil =>
      obtain ⟨r, hr, hresult, hout⟩ := receiveExactLoop_terminal (c := c) after delivered t
        (show o.length < n by omega)
      exact ⟨r, hr, hresult, by rw [hout, payload, List.append_nil]⟩
    | cons x before =>
      cases x with
      | data b bs =>
        obtain ⟨chunk, rest, hread, hrest, -, hpayload, hweight⟩ :=
          recv_data after delivered t hs (show 0 < n - o.length by omega)
        have hlength := congrArg List.length hpayload
        rw [payload, hlength, List.length_append] at hshort
        obtain ⟨r, hr, hresult, hout⟩ := ih (weight rest) (by omega) (o := o ++ chunk)
          (delivered ++ chunk) hrest (by rw [List.length_append]; omega) rfl
        refine ⟨r, ?_, hresult, ?_⟩
        · rw [receiveExactLoop_read (by omega) hread, afterRead, hr]
        · rw [hout, payload, hpayload, List.append_assoc]
      | eof => exact absurd rfl (hs _ List.mem_cons_self).1
      | error e =>
        obtain rfl : e = EINTR := (hs _ List.mem_cons_self).2 e rfl
        have hpayload : payload (.error EINTR :: before) = payload before := rfl
        rw [hpayload] at hshort ⊢
        rw [List.cons_append, receiveExactLoop_interrupted (by omega)]
        refine ih (weight before) ?_ delivered hs.tail hshort rfl
        rw [← hw]
        simp only [weight]
        omega

theorem receiveExact_eq_loop (hc : c.isConnected = true) (n : Nat) (k : Inlet Byte Errno) :
    ∃ c' : SyncClient, c'.isConnected = true ∧
      c.receiveExact n k = c'.receiveExactLoop n [] k := by
  refine ⟨c.clearLastError, hc, ?_⟩
  unfold receiveExact
  by_cases hn : n = 0
  · rw [if_pos hn, hn, receiveExactLoop_full (o := []) (Nat.le_refl 0)]
  · rw [if_neg hn, hc]
    rfl

end SyncClient

theorem performAll_length (c : SyncClient) (k : Inlet Byte Errno) (calls : List ReceiveCall) :
    (performAll c k calls).1.length ≤ calls.length := by
  induction calls generalizing c k with
  | nil => exact Nat.le_refl 0
  | cons call calls ih =>
    rw [performAll]
    split
    · exact Nat.zero_le _
    · rename_i r _
      have hrest := ih r.client r.inlet
      simp only [List.length_cons]
      omega

theorem frames_prefix_performAll (after : List (Event Byte Errno)) (t : Terminal)
    (sizes : List Nat) (c : SyncClient) (hc : c.isConnected = true)
    (before : List (Event Byte Errno)) (delivered : Buffer) (hs : Streamed before) :
    frames t sizes (payload before) <+:
      (performAll c ⟨before ++ t.event :: after, delivered⟩
        (sizes.map .receiveExact)).1.map fun p => (p.2.result, p.2.out) := by
  induction sizes generalizing c before delivered with
  | nil => exact List.nil_prefix
  | cons n sizes ih =>
    obtain ⟨c', hc', hexact⟩ := SyncClient.receiveExact_eq_loop hc n
      ⟨before ++ t.event :: after, delivered⟩
    rw [frames, List.map_cons, performAll, ReceiveCall.perform, hexact]
    split
    · rename_i hfits
      obtain ⟨rest, delivered', hloop, hrest, hdrop⟩ := SyncClient.receiveExactLoop_success
        (c := c') (o := []) after delivered t hs (Nat.zero_le n) hfits
      rw [hloop, List.map_cons, List.nil_append, List.cons_prefix_cons]
      refine ⟨rfl, ?_⟩
      have hrest' := ih c' hc' rest delivered' hrest
      rw [hdrop] at hrest'
      exact hrest'
    · rename_i hshort
      obtain ⟨r, hr, hresult, hout⟩ := SyncClient.receiveExactLoop_short (c := c') (o := [])
        (n := n) after delivered t hs (by rw [List.length_nil]; omega)
      rw [hr, List.map_cons, List.cons_prefix_cons, hresult, hout]
      exact ⟨rfl, List.nil_prefix⟩

/-- Whatever the sizes, the chunks and the interruptions: calls of `receiveExact` one after
another find the consecutive frames of the stream, and the first one that the stream is too short
for gets what is left and the result for its end. Sizes that fit the stream are all read, and
what they leave in the buffers is the front of the stream. -/
theorem receiveExact_calls_find_frames (c : SyncClient) (hc : c.isConnected = true)
    (sizes : List Nat) (before after : List (Event Byte Errno)) (hs : Streamed before)
    (t : Terminal) :
    let s := payload before
    let done := (performAll c { pending := before ++ t.event :: after }
      (sizes.map .receiveExact)).1.map fun p => (p.2.result, p.2.out)
    frames t sizes s <+: done ∧
      (sizes.sum ≤ s.length → (∀ f ∈ done, f.1 = .success) ∧
        (done.map Prod.snd).flatten = s.take sizes.sum ∧
        done.map (fun f => f.2.length) = sizes) := by
  intro s done
  have hfront : frames t sizes s <+: done :=
    frames_prefix_performAll after t sizes c hc before [] hs
  refine ⟨hfront, fun hfits => ?_⟩
  have hframes := frames_of_fits t sizes s hfits
  have hlength : done.length ≤ (frames t sizes s).length := by
    have hdone : done.length ≤ sizes.length := by
      have h := performAll_length c { pending := before ++ t.event :: after }
        (sizes.map .receiveExact)
      rw [List.length_map] at h
      exact (List.length_map _).le.trans h
    have hsizes := congrArg List.length hframes.2.2
    rw [List.length_map] at hsizes
    omega
  rwa [hfront.eq_of_length_le hlength] at hframes

/-- A length and its payload, in three chunks, and a second frame that is cut short. -/
theorem receiveExact_calls_find_frames_cut :
    [(.success, [2]), (.success, [65, 66]), (.closed, [67])] <+:
      (performAll { mSocket := some 0 } { pending := [.data 2 [65], .error EINTR, .data 66 [],
        .data 67 [], .eof] } [.receiveExact 1, .receiveExact 2, .receiveExact 4]).1.map
          fun p => (p.2.result, p.2.out) := by
  have hs : Streamed [.data 2 [65], .error EINTR, .data 66 [], .data 67 []] := by
    simp [Streamed, Streaming]
  exact (receiveExact_calls_find_frames { mSocket := some 0 } rfl [1, 2, 4] _ [] hs .closed).1

end ThreadComponent
