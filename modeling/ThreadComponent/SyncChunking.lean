import ThreadComponent.StreamChunks
import ThreadComponent.SyncClient

/-!
# Limits and delimiters, whatever the chunks

`receiveUntilDelimiter` and `receiveUntilClosed` collect what `receiveSome` returns. In which
chunks the kernel hands a stream over decides where they look, not what they find.
-/

set_option autoImplicit false

namespace ThreadComponent

open StreamSocket

/-- What comes behind a stream; a call that is interrupted is made again. -/
inductive Terminal where
  | closed
  | error (e : Errno) (h : e ≠ EINTR)

namespace Terminal

def event : Terminal → Event Byte Errno
  | .closed => .eof
  | .error e _ => .error e

def result : Terminal → IOResult
  | .closed => .closed
  | .error e _ => SyncClient.classifySocketError e

def platformError : Terminal → Errno
  | .closed => 0
  | .error e _ => e

theorem result_ne_success (t : Terminal) : t.result ≠ .success := by
  cases t with
  | closed => simp [result]
  | error e h =>
    simp only [result, SyncClient.classifySocketError]
    split <;> simp

end Terminal

abbrev Streamed (script : List (Event Byte Errno)) : Prop := Streaming (· = EINTR) script

theorem search_iff (delimiter out : Buffer) :
    SyncClient.search delimiter out = true ↔ delimiter <:+: out := by
  induction out with
  | nil => simp [SyncClient.search]
  | cons b bs ih =>
    rw [SyncClient.search, Bool.or_eq_true, List.isPrefixOf_iff_prefix, ih, List.infix_cons_iff]

namespace SyncClient
variable {c : SyncClient} {before after : List (Event Byte Errno)} {delivered : Buffer}
  {n : Nat} {chunk : Buffer} {more : List Buffer}

/-! ## One chunk -/

theorem receiveSome_of_connected (hc : c.isConnected = true) (hn : 0 < n)
    (k : Inlet Byte Errno) : c.receiveSome n k = receiveSomeLoop c.clearLastError n k := by
  rw [receiveSome, if_neg (by omega), hc]
  rfl

/-- The next chunk, as far as it is asked for. -/
theorem receiveSomeLoop_chunk (c : SyncClient) (after : List (Event Byte Errno))
    (delivered : Buffer) (t : Terminal) (hs : Streamed before) (hn : 0 < n)
    (hle : n ≤ defaultReceiveChunkSize)
    (hchunks : chunks defaultReceiveChunkSize before = chunk :: more) :
    ∃ rest, c.receiveSomeLoop n ⟨before ++ t.event :: after, delivered⟩ =
        some ⟨.success, chunk.take n, c, ⟨rest ++ t.event :: after, delivered ++ chunk.take n⟩⟩ ∧
      Streamed rest ∧
      (chunk.length ≤ n → chunks defaultReceiveChunkSize rest = more) := by
  obtain ⟨m, rfl⟩ : ∃ m, n = m + 1 := ⟨n - 1, by omega⟩
  induction before with
  | nil => simp [chunks] at hchunks
  | cons x before ih =>
    cases x with
    | data b bs =>
      rw [chunks] at hchunks
      obtain ⟨rfl, rfl⟩ := List.cons.inj hchunks
      refine ⟨pushBack (bs.drop m) before, ?_, hs.tail.pushBack _, ?_⟩
      · rw [receiveSomeLoop]
        simp only [List.cons_append, Inlet.recv, pushBack_append, List.take_succ_cons,
          List.take_take, Nat.min_eq_left (show m ≤ defaultReceiveChunkSize - 1 by omega)]
      · exact chunks_of_read hn hle
    | eof => exact absurd rfl (hs _ List.mem_cons_self).1
    | error e =>
      obtain rfl : e = EINTR := (hs _ List.mem_cons_self).2 e rfl
      obtain ⟨rest, hrest, hstreamed, hmore⟩ := ih hs.tail (by rwa [chunks] at hchunks)
      refine ⟨rest, ?_, hstreamed, hmore⟩
      rw [receiveSomeLoop]
      simpa only [List.cons_append, Inlet.recv, if_true] using hrest

theorem receiveSomeLoop_terminal (after : List (Event Byte Errno)) (delivered : Buffer)
    (t : Terminal) (hs : Streamed before) (hn : 0 < n)
    (hchunks : chunks defaultReceiveChunkSize before = []) (hclear : c.clearLastError = c) :
    ∃ r, c.receiveSomeLoop n ⟨before ++ t.event :: after, delivered⟩ = some r ∧
      r.result = t.result ∧ r.client.mLastPlatformError = t.platformError := by
  obtain ⟨m, rfl⟩ : ∃ m, n = m + 1 := ⟨n - 1, by omega⟩
  induction before with
  | nil =>
    cases t with
    | closed =>
      refine ⟨⟨.closed, [], c, ⟨after, delivered⟩⟩, ?_, rfl, ?_⟩
      · rw [receiveSomeLoop]
        rfl
      · rw [← hclear]
        rfl
    | error e h =>
      refine ⟨c.failWith e [] ⟨after, delivered⟩, ?_, rfl, rfl⟩
      rw [receiveSomeLoop]
      simp only [Terminal.event, List.nil_append, Inlet.recv, if_neg h]
  | cons x before ih =>
    cases x with
    | data b bs =>
      rw [chunks] at hchunks
      cases hchunks
    | eof => exact absurd rfl (hs _ List.mem_cons_self).1
    | error e =>
      obtain rfl : e = EINTR := (hs _ List.mem_cons_self).2 e rfl
      obtain ⟨r, hr, hends⟩ := ih hs.tail (by rwa [chunks] at hchunks)
      refine ⟨r, ?_, hends⟩
      rw [receiveSomeLoop]
      simpa only [List.cons_append, Inlet.recv, if_true] using hr

theorem length_of_chunks (h : chunks defaultReceiveChunkSize before = chunk :: more) :
    chunk.length ≤ defaultReceiveChunkSize := by
  fun_induction chunks defaultReceiveChunkSize before with
  | case1 => cases h
  | case2 b bs rest _ =>
    obtain ⟨rfl, -⟩ := List.cons.inj h
    simp only [List.length_cons, List.length_take, defaultReceiveChunkSize]
    omega
  | case3 rest ih => exact ih h
  | case4 e rest ih => exact ih h

theorem nextChunkSize_pos {maxBytes : Nat} {out : Buffer} (h : out.length < maxBytes) :
    0 < nextChunkSize maxBytes out := by
  unfold nextChunkSize defaultReceiveChunkSize
  omega

/-- The next chunk of a buffer with a limit: as much of it as the buffer may still take. -/
theorem receiveSome_chunk {maxBytes : Nat} {out : Buffer} (after : List (Event Byte Errno))
    (delivered : Buffer) (t : Terminal) (hs : Streamed before)
    (hc : c.isConnected = true) (hclear : c.clearLastError = c) (hlt : out.length < maxBytes)
    (hchunks : chunks defaultReceiveChunkSize before = chunk :: more) :
    ∃ rest, c.receiveSome (nextChunkSize maxBytes out) ⟨before ++ t.event :: after, delivered⟩ =
        some ⟨.success, chunk.take (maxBytes - out.length), c,
          ⟨rest ++ t.event :: after, delivered ++ chunk.take (maxBytes - out.length)⟩⟩ ∧
      Streamed rest ∧
      ((out ++ chunk).length ≤ maxBytes → chunks defaultReceiveChunkSize rest = more) := by
  have hlen := length_of_chunks hchunks
  have htake : chunk.take (nextChunkSize maxBytes out) = chunk.take (maxBytes - out.length) := by
    unfold nextChunkSize
    by_cases hle : maxBytes - out.length ≤ defaultReceiveChunkSize
    · rw [Nat.min_eq_right hle]
    · rw [Nat.min_eq_left (by omega), List.take_of_length_le hlen,
        List.take_of_length_le (by omega)]
  obtain ⟨rest, hr, hrest, hmore⟩ := receiveSomeLoop_chunk c after delivered t hs
    (nextChunkSize_pos hlt) (Nat.min_le_left _ _) hchunks
  refine ⟨rest, ?_, hrest, fun hfits => hmore ?_⟩
  · rw [receiveSome_of_connected hc (nextChunkSize_pos hlt), hclear, hr, htake]
  · unfold nextChunkSize
    rw [List.length_append] at hfits
    omega

theorem receiveSome_terminal {maxBytes : Nat} {out : Buffer} (after : List (Event Byte Errno))
    (delivered : Buffer) (t : Terminal) (hs : Streamed before) (hc : c.isConnected = true)
    (hclear : c.clearLastError = c) (hlt : out.length < maxBytes)
    (hchunks : chunks defaultReceiveChunkSize before = []) :
    ∃ r, c.receiveSome (nextChunkSize maxBytes out) ⟨before ++ t.event :: after, delivered⟩ =
        some r ∧
      r.result = t.result ∧ r.client.mLastPlatformError = t.platformError := by
  obtain ⟨r, hr, hresult, herror⟩ := receiveSomeLoop_terminal after delivered t hs
    (nextChunkSize_pos hlt) hchunks hclear
  refine ⟨r, ?_, hresult, herror⟩
  rw [receiveSome_of_connected hc (nextChunkSize_pos hlt), hclear, hr]

/-- What a loop makes of the bytes that it has collected, with the result and the error for a
stream that has ended. -/
inductive Collected (result : IOResult) (error : Errno) : Buffer × FillEnd → Received → Prop where
  | found {out : Buffer} {r : Received} (hresult : r.result = .success) (hout : r.out = out) :
      Collected result error (out, .found) r
  | full {out : Buffer} {r : Received} (hresult : r.result = .failed)
      (herror : r.client.mLastPlatformError = EMSGSIZE) (hout : r.out = out) :
      Collected result error (out, .full) r
  | drained {out : Buffer} {r : Received} (hresult : r.result = result)
      (herror : r.client.mLastPlatformError = error) (hout : r.out = out) :
      Collected result error (out, .drained) r

/-! ## receiveUntilDelimiter -/

section Delimiter
variable {delimiter out : Buffer} {maxBytes : Nat} {k : Inlet Byte Errno} {r : Received}

theorem receiveUntilDelimiterLoop_full (h : maxBytes ≤ out.length) :
    c.receiveUntilDelimiterLoop delimiter maxBytes out k =
      some ⟨.failed, out, c.setLastPlatformError EMSGSIZE, k⟩ := by
  rw [receiveUntilDelimiterLoop, if_neg (by omega)]

theorem receiveUntilDelimiterLoop_read (hlt : out.length < maxBytes)
    (hread : c.receiveSome (nextChunkSize maxBytes out) k = some r) :
    c.receiveUntilDelimiterLoop delimiter maxBytes out k =
      if r.result = .success then
        if search delimiter (out ++ r.out) then some ⟨.success, out ++ r.out, r.client, r.inlet⟩
        else r.client.receiveUntilDelimiterLoop delimiter maxBytes (out ++ r.out) r.inlet
      else some ⟨r.result, out, r.client, r.inlet⟩ := by
  rw [receiveUntilDelimiterLoop, if_pos hlt]
  split
  · rename_i heq
    rw [hread] at heq
    cases heq
  · rename_i r' heq
    rw [hread] at heq
    obtain rfl := Option.some.inj heq
    by_cases hr : r.result = .success
    · rw [dif_pos hr, if_pos hr]
    · rw [dif_neg hr, if_neg hr]

theorem receiveUntilDelimiterLoop_fill (delimiter : Buffer) (maxBytes : Nat) (out : Buffer)
    (after : List (Event Byte Errno)) (delivered : Buffer) (t : Terminal) (hs : Streamed before)
    (hc : c.isConnected = true) (hclear : c.clearLastError = c) :
    ∃ r, c.receiveUntilDelimiterLoop delimiter maxBytes out
        ⟨before ++ t.event :: after, delivered⟩ = some r ∧
      Collected t.result t.platformError (fill maxBytes (search delimiter) out
        (chunks defaultReceiveChunkSize before)) r := by
  generalize hchunks : chunks defaultReceiveChunkSize before = cs
  induction cs generalizing before out delivered with
  | nil =>
    by_cases hlt : out.length < maxBytes
    · obtain ⟨r, hread, hresult, herror⟩ := receiveSome_terminal after delivered t hs hc hclear
        hlt hchunks
      rw [receiveUntilDelimiterLoop_read hlt hread, if_neg (hresult ▸ t.result_ne_success), fill,
        if_pos hlt]
      exact ⟨_, rfl, .drained hresult herror rfl⟩
    · rw [receiveUntilDelimiterLoop_full (by omega), fill, if_neg hlt]
      exact ⟨_, rfl, .full rfl rfl rfl⟩
  | cons chunk cs ih =>
    by_cases hlt : out.length < maxBytes
    · obtain ⟨rest, hread, hrest, hmore⟩ := receiveSome_chunk after delivered t hs hc hclear
        hlt hchunks
      rw [receiveUntilDelimiterLoop_read hlt hread, if_pos rfl, fill, if_pos hlt]
      by_cases hfound : search delimiter (out ++ chunk.take (maxBytes - out.length)) = true
      · rw [if_pos hfound, if_pos hfound]
        exact ⟨_, rfl, .found rfl rfl⟩
      · rw [if_neg hfound, if_neg hfound]
        by_cases hfits : (out ++ chunk).length ≤ maxBytes
        · exact ih _ _ hrest (hmore hfits)
        · -- the buffer is full in the middle of the chunk, whatever comes behind it
          have hfull : maxBytes ≤ (out ++ chunk.take (maxBytes - out.length)).length := by
            simp only [List.length_append, List.length_take] at hfits ⊢
            omega
          rw [receiveUntilDelimiterLoop_full hfull, fill_of_full hfull]
          exact ⟨_, rfl, .full rfl rfl rfl⟩
    · rw [receiveUntilDelimiterLoop_full (by omega), fill, if_neg hlt]
      exact ⟨_, rfl, .full rfl rfl rfl⟩

/-- What the buffer of a call with this limit may hold behind some number of reads. -/
def ChunkAligned (maxBytes : Nat) (script : List (Event Byte Errno)) (out : Buffer) : Prop :=
  ∃ i, out = ((chunks defaultReceiveChunkSize script).take i).flatten.take maxBytes

theorem aligned_prefix (maxBytes : Nat) {cs : List Buffer} {i j : Nat} (h : i ≤ j) :
    (cs.take i).flatten.take maxBytes <+: (cs.take j).flatten.take maxBytes :=
  (List.take_prefix_take_left h).flatten.take maxBytes

theorem receiveUntilDelimiter_finds_delimiter (c : SyncClient) (delimiter : Buffer)
    (maxBytes : Nat) (before after : List (Event Byte Errno)) (t : Terminal) (delivered : Buffer)
    (hc : c.isConnected = true) (hdelimiter : delimiter ≠ []) (hpos : 0 < maxBytes)
    (hs : Streamed before) :
    ∃ r, c.receiveUntilDelimiter delimiter maxBytes ⟨before ++ t.event :: after, delivered⟩ =
        some r ∧
      let s := payload before
      (r.result = .success ↔ delimiter <:+: s.take (min maxBytes s.length)) ∧
      (r.result = .success → ChunkAligned maxBytes before r.out ∧ delimiter <:+: r.out ∧
        ∀ out, ChunkAligned maxBytes before out → delimiter <:+: out → r.out <+: out) ∧
      (r.result ≠ .success →
        (maxBytes ≤ s.length → r.result = .failed ∧
          r.client.mLastPlatformError = EMSGSIZE ∧ r.out = s.take maxBytes) ∧
        (s.length < maxBytes → r.result = t.result ∧
          r.client.mLastPlatformError = t.platformError ∧ r.out = s)) := by
  obtain ⟨r, hr, hcollected⟩ := receiveUntilDelimiterLoop_fill (c := c.clearLastError)
    delimiter maxBytes [] after delivered t hs hc rfl
  refine ⟨r, ?_, ?_⟩
  · rw [receiveUntilDelimiter, if_neg (by simp [hdelimiter]; omega), hc]
    exact hr
  have hempty : search delimiter [] = false := by simp [search, hdelimiter]
  have hfilled : Filled maxBytes (search delimiter) [] (chunks defaultReceiveChunkSize before)
      (fill maxBytes (search delimiter) [] (chunks defaultReceiveChunkSize before)) :=
    fill_filled (Nat.zero_le _) hempty
  have hs' := flatten_chunks defaultReceiveChunkSize before
  have hmin : (payload before).take (min maxBytes (payload before).length) =
      (payload before).take maxBytes := List.take_eq_take_min.symm
  simp only [hmin]
  generalize fill maxBytes (search delimiter) [] (chunks defaultReceiveChunkSize before) = x
    at hcollected hfilled
  cases hfilled with
  | found i hfound hfirst =>
    cases hcollected with | found hresult hout =>
    rw [search_iff] at hfound
    rw [List.nil_append] at hout hfound
    have hwhole : r.out <+: (payload before).take maxBytes := by
      rw [hout, ← hs']
      exact (List.take_prefix i _).flatten.take maxBytes
    refine ⟨?_, fun _ => ⟨⟨i, hout⟩, hout ▸ hfound, ?_⟩, fun hne => absurd hresult hne⟩
    · exact ⟨fun _ => (hout ▸ hfound).trans hwhole.isInfix, fun _ => hresult⟩
    · rintro out ⟨j, rfl⟩ hj
      -- the loop has looked at every shorter prefix
      have hle : i ≤ j := by
        by_contra hlt
        have hbefore := hfirst j (by omega)
        rw [List.nil_append, ← Bool.not_eq_true, search_iff] at hbefore
        exact hbefore hj
      rw [hout]
      exact aligned_prefix maxBytes hle
  | full hlen hfound =>
    cases hcollected with | full hresult herror hout =>
    rw [← Bool.not_eq_true, search_iff] at hfound
    rw [List.nil_append, hs'] at hlen hfound hout
    have hne : r.result ≠ .success := by rw [hresult]; simp
    refine ⟨⟨fun h => absurd h hne, fun h => absurd h hfound⟩, fun h => absurd h hne, fun _ => ?_⟩
    exact ⟨fun _ => ⟨hresult, herror, hout⟩, fun hlt => absurd hlen (by omega)⟩
  | drained hlen hfound =>
    cases hcollected with | drained hresult herror hout =>
    rw [← Bool.not_eq_true, search_iff] at hfound
    rw [List.nil_append, hs'] at hlen hfound hout
    have hne : r.result ≠ .success := hresult ▸ t.result_ne_success
    rw [List.take_of_length_le (Nat.le_of_lt hlen)]
    refine ⟨⟨fun h => absurd h hne, fun h => absurd h hfound⟩, fun h => absurd h hne, fun _ => ?_⟩
    exact ⟨fun hle => absurd hlen (by omega), fun _ => ⟨hresult, herror, hout⟩⟩

/-- A delimiter across an interrupted call, in a chunk that does not fit as a whole. -/
theorem receiveUntilDelimiter_finds_delimiter_split :
    ∃ r, receiveUntilDelimiter { mSocket := some 0 } [13, 10] 4
        ⟨[.data 65 [13], .error EINTR, .data 10 [66, 67], .eof], []⟩ = some r ∧
      r.result = .success := by
  have hs : Streamed [.data 65 [13], .error EINTR, .data 10 [66, 67]] := by
    simp [Streamed, Streaming]
  obtain ⟨r, hr, hsuccess, -⟩ := receiveUntilDelimiter_finds_delimiter { mSocket := some 0 }
    [13, 10] 4 [.data 65 [13], .error EINTR, .data 10 [66, 67]] [] .closed [] rfl (by decide)
    (by decide) hs
  exact ⟨r, hr, hsuccess.mpr ⟨[65], [66], rfl⟩⟩

end Delimiter

/-! ## receiveUntilClosed -/

section Closed
variable {out : Buffer} {maxBytes : Nat} {k : Inlet Byte Errno} {r : Received}

theorem receiveUntilClosedLoop_full (h : maxBytes ≤ out.length) :
    c.receiveUntilClosedLoop maxBytes out k =
      some ⟨.failed, out, c.setLastPlatformError EMSGSIZE, k⟩ := by
  rw [receiveUntilClosedLoop, if_neg (by omega)]

theorem receiveUntilClosedLoop_read (hlt : out.length < maxBytes)
    (hread : c.receiveSome (nextChunkSize maxBytes out) k = some r) :
    c.receiveUntilClosedLoop maxBytes out k =
      if r.result = .success then
        r.client.receiveUntilClosedLoop maxBytes (out ++ r.out) r.inlet
      else if r.result = .closed then some ⟨.success, out, r.client.clearLastError, r.inlet⟩
      else some ⟨r.result, out, r.client, r.inlet⟩ := by
  rw [receiveUntilClosedLoop, if_pos hlt]
  split
  · rename_i heq
    rw [hread] at heq
    cases heq
  · rename_i r' heq
    rw [hread] at heq
    obtain rfl := Option.some.inj heq
    by_cases hr : r.result = .success
    · rw [dif_pos hr, if_pos hr]
    · rw [dif_neg hr, if_neg hr]

theorem receiveUntilClosedLoop_fill (maxBytes : Nat) (out : Buffer)
    (after : List (Event Byte Errno)) (delivered : Buffer) (hs : Streamed before)
    (hc : c.isConnected = true) (hclear : c.clearLastError = c) :
    ∃ r, c.receiveUntilClosedLoop maxBytes out
        ⟨before ++ Terminal.closed.event :: after, delivered⟩ = some r ∧
      Collected .success 0 (fill maxBytes (fun _ => false) out
        (chunks defaultReceiveChunkSize before)) r := by
  generalize hchunks : chunks defaultReceiveChunkSize before = cs
  induction cs generalizing before out delivered with
  | nil =>
    by_cases hlt : out.length < maxBytes
    · obtain ⟨r, hread, hresult, -⟩ := receiveSome_terminal after delivered .closed hs hc hclear
        hlt hchunks
      have hclosed : r.result = .closed := hresult
      rw [receiveUntilClosedLoop_read hlt hread, if_neg (by simp [hclosed]), if_pos hclosed, fill,
        if_pos hlt]
      exact ⟨_, rfl, .drained rfl rfl rfl⟩
    · rw [receiveUntilClosedLoop_full (by omega), fill, if_neg hlt]
      exact ⟨_, rfl, .full rfl rfl rfl⟩
  | cons chunk cs ih =>
    by_cases hlt : out.length < maxBytes
    · obtain ⟨rest, hread, hrest, hmore⟩ := receiveSome_chunk after delivered .closed hs hc
        hclear hlt hchunks
      rw [receiveUntilClosedLoop_read hlt hread, if_pos rfl, fill, if_pos hlt,
        if_neg Bool.false_ne_true]
      by_cases hfits : (out ++ chunk).length ≤ maxBytes
      · exact ih _ _ hrest (hmore hfits)
      · have hfull : maxBytes ≤ (out ++ chunk.take (maxBytes - out.length)).length := by
          simp only [List.length_append, List.length_take] at hfits ⊢
          omega
        rw [receiveUntilClosedLoop_full hfull, fill_of_full hfull]
        exact ⟨_, rfl, .full rfl rfl rfl⟩
    · rw [receiveUntilClosedLoop_full (by omega), fill, if_neg hlt]
      exact ⟨_, rfl, .full rfl rfl rfl⟩

/-- A stream that ends behind `maxBytes` bytes exactly fits, and is refused. -/
theorem receiveUntilClosed_accepts_fitting_iff (c : SyncClient) (maxBytes : Nat)
    (before after : List (Event Byte Errno)) (delivered : Buffer) (hc : c.isConnected = true)
    (hpos : 0 < maxBytes) (hs : Streamed before) :
    ∃ r, c.receiveUntilClosed maxBytes ⟨before ++ .eof :: after, delivered⟩ = some r ∧
      (((r.result = .success ∧ r.out = payload before ↔ (payload before).length ≤ maxBytes) ∧
          (r.result = .failed ∧ r.client.mLastPlatformError = EMSGSIZE ↔
            maxBytes < (payload before).length)) ↔
        (payload before).length ≠ maxBytes) := by
  obtain ⟨r, hr, hcollected⟩ := receiveUntilClosedLoop_fill (c := c.clearLastError)
    maxBytes [] after delivered hs hc rfl
  refine ⟨r, ?_, ?_⟩
  · rw [receiveUntilClosed, if_neg (by omega), hc]
    exact hr
  · have hfilled : Filled maxBytes (fun _ => false) [] (chunks defaultReceiveChunkSize before)
        (fill maxBytes (fun _ => false) [] (chunks defaultReceiveChunkSize before)) :=
      fill_filled (Nat.zero_le _) rfl
    generalize fill maxBytes (fun _ => false) [] (chunks defaultReceiveChunkSize before) = x
      at hcollected hfilled
    cases hfilled with
    | found i hfound => cases hfound
    | full hlen =>
      cases hcollected with | full hresult herror =>
      rw [List.nil_append, flatten_chunks] at hlen
      simp only [hresult, herror, reduceCtorEq, false_and, and_self, false_iff, true_iff]
      omega
    | drained hlen =>
      cases hcollected with | drained hresult _ hout =>
      rw [List.nil_append, flatten_chunks] at hlen hout
      simp only [hresult, hout, reduceCtorEq, false_and, and_self, false_iff, true_iff]
      omega

theorem receiveUntilClosed_accepts_fitting_split :
    ∃ r, receiveUntilClosed { mSocket := some 0 } 4
        ⟨[.data 65 [66], .error EINTR, .data 67 [], .eof], []⟩ = some r ∧
      r.result = .success ∧ r.out = [65, 66, 67] := by
  have hs : Streamed [.data 65 [66], .error EINTR, .data 67 []] := by simp [Streamed, Streaming]
  obtain ⟨r, hr, hiff⟩ := receiveUntilClosed_accepts_fitting_iff { mSocket := some 0 } 4
    [.data 65 [66], .error EINTR, .data 67 []] [] [] rfl (by decide) hs
  exact ⟨r, hr, (hiff.mpr (by decide)).1.mpr (by decide)⟩

/-- One byte for a limit of one. -/
theorem receiveUntilClosed_refuses_fitting :
    ¬ ∀ (c : SyncClient) (maxBytes : Nat) (before after : List (Event Byte Errno))
        (delivered : Buffer), c.isConnected = true → 0 < maxBytes → Streamed before →
      ∃ r, c.receiveUntilClosed maxBytes ⟨before ++ .eof :: after, delivered⟩ = some r ∧
        (r.result = .success ∧ r.out = payload before ↔ (payload before).length ≤ maxBytes) ∧
        (r.result = .failed ∧ r.client.mLastPlatformError = EMSGSIZE ↔
          maxBytes < (payload before).length) := by
  intro h
  have hs : Streamed [.data 65 []] := by simp [Streamed, Streaming]
  obtain ⟨r, hr, hsuccess, -⟩ := h { mSocket := some 0 } 1 [.data 65 []] [] [] rfl (by decide) hs
  obtain ⟨r', hr', hcollected⟩ := receiveUntilClosedLoop_fill (c := { mSocket := some 0 })
    1 [] [] [] hs rfl rfl
  obtain rfl : r = r' := Option.some.inj (hr.symm.trans hr')
  have hfull : fill 1 (fun _ => false) []
      (chunks defaultReceiveChunkSize [(.data 65 [] : Event Byte Errno)]) = ([65], .full) := by
    simp [chunks, pushBack, fill]
  rw [hfull] at hcollected
  cases hcollected with | full hresult =>
  rw [(hsuccess.mpr (by decide)).1] at hresult
  cases hresult

end Closed

end SyncClient

end ThreadComponent
