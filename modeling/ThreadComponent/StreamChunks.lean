import Mathlib.Data.List.Infix
import ThreadComponent.StreamSocket

/-!
# A stream that is read in chunks

However the elements of a stream arrive, reads of a bounded size find them in chunks, whose
concatenation is the stream. A reader with a limit collects chunks until it has found what it
looks for, until it is full, or until there are no more of them.
-/

set_option autoImplicit false

namespace StreamSocket

universe u v
variable {β : Type u} {ε : Type v}

def payload : List (Event β ε) → List β
  | [] => []
  | .data b bs :: rest => b :: bs ++ payload rest
  | _ :: rest => payload rest

/-- The chunks in which reads of at most `n` elements find them, for a positive `n`. -/
def chunks (n : Nat) (script : List (Event β ε)) : List (List β) :=
  match script with
  | [] => []
  | .data b bs :: rest => (b :: bs.take (n - 1)) :: chunks n (pushBack (bs.drop (n - 1)) rest)
  | .eof :: rest => chunks n rest
  | .error _ :: rest => chunks n rest
termination_by weight script
decreasing_by
  · simp only [weight_pushBack, weight, List.length_drop]
    omega
  · simp only [weight]
    omega
  · simp only [weight]
    omega

/-- Data and errors that a reader passes over. -/
def Streaming (transient : ε → Prop) (script : List (Event β ε)) : Prop :=
  ∀ x ∈ script, x ≠ .eof ∧ ∀ e, x = .error e → transient e

section Chunks
variable {transient : ε → Prop} {script rest : List (Event β ε)} {x : Event β ε} {n : Nat}

theorem pushBack_append (bs : List β) (rest more : List (Event β ε)) :
    pushBack bs (rest ++ more) = pushBack bs rest ++ more := by
  cases bs <;> rfl

theorem payload_pushBack (bs : List β) (rest : List (Event β ε)) :
    payload (pushBack bs rest) = bs ++ payload rest := by
  cases bs <;> rfl

theorem flatten_chunks (n : Nat) (script : List (Event β ε)) :
    (chunks n script).flatten = payload script := by
  fun_induction chunks n script with
  | case1 => rfl
  | case2 b bs rest ih =>
    rw [List.flatten_cons, ih, payload_pushBack, payload, List.cons_append,
      ← List.append_assoc, List.take_append_drop, List.cons_append]
  | case3 rest ih => exact ih
  | case4 e rest ih => exact ih

theorem Streaming.tail (h : Streaming transient (x :: script)) : Streaming transient script :=
  fun y hy => h y (List.mem_cons_of_mem x hy)

theorem Streaming.pushBack (h : Streaming transient rest) (bs : List β) :
    Streaming transient (pushBack bs rest) := by
  cases bs with
  | nil => exact h
  | cons b bs =>
    intro y hy
    rcases List.mem_cons.mp hy with rfl | hy
    · exact ⟨by simp, by simp⟩
    · exact h y hy

/-- What a read of fewer elements than a chunk may have leaves. If it has taken the whole chunk
all the same, then it leaves the other chunks. -/
theorem chunks_of_read {m : Nat} {b : β} {bs : List β} (hm : 0 < m) (hle : m ≤ n)
    (hfits : (b :: bs.take (n - 1)).length ≤ m) :
    chunks n (pushBack (bs.drop (m - 1)) rest) = chunks n (pushBack (bs.drop (n - 1)) rest) := by
  simp only [List.length_cons, List.length_take] at hfits
  by_cases heq : m = n
  · rw [heq]
  · rw [List.drop_eq_nil_of_le (by omega), List.drop_eq_nil_of_le (by omega)]

end Chunks

/-! ## Collecting chunks -/

inductive FillEnd where
  | found
  | full
  | drained
  deriving DecidableEq, Repr

/-- Collect chunks behind `out`, up to `n` elements in all; `found` looks at what has been
collected after each of them. -/
def fill (n : Nat) (found : List β → Bool) (out : List β) : List (List β) → List β × FillEnd
  | [] => (out, if out.length < n then .drained else .full)
  | c :: cs =>
    if out.length < n then
      if found (out ++ c.take (n - out.length)) then (out ++ c.take (n - out.length), .found)
      else fill n found (out ++ c.take (n - out.length)) cs
    else (out, .full)

/-- How collecting ends, in terms of the chunks alone. -/
inductive Filled (n : Nat) (found : List β → Bool) (out : List β) (cs : List (List β)) :
    List β × FillEnd → Prop where
  | found (i : Nat) (hfound : found ((out ++ (cs.take i).flatten).take n) = true)
      (hfirst : ∀ j < i, found ((out ++ (cs.take j).flatten).take n) = false) :
      Filled n found out cs ((out ++ (cs.take i).flatten).take n, .found)
  | full (hlen : n ≤ (out ++ cs.flatten).length)
      (hfound : found ((out ++ cs.flatten).take n) = false) :
      Filled n found out cs ((out ++ cs.flatten).take n, .full)
  | drained (hlen : (out ++ cs.flatten).length < n)
      (hfound : found (out ++ cs.flatten) = false) :
      Filled n found out cs (out ++ cs.flatten, .drained)

section Fill
variable {n : Nat} {found : List β → Bool} {out c : List β} {cs : List (List β)}

theorem fill_of_full (h : n ≤ out.length) : fill n found out cs = (out, .full) := by
  cases cs <;> rw [fill, if_neg (by omega)]

theorem append_take_sub (hout : out.length ≤ n) (c : List β) :
    out ++ c.take (n - out.length) = (out ++ c).take n := by
  rw [List.take_append, List.take_of_length_le hout]

theorem take_take_append (n : Nat) (xs ys : List β) :
    (xs.take n ++ ys).take n = (xs ++ ys).take n := by
  simp only [List.take_append, List.take_take, List.length_take, Nat.min_self]
  by_cases hle : xs.length ≤ n
  · rw [Nat.min_eq_right hle]
  · rw [show n - min n xs.length = n - xs.length by omega]

/-- Behind the first chunk the others are collected as if it were whole. -/
theorem Filled.cons {r : List β × FillEnd} (hout : out.length ≤ n) (hnot : found out = false)
    (h : Filled n found ((out ++ c).take n) cs r) : Filled n found out (c :: cs) r := by
  have hshift : ∀ xs : List β, ((out ++ c).take n ++ xs).take n = (out ++ (c ++ xs)).take n := by
    intro xs
    rw [take_take_append, List.append_assoc]
  cases h with
  | found i hfound hfirst =>
    rw [hshift] at hfound ⊢
    refine .found (i + 1) hfound fun j hj => ?_
    cases j with
    | zero => simpa [List.take_of_length_le hout] using hnot
    | succ j =>
      have hj' := hfirst j (by omega)
      rwa [hshift] at hj'
  | full hlen hfound =>
    rw [hshift] at hfound ⊢
    refine .full (hlen.trans ?_) hfound
    simp only [List.length_append, List.length_take, List.flatten_cons]
    omega
  | drained hlen hfound =>
    have hfits : (out ++ c).length ≤ n := by
      simp only [List.length_append, List.length_take] at hlen ⊢
      omega
    rw [List.take_of_length_le hfits, List.append_assoc] at hlen hfound ⊢
    exact .drained hlen hfound

theorem fill_filled (hout : out.length ≤ n) (hnot : found out = false) :
    Filled n found out cs (fill n found out cs) := by
  induction cs generalizing out with
  | nil =>
    have hnil : out ++ ([] : List (List β)).flatten = out := List.append_nil out
    unfold fill
    split
    · rename_i hlt
      have h : Filled n found out [] (out ++ ([] : List (List β)).flatten, .drained) :=
        .drained (by rwa [hnil]) (by rwa [hnil])
      rwa [hnil] at h
    · rename_i hge
      have htake : (out ++ ([] : List (List β)).flatten).take n = out := by
        rw [hnil, List.take_of_length_le hout]
      have h : Filled n found out [] ((out ++ ([] : List (List β)).flatten).take n, .full) :=
        .full (by rw [hnil]; omega) (by rwa [htake])
      rwa [htake] at h
  | cons c cs ih =>
    unfold fill
    split
    · rw [append_take_sub hout]
      split
      · rename_i hfound
        have h : Filled n found out (c :: cs)
            ((out ++ ((c :: cs).take 1).flatten).take n, .found) := by
          refine .found 1 (by simpa using hfound) fun j hj => ?_
          obtain rfl : j = 0 := by omega
          simpa [List.take_of_length_le hout] using hnot
        simpa using h
      · rename_i hfound
        refine Filled.cons hout hnot (ih ?_ (by simpa using hfound))
        rw [List.length_take]
        exact Nat.min_le_left _ _
    · rename_i hge
      have htake : (out ++ (c :: cs).flatten).take n = out := by
        rw [List.take_append, List.take_of_length_le hout, show n - out.length = 0 by omega,
          List.take_zero, List.append_nil]
      have h : Filled n found out (c :: cs) ((out ++ (c :: cs).flatten).take n, .full) := by
        refine .full ?_ (by rwa [htake])
        rw [List.length_append]
        omega
      rwa [htake] at h

end Fill

end StreamSocket
