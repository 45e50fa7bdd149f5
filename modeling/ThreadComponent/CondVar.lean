import Mathlib.Algebra.BigOperators.Group.Finset.Basic
import Mathlib.Algebra.Order.BigOperators.Group.Finset
import Mathlib.Data.Finset.Powerset
import Mathlib.Tactic.Linarith

/-!
# A condition variable over a pool of items

Threads wait for the pool to be filled and take up to their demand when they resume. A
notification wakes one waiter, whichever. `Covers` says that the waiters woken so far,
together with those that the notifications still to come will wake, ask for all the items.
-/

set_option autoImplicit false
set_option linter.unusedSectionVars false

structure CondVar (C : Type) where
  waiting : Finset C
  woken : Finset C
  disjoint : Disjoint waiting woken

namespace CondVar
variable {C : Type} [DecidableEq C]

def init : CondVar C := ⟨∅, ∅, Finset.disjoint_empty_left _⟩

/-- A thread goes to sleep, for the first time or again. -/
def wait (v : CondVar C) (c : C) : CondVar C where
  waiting := insert c v.waiting
  woken := v.woken.erase c
  disjoint := by
    rw [Finset.disjoint_insert_left]
    exact ⟨Finset.notMem_erase c _, v.disjoint.mono_right (Finset.erase_subset _ _)⟩

def notify (v : CondVar C) (c : C) : CondVar C where
  waiting := v.waiting.erase c
  woken := insert c v.woken
  disjoint := by
    rw [Finset.disjoint_insert_right]
    exact ⟨Finset.notMem_erase c _, v.disjoint.mono_left (Finset.erase_subset _ _)⟩

def notifyAll (v : CondVar C) : CondVar C where
  waiting := ∅
  woken := v.woken ∪ v.waiting
  disjoint := Finset.disjoint_empty_left _

def leave (v : CondVar C) (c : C) : CondVar C where
  waiting := v.waiting.erase c
  woken := v.woken.erase c
  disjoint := (v.disjoint.mono_left (Finset.erase_subset _ _)).mono_right
    (Finset.erase_subset _ _)

def blocked (v : CondVar C) : Finset C := v.waiting ∪ v.woken

/-- Whichever waiters the pending notifications wake, together with the woken ones they ask
for the `n` items, unless nobody waits behind them. -/
def Covers (demand : C → Nat) (pending n : Nat) (v : CondVar C) : Prop :=
  ∀ Q ∈ v.waiting.ssubsets, Q.card = pending →
    n ≤ ∑ c ∈ v.woken, demand c + ∑ c ∈ Q, demand c

instance (demand : C → Nat) (pending n : Nat) (v : CondVar C) :
    Decidable (v.Covers demand pending n) := by
  unfold Covers
  infer_instance

variable {demand : C → Nat} {pending n m : Nat} {v : CondVar C} {c : C}

theorem covers_zero : v.Covers demand pending 0 := fun _ _ _ => Nat.zero_le _

theorem covers_of_waiting_empty (h : v.waiting = ∅) : v.Covers demand pending n := by
  intro Q hQ _
  rw [h, Finset.mem_ssubsets] at hQ
  exact absurd hQ (Finset.not_ssubset_empty Q)

theorem Covers.mono (h : v.Covers demand pending n) (hm : m ≤ n) :
    v.Covers demand pending m := fun Q hQ hcard => hm.trans (h Q hQ hcard)

theorem notMem_woken (hc : c ∈ v.waiting) : c ∉ v.woken :=
  Finset.disjoint_left.mp v.disjoint hc

theorem notMem_waiting (hc : c ∈ v.woken) : c ∉ v.waiting :=
  Finset.disjoint_right.mp v.disjoint hc

theorem sum_notify (hc : c ∈ v.waiting) :
    ∑ d ∈ (v.notify c).woken, demand d = demand c + ∑ d ∈ v.woken, demand d :=
  Finset.sum_insert (notMem_woken hc)

/-- Who is left behind by a choice of waiters is left behind when the first is woken. -/
theorem erase_ssubset_notify {Q : Finset C} (hQ : Q ⊂ v.waiting) (hc : c ∈ Q) :
    Q.erase c ⊂ (v.notify c).waiting := by
  obtain ⟨d, hd, hdQ⟩ := Finset.exists_of_ssubset hQ
  have hdc : d ≠ c := fun heq => hdQ (heq ▸ hc)
  refine Finset.ssubset_iff_subset_ne.mpr ⟨Finset.erase_subset_erase c hQ.1, fun heq => hdQ ?_⟩
  have hmem : d ∈ v.waiting.erase c := Finset.mem_erase.mpr ⟨hdc, hd⟩
  rw [show v.waiting.erase c = Q.erase c from heq.symm] at hmem
  exact Finset.mem_of_mem_erase hmem

theorem Covers.notify (h : v.Covers demand (pending + 1) n) (hc : c ∈ v.waiting) :
    (v.notify c).Covers demand pending n := by
  intro Q hQ hcard
  obtain ⟨hsub, hne⟩ := Finset.ssubset_iff_subset_ne.mp (Finset.mem_ssubsets.mp hQ)
  have hcQ : c ∉ Q := fun hmem => Finset.notMem_erase c _ (hsub hmem)
  have hstrict : insert c Q ⊂ v.waiting := by
    refine Finset.ssubset_iff_subset_ne.mpr ⟨?_, fun heq => hne ?_⟩
    · exact Finset.insert_subset hc (hsub.trans (Finset.erase_subset _ _))
    · change Q = v.waiting.erase c
      rw [← heq, Finset.erase_insert hcQ]
  have hall := h (insert c Q) (Finset.mem_ssubsets.mpr hstrict)
    (by rw [Finset.card_insert_of_notMem hcQ, hcard])
  rw [Finset.sum_insert hcQ] at hall
  rw [sum_notify hc]
  omega

theorem Covers.notify_extra (h : v.Covers demand pending n) (hc : c ∈ v.waiting) :
    (v.notify c).Covers demand pending n := by
  intro Q hQ hcard
  have hstrict : Q ⊂ v.waiting :=
    (Finset.mem_ssubsets.mp hQ).trans_subset (Finset.erase_subset _ _)
  have hall := h Q (Finset.mem_ssubsets.mpr hstrict) hcard
  rw [sum_notify hc]
  omega

theorem covers_notifyAll : v.notifyAll.Covers demand pending n := covers_of_waiting_empty rfl

theorem Covers.take (h : v.Covers demand pending n) (hc : c ∈ v.woken) :
    (v.leave c).Covers demand pending (n - demand c) := by
  intro Q hQ hcard
  have hwaiting : (v.leave c).waiting = v.waiting :=
    Finset.erase_eq_of_notMem (notMem_waiting hc)
  have hall := h Q (by rwa [hwaiting] at hQ) hcard
  have hsum : demand c + ∑ d ∈ (v.leave c).woken, demand d = ∑ d ∈ v.woken, demand d :=
    Finset.add_sum_erase v.woken demand hc
  omega

theorem Covers.leave (h : v.Covers demand pending n) (hc : c ∈ v.waiting) :
    (v.leave c).Covers demand pending n := by
  intro Q hQ hcard
  have hstrict : Q ⊂ v.waiting :=
    (Finset.mem_ssubsets.mp hQ).trans_subset (Finset.erase_subset _ _)
  have hwoken : (v.leave c).woken = v.woken := Finset.erase_eq_of_notMem (notMem_woken hc)
  rw [hwoken]
  exact h Q (Finset.mem_ssubsets.mpr hstrict) hcard

/-- One item more and one notification more: enough if every waiter asks for something. -/
theorem Covers.add_one (h : v.Covers demand pending n) (hone : ∀ c ∈ v.waiting, 1 ≤ demand c) :
    v.Covers demand (pending + 1) (n + 1) := by
  intro Q hQ hcard
  have hstrict := Finset.mem_ssubsets.mp hQ
  obtain ⟨c, hc⟩ : Q.Nonempty := Finset.card_pos.mp (by omega)
  have hsub : Q.erase c ⊂ v.waiting := (Finset.erase_subset _ _).trans_ssubset hstrict
  have hall := h (Q.erase c) (Finset.mem_ssubsets.mpr hsub)
    (by rw [Finset.card_erase_of_mem hc, hcard]; rfl)
  have hsum := Finset.add_sum_erase Q demand hc
  have hpos := hone c (hstrict.1 hc)
  omega

/-- With no notification to come, a woken thread is there for the items. -/
theorem Covers.woken_nonempty (h : v.Covers demand 0 n) (hn : 0 < n) :
    v.blocked = ∅ ∨ v.woken.Nonempty := by
  rcases Finset.eq_empty_or_nonempty v.woken with hwoken | hwoken
  · refine .inl ?_
    rcases Finset.eq_empty_or_nonempty v.waiting with hwaiting | hwaiting
    · rw [blocked, hwaiting, hwoken, Finset.union_empty]
    · have hempty : ∅ ⊂ v.waiting := Finset.empty_ssubset.mpr hwaiting
      have hall := h ∅ (Finset.mem_ssubsets.mpr hempty) rfl
      rw [hwoken, Finset.sum_empty] at hall
      omega
  · exact .inr hwoken

end CondVar
