import Mathlib.Algebra.BigOperators.Group.Finset.Basic
import ThreadComponent.Transitions

/-!
# Runs that end

A rank that every allowed step lowers, as long as an invariant holds, bounds the length of all
schedules of such steps. Each of them can be continued until none is enabled any more. A rank
may be a sum over the threads, and stages that are worth a fixed number of small steps. A step
that undoes another one is counted apart.
-/

set_option autoImplicit false

namespace Transitions

universe u v

namespace System
variable {σ : Type u} {α : Type v} {S : System σ α} {ok : σ → α → Prop}

variable (S) (ok) in
/-- No allowed step is enabled. -/
def Still (s : σ) : Prop := ∀ a, ok s a → S.step s a = none

variable (S) (ok) in
def Enabled (s : σ) : Prop := ∃ a, ok s a ∧ S.step s a ≠ none

theorem Still.not_enabled {s : σ} (h : S.Still ok s) : ¬ S.Enabled ok s :=
  fun ⟨a, hok, hne⟩ => hne (h a hok)

variable (S) (ok) in
/-- Every allowed step from a state with `P` leads to one of a lower rank, with `P` again. -/
structure Ranked (P : σ → Prop) (rank : σ → Nat) : Prop where
  keeps : ∀ s a t, P s → ok s a → S.step s a = some t → P t
  lowers : ∀ s a t, P s → ok s a → S.step s a = some t → rank t < rank s

variable (S) (ok) in
/-- As `Ranked`, but for the steps with `back`, each of which may undo `w` steps. -/
structure RankedBut (back : α → Bool) (w : Nat) (P : σ → Prop) (rank : σ → Nat) : Prop where
  keeps : ∀ s a t, P s → ok s a → S.step s a = some t → P t
  lowers : ∀ s a t, P s → ok s a → back a = false → S.step s a = some t → rank t < rank s
  raises : ∀ s a t, P s → ok s a → back a = true → S.step s a = some t → rank t ≤ rank s + w

namespace RankedBut
variable {back : α → Bool} {w : Nat} {P : σ → Prop} {rank : σ → Nat} {s t : σ}

/-- A step that undoes others counts for itself and for them. -/
theorem length_le [∀ s a, Decidable (ok s a)] (h : RankedBut S ok back w P rank) {as : List α}
    (hs : P s) (hrun : S.replay ok s as = some t) :
    as.length + rank t ≤ rank s + (w + 1) * as.countP back := by
  induction as generalizing s with
  | nil =>
    obtain rfl : s = t := by simpa [replay] using hrun
    simp
  | cons a as ih =>
    simp only [replay] at hrun
    split at hrun
    · rename_i hok
      obtain ⟨u, hu, hrest⟩ := Option.bind_eq_some_iff.mp hrun
      have hlength := ih (h.keeps s a u hs hok hu) hrest
      rw [List.length_cons, List.countP_cons]
      cases hback : back a with
      | false =>
        have hlower := h.lowers s a u hs hok hback hu
        rw [if_neg Bool.false_ne_true, Nat.add_zero (as.countP back)]
        omega
      | true =>
        have hraise := h.raises s a u hs hok hback hu
        rw [if_pos rfl, Nat.mul_succ]
        omega
    · cases hrun

/-- Without such steps the rank only falls. -/
theorem ranked (h : RankedBut S ok back w P rank) :
    Ranked S (fun s a => ok s a ∧ back a = false) P rank where
  keeps s a t hs hok := h.keeps s a t hs hok.1
  lowers s a t hs hok := h.lowers s a t hs hok.1 hok.2

end RankedBut

namespace Ranked
variable {P : σ → Prop} {rank : σ → Nat} {s t : σ}

theorem length_le [∀ s a, Decidable (ok s a)] (h : Ranked S ok P rank) {as : List α} (hs : P s)
    (hrun : S.replay ok s as = some t) : as.length + rank t ≤ rank s := by
  have hbut : RankedBut S ok (fun _ => false) 0 P rank :=
    ⟨h.keeps, fun s a t hs hok _ => h.lowers s a t hs hok, fun _ _ _ _ _ hback => by cases hback⟩
  simpa using hbut.length_le hs hrun

/-- Whatever has happened so far, the rest of the run comes to an end. -/
theorem exists_still (h : Ranked S ok P rank) (hs : P s) :
    ∃ t, S.Reaches ok s t ∧ P t ∧ S.Still ok t := by
  induction hn : rank s using Nat.strongRecOn generalizing s with
  | _ n ih =>
    by_cases hstill : S.Still ok s
    · exact ⟨s, .refl s, hs, hstill⟩
    · obtain ⟨a, hnot⟩ := Classical.not_forall.mp hstill
      obtain ⟨hok, hne⟩ := Classical.not_imp.mp hnot
      obtain ⟨u, hu⟩ := Option.ne_none_iff_exists'.mp hne
      have hlower := h.lowers s a u hs hok hu
      obtain ⟨t, hut, ht⟩ := ih (rank u) (by omega) (h.keeps s a u hs hok hu) rfl
      exact ⟨t, (Reaches.single hok hu).trans hut, ht⟩

end Ranked

end System

/-! ## Ranks that are made up of others -/

theorem sum_add_of_frame {ι : Type v} [DecidableEq ι] {busy : Finset ι} {i : ι} {f g : ι → Nat}
    (hi : i ∈ busy) (hframe : ∀ j, j ≠ i → g j = f j) :
    ∑ j ∈ busy, g j + f i = ∑ j ∈ busy, f j + g i := by
  have hothers : ∑ j ∈ busy.erase i, g j = ∑ j ∈ busy.erase i, f j :=
    Finset.sum_congr rfl fun j hj => hframe j (Finset.ne_of_mem_erase hj)
  rw [← Finset.add_sum_erase busy g hi, ← Finset.add_sum_erase busy f hi, hothers]
  omega

/-- Less than the weight of a stage may be added where a stage is left behind. -/
theorem weighted_lt {a a' m m' b b' : Nat} (hstage : a' < a) (hweight : m' ≤ m)
    (hleft : b' < b + m) : a' * m' + b' < a * m + b := by
  have hadd : a' * m' ≤ a' * m := Nat.mul_le_mul_left a' hweight
  have hsucc : (a' + 1) * m ≤ a * m := Nat.mul_le_mul_right m hstage
  rw [Nat.succ_mul] at hsucc
  omega

end Transitions
