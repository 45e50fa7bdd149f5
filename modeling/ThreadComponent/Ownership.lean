import Mathlib.Logic.Function.Basic

/-!
# Accounting for things that are acquired once and released once

Things are numbered in the order of their acquisition. A holder has at most one of them
at a time; `released i` counts the releases of thing `i`. The accounts are in order when
every thing is either with exactly one holder, not yet released, or with nobody and
released once. Acquiring, passing on and releasing keep them so.
-/

set_option autoImplicit false

namespace Ownership

universe u

variable {H : Type u}

structure Accounted (place : H → Option Nat) (released : Nat → Nat) (opened : Nat) :
    Prop where
  unique : ∀ {h k i}, place h = some i → place k = some i → h = k
  held : ∀ {h i}, place h = some i → i < opened ∧ released i = 0
  settled : ∀ {i}, i < opened → released i = 1 ∨ ∃ h, place h = some i
  untouched : ∀ {i}, opened ≤ i → released i = 0

variable {place : H → Option Nat} {released : Nat → Nat} {opened i : Nat} {h k : H}

theorem accounted_init : Accounted (fun _ : H => none) (fun _ => 0) 0 where
  unique h := by cases h
  held h := by cases h
  settled h := absurd h (Nat.not_lt_zero _)
  untouched _ := rfl

namespace Accounted

theorem released_le_one (ha : Accounted place released opened) (i : Nat) :
    released i ≤ 1 := by
  rcases Nat.lt_or_ge i opened with hi | hi
  · rcases ha.settled hi with hr | ⟨h, hh⟩
    · omega
    · have := (ha.held hh).2
      omega
  · have := ha.untouched hi
    omega

theorem released_of_unheld (ha : Accounted place released opened) (hi : i < opened)
    (hfree : ∀ h, place h ≠ some i) : released i = 1 :=
  (ha.settled hi).resolve_right fun ⟨h, hh⟩ => hfree h hh

variable [DecidableEq H]

theorem acquire (ha : Accounted place released opened) (hh : place h = none) :
    Accounted (Function.update place h (some opened)) released (opened + 1) where
  unique {a b i} hx hy := by
    have hold : ∀ {c}, place c = some opened → False :=
      fun hc => Nat.lt_irrefl _ (ha.held hc).1
    by_cases hxa : a = h <;> by_cases hyb : b = h
    · exact hxa.trans hyb.symm
    · subst hxa
      rw [Function.update_self] at hx
      rw [Function.update_of_ne hyb, ← hx] at hy
      exact (hold hy).elim
    · subst hyb
      rw [Function.update_self] at hy
      rw [Function.update_of_ne hxa, ← hy] at hx
      exact (hold hx).elim
    · rw [Function.update_of_ne hxa] at hx
      rw [Function.update_of_ne hyb] at hy
      exact ha.unique hx hy
  held {a i} hx := by
    by_cases hxa : a = h
    · subst hxa
      obtain rfl : opened = i := by simpa using hx
      exact ⟨Nat.lt_succ_self _, ha.untouched (Nat.le_refl _)⟩
    · rw [Function.update_of_ne hxa] at hx
      exact ⟨Nat.lt_succ_of_lt (ha.held hx).1, (ha.held hx).2⟩
  settled {i} hi := by
    rcases Nat.lt_succ_iff_lt_or_eq.mp hi with hlt | rfl
    · rcases ha.settled hlt with hr | ⟨a, hx⟩
      · exact .inl hr
      · refine .inr ⟨a, ?_⟩
        have hne : a ≠ h := by
          rintro rfl
          rw [hh] at hx
          cases hx
        rwa [Function.update_of_ne hne]
    · exact .inr ⟨h, Function.update_self ..⟩
  untouched hi := ha.untouched (Nat.le_of_succ_le hi)

theorem transfer (ha : Accounted place released opened) (hh : place h = some i)
    (hk : place k = none) :
    Accounted (Function.update (Function.update place h none) k (some i)) released opened := by
  have hne : h ≠ k := by
    rintro rfl
    rw [hk] at hh
    cases hh
  -- whoever holds something afterwards is the new holder, or has held it before and is not `h`
  have hcase : ∀ {a j}, Function.update (Function.update place h none) k (some i) a = some j →
      (a = k ∧ j = i) ∨ (a ≠ k ∧ a ≠ h ∧ place a = some j) := by
    intro a j hx
    by_cases hak : a = k
    · subst hak
      exact .inl ⟨rfl, by simpa [eq_comm] using hx⟩
    · rw [Function.update_of_ne hak] at hx
      by_cases hah : a = h
      · subst hah
        simp at hx
      · rw [Function.update_of_ne hah] at hx
        exact .inr ⟨hak, hah, hx⟩
  refine ⟨?_, ?_, ?_, ha.untouched⟩
  · intro a b j hx hy
    rcases hcase hx with ⟨rfl, rfl⟩ | ⟨-, hah, hxa⟩ <;>
      rcases hcase hy with ⟨hb, hj⟩ | ⟨-, hbh, hyb⟩
    · exact hb.symm
    · exact absurd (ha.unique hyb hh) hbh
    · exact absurd (ha.unique (hj ▸ hxa) hh) hah
    · exact ha.unique hxa hyb
  · intro a j hx
    rcases hcase hx with ⟨-, rfl⟩ | ⟨-, -, hx⟩
    · exact ha.held hh
    · exact ha.held hx
  · intro j hj
    rcases ha.settled hj with hr | ⟨a, hx⟩
    · exact .inl hr
    · refine .inr ?_
      by_cases hah : a = h
      · subst hah
        obtain rfl : i = j := by simpa [hh] using hx
        exact ⟨k, Function.update_self ..⟩
      · have hak : a ≠ k := by
          rintro rfl
          rw [hk] at hx
          cases hx
        exact ⟨a, by rwa [Function.update_of_ne hak, Function.update_of_ne hah]⟩

theorem release (ha : Accounted place released opened) (hh : place h = some i) :
    Accounted (Function.update place h none)
      (Function.update released i (released i + 1)) opened := by
  have hcase : ∀ {a j}, Function.update place h none a = some j →
      a ≠ h ∧ place a = some j ∧ j ≠ i := by
    intro a j hx
    by_cases hah : a = h
    · subst hah
      simp at hx
    · rw [Function.update_of_ne hah] at hx
      refine ⟨hah, hx, ?_⟩
      rintro rfl
      exact hah (ha.unique hx hh)
  refine ⟨?_, ?_, ?_, ?_⟩
  · intro a b j hx hy
    exact ha.unique (hcase hx).2.1 (hcase hy).2.1
  · intro a j hx
    obtain ⟨-, hx, hji⟩ := hcase hx
    rw [Function.update_of_ne hji]
    exact ha.held hx
  · intro j hj
    by_cases hji : j = i
    · subst hji
      exact .inl (by simp [(ha.held hh).2])
    · rw [Function.update_of_ne hji]
      rcases ha.settled hj with hr | ⟨a, hx⟩
      · exact .inl hr
      · refine .inr ⟨a, ?_⟩
        rwa [Function.update_of_ne]
        rintro rfl
        rw [hh] at hx
        exact hji (by simpa [eq_comm] using hx)
  · intro j hj
    rw [Function.update_of_ne]
    · exact ha.untouched hj
    · rintro rfl
      exact absurd (ha.held hh).1 (Nat.not_lt_of_le hj)

end Accounted

/-! ## Custody

Weaker accounts, in which things may get lost: a holder may take a thing in place of another.
An `intact` holder has not released what it still holds. -/

structure Custody (intact : H → Prop) (place : H → Option Nat) (released : Nat → Nat)
    (opened : Nat) : Prop where
  unique : ∀ {h k i}, place h = some i → place k = some i → h = k
  known : ∀ {h i}, place h = some i → i < opened
  unreleased : ∀ {h i}, intact h → place h = some i → released i = 0
  untouched : ∀ {i}, opened ≤ i → released i = 0

variable {intact intact' : H → Prop}

theorem custody_init : Custody intact (fun _ : H => none) (fun _ => 0) 0 where
  unique h := by cases h
  known h := by cases h
  unreleased _ h := by cases h
  untouched _ := rfl

namespace Custody

theorem mono (hc : Custody intact place released opened) (himp : ∀ h, intact' h → intact h) :
    Custody intact' place released opened :=
  { hc with unreleased := fun hh hi => hc.unreleased (himp _ hh) hi }

/-- A holder releases what it holds, and keeps it in its hand. -/
theorem spend (hc : Custody intact place released opened) (hh : place h = some i) :
    Custody (fun k => intact k ∧ k ≠ h) place (Function.update released i (released i + 1))
      opened where
  unique := hc.unique
  known := hc.known
  unreleased {a j} ha hx := by
    have hji : j ≠ i := by
      rintro rfl
      exact ha.2 (hc.unique hx hh)
    rw [Function.update_of_ne hji]
    exact hc.unreleased ha.1 hx
  untouched {j} hj := by
    have hji : j ≠ i := by
      rintro rfl
      exact absurd (hc.known hh) (Nat.not_lt_of_le hj)
    rw [Function.update_of_ne hji]
    exact hc.untouched hj

variable [DecidableEq H]

theorem acquire (hc : Custody intact place released opened) (h : H) :
    Custody intact (Function.update place h (some opened)) released (opened + 1) := by
  have hcase : ∀ {a j}, Function.update place h (some opened) a = some j →
      (a = h ∧ j = opened) ∨ (a ≠ h ∧ place a = some j) := by
    intro a j hx
    by_cases hah : a = h
    · subst hah
      rw [Function.update_self] at hx
      exact .inl ⟨rfl, (Option.some.inj hx).symm⟩
    · rw [Function.update_of_ne hah] at hx
      exact .inr ⟨hah, hx⟩
  refine ⟨?_, ?_, ?_, fun hj => hc.untouched (Nat.le_of_succ_le hj)⟩
  · intro a b j hx hy
    rcases hcase hx with ⟨ha, hj⟩ | ⟨-, hx⟩ <;> rcases hcase hy with ⟨hb, hj'⟩ | ⟨-, hy⟩
    · exact ha.trans hb.symm
    · exact absurd (hc.known hy) (by omega)
    · exact absurd (hc.known hx) (by omega)
    · exact hc.unique hx hy
  · intro a j hx
    rcases hcase hx with ⟨-, hj⟩ | ⟨-, hx⟩
    · omega
    · exact Nat.lt_succ_of_lt (hc.known hx)
  · intro a j ha hx
    rcases hcase hx with ⟨-, hj⟩ | ⟨-, hx⟩
    · exact hc.untouched (Nat.le_of_eq hj.symm)
    · exact hc.unreleased ha hx

theorem move (hc : Custody intact place released opened) (h k : H)
    (hintact : intact k → intact h) :
    Custody intact (Function.update (Function.update place h none) k (place h)) released
      opened := by
  -- whoever holds something afterwards is the new holder, or has held it before and is not `h`
  have hcase : ∀ {a j}, Function.update (Function.update place h none) k (place h) a = some j →
      (a = k ∧ place h = some j) ∨ (a ≠ k ∧ a ≠ h ∧ place a = some j) := by
    intro a j hx
    by_cases hak : a = k
    · subst hak
      rw [Function.update_self] at hx
      exact .inl ⟨rfl, hx⟩
    · rw [Function.update_of_ne hak] at hx
      by_cases hah : a = h
      · subst hah
        rw [Function.update_self] at hx
        cases hx
      · rw [Function.update_of_ne hah] at hx
        exact .inr ⟨hak, hah, hx⟩
  refine ⟨?_, ?_, ?_, hc.untouched⟩
  · intro a b j hx hy
    rcases hcase hx with ⟨ha, hx⟩ | ⟨-, hah, hx⟩ <;> rcases hcase hy with ⟨hb, hy⟩ | ⟨-, hbh, hy⟩
    · exact ha.trans hb.symm
    · exact absurd (hc.unique hy hx) hbh
    · exact absurd (hc.unique hx hy) hah
    · exact hc.unique hx hy
  · intro a j hx
    rcases hcase hx with ⟨-, hx⟩ | ⟨-, -, hx⟩ <;> exact hc.known hx
  · intro a j ha hx
    rcases hcase hx with ⟨hak, hold⟩ | ⟨-, -, hold⟩
    · exact hc.unreleased (hintact (hak ▸ ha)) hold
    · exact hc.unreleased ha hold

theorem drop (hc : Custody intact place released opened) (h : H) :
    Custody intact (Function.update place h none) released opened := by
  have hcase : ∀ {a j}, Function.update place h none a = some j → place a = some j := by
    intro a j hx
    by_cases hah : a = h
    · subst hah
      rw [Function.update_self] at hx
      cases hx
    · rwa [Function.update_of_ne hah] at hx
  exact ⟨fun hx hy => hc.unique (hcase hx) (hcase hy), fun hx => hc.known (hcase hx),
    fun ha hx => hc.unreleased ha (hcase hx), hc.untouched⟩

theorem release (hc : Custody intact place released opened) (hh : place h = some i) :
    Custody intact (Function.update place h none)
      (Function.update released i (released i + 1)) opened := by
  have hspent := (hc.spend hh).drop h
  refine { hspent with unreleased := fun {a j} ha hx => ?_ }
  have hah : a ≠ h := by
    rintro rfl
    rw [Function.update_self] at hx
    cases hx
  exact hspent.unreleased ⟨ha, hah⟩ hx

end Custody

/-! ## Settled things

What is due may be passed on and released, but not lost. -/

/-- What is due is with a holder, or has been released once. -/
def Settled (due : Nat → Prop) (place : H → Option Nat) (released : Nat → Nat) : Prop :=
  ∀ i, due i → released i = 1 ∨ ∃ h, place h = some i

namespace Settled
variable {due due' : Nat → Prop}

theorem mono (hs : Settled due place released) (himp : ∀ i, due' i → due i) :
    Settled due' place released :=
  fun i hi => hs i (himp i hi)

theorem released_of_unheld (hs : Settled due place released) (hi : due i)
    (hfree : ∀ h, place h ≠ some i) : released i = 1 :=
  (hs i hi).resolve_right fun ⟨h, hh⟩ => hfree h hh

theorem spend (hs : Settled due place released) (hi : ¬ due i) :
    Settled due place (Function.update released i (released i + 1)) := by
  intro j hj
  have hji : j ≠ i := by
    rintro rfl
    exact hi hj
  rw [Function.update_of_ne hji]
  exact hs j hj

variable [DecidableEq H]

/-- A holder that has nothing that is due gets something else. -/
theorem overwrite (hs : Settled due place released) (hh : ∀ i, place h = some i → ¬ due i)
    (v : Option Nat) : Settled due (Function.update place h v) released := by
  intro i hi
  refine (hs i hi).imp_right fun ⟨k, hk⟩ => ⟨k, ?_⟩
  have hkh : k ≠ h := by
    rintro rfl
    exact hh i hk hi
  rwa [Function.update_of_ne hkh]

theorem move (hs : Settled due place released) (hk : ∀ i, place k = some i → ¬ due i) :
    Settled due (Function.update (Function.update place h none) k (place h)) released := by
  intro i hi
  refine (hs i hi).imp_right fun ⟨a, ha⟩ => ?_
  have hak : a ≠ k := by
    rintro rfl
    exact hk i ha hi
  by_cases hah : a = h
  · subst hah
    exact ⟨k, (Function.update_self ..).trans ha⟩
  · exact ⟨a, by rwa [Function.update_of_ne hak, Function.update_of_ne hah]⟩

theorem release (hs : Settled due place released) (hh : place h = some i)
    (hi : due i → released i = 0) :
    Settled due (Function.update place h none)
      (Function.update released i (released i + 1)) := by
  intro j hj
  by_cases hji : j = i
  · subst hji
    exact .inl (by rw [Function.update_self, hi hj])
  · rw [Function.update_of_ne hji]
    refine (hs j hj).imp_right fun ⟨k, hk⟩ => ⟨k, ?_⟩
    have hkh : k ≠ h := by
      rintro rfl
      exact hji (Option.some.inj (hk.symm.trans hh))
    rwa [Function.update_of_ne hkh]

end Settled

/-! ## Ledgers

Things with names of their own, in lists that say who still holds them. -/

structure Ledger (I : Type u) where
  acquired : List I := []
  released : I → Nat := fun _ => 0

namespace Ledger
variable {I : Type u} [DecidableEq I]

def acquire (l : Ledger I) (things : List I) : Ledger I :=
  { l with acquired := l.acquired ++ things }

def release (l : Ledger I) (i : I) : Ledger I :=
  { l with released := Function.update l.released i (l.released i + 1) }

/-- What is held has not been released, and everything else has been released once. -/
structure Balanced (l : Ledger I) (held : List I) : Prop where
  nodup : held.Nodup
  known : ∀ i ∈ held, i ∈ l.acquired
  released : ∀ i, l.released i = if i ∈ l.acquired ∧ i ∉ held then 1 else 0

variable {l : Ledger I} {held things : List I} {i : I}

omit [DecidableEq I] in
theorem mem_acquire : i ∈ (l.acquire things).acquired ↔ i ∈ l.acquired ∨ i ∈ things :=
  List.mem_append

theorem balanced_empty : Balanced ({} : Ledger I) [] where
  nodup := List.nodup_nil
  known _ h := by cases h
  released _ := by simp

namespace Balanced

theorem released_le_one (h : Balanced l held) (i : I) : l.released i ≤ 1 := by
  rw [h.released]
  split <;> omega

theorem released_of_settled (h : Balanced l []) (hi : i ∈ l.acquired) : l.released i = 1 := by
  rw [h.released, if_pos ⟨hi, List.not_mem_nil⟩]

theorem acquire (h : Balanced l held) (hnodup : things.Nodup)
    (hfresh : ∀ i ∈ things, i ∉ l.acquired) : Balanced (l.acquire things) (held ++ things) where
  nodup := List.nodup_append.mpr
    ⟨h.nodup, hnodup, fun i hi j hj heq => hfresh j hj (heq ▸ h.known i hi)⟩
  known i hi := by
    rcases List.mem_append.mp hi with hi | hi
    · exact List.mem_append_left _ (h.known i hi)
    · exact List.mem_append_right _ hi
  released i := by
    rw [Ledger.acquire, h.released]
    by_cases hi : i ∈ things
    · simp [hi, hfresh i hi]
    · simp [hi]

theorem acquire_one (h : Balanced l held) (hi : i ∉ l.acquired) :
    Balanced (l.acquire [i]) (held ++ [i]) := by
  refine h.acquire (List.nodup_cons.mpr ⟨List.not_mem_nil, List.nodup_nil⟩) fun j hj => ?_
  rw [List.mem_singleton.mp hj]
  exact hi

theorem release (h : Balanced l (i :: held)) : Balanced (l.release i) held where
  nodup := h.nodup.of_cons
  known j hj := h.known j (List.mem_cons_of_mem i hj)
  released j := by
    change Function.update l.released i (l.released i + 1) j =
      if j ∈ l.acquired ∧ j ∉ held then 1 else 0
    by_cases hji : j = i
    · subst hji
      have hnot : j ∉ held := (List.nodup_cons.mp h.nodup).1
      rw [Function.update_self, h.released, if_neg fun hj => hj.2 List.mem_cons_self,
        if_pos ⟨h.known j List.mem_cons_self, hnot⟩]
    · rw [Function.update_of_ne hji, h.released]
      simp [hji]

end Balanced

end Ledger

end Ownership
