import ThreadComponent.SimpleContainer

/-!
# Wakeups of simple_container_V2

Every insertion notifies once, however many items it brings. The waiters that are woken so
have to ask for all the items; otherwise some stay asleep beside a container with items.
-/

set_option autoImplicit false

namespace ThreadComponent

open Transitions System

namespace SimpleContainer
variable {T C : Type} [DecidableEq C] {s t u : SimpleContainer T C}

/-- Where every thread is out of the container or blocked in it, a container with items has
no blocked threads, or one that has been notified and is going to resume. -/
def NoWakeupLost (s : SimpleContainer T C) : Prop :=
  s.notifying = ∅ → s.mItems ≠ [] →
    s.mCv.blocked = ∅ ∨ ∃ c ∈ s.mCv.woken, (s.step (.resume c)).isSome = true

/-- Whichever waiters are woken by the notifications to come, that of this insertion
included, together with the woken ones they ask for all the items there are then. -/
def WakesEnough (s : SimpleContainer T C) : ContainerAction T C → Prop
  | .insert _ _ _ => s.mCv.Covers s.count (s.notifying.card + 1) (s.mItems.length + 1)
  | .insertMany _ items _ =>
    items = [] ∨ s.mCv.Covers s.count (s.notifying.card + 1) (s.mItems.length + items.length)
  | _ => True

instance (s : SimpleContainer T C) (a : ContainerAction T C) : Decidable (WakesEnough s a) := by
  induction a using ContainerAction.casesOn <;> (unfold WakesEnough; infer_instance)

/-- The waiters that the pending notifications wake take all the items. -/
def Covered (s : SimpleContainer T C) : Prop :=
  s.mCv.Covers s.count s.notifying.card s.mItems.length

theorem insertItemUnlocked_length (mItems : List T) (item : T) (insertBack : Bool) :
    (insertItemUnlocked mItems item insertBack).length = mItems.length + 1 := by
  cases insertBack <;> simp [insertItemUnlocked]

theorem insertManyUnlocked_length (mItems items : List T) (insertBack : Bool) :
    (insertManyUnlocked mItems items insertBack).length = mItems.length + items.length := by
  cases insertBack <;> simp [insertManyUnlocked, Nat.add_comm]

theorem free_notMem {c : C} (h : s.free c = true) : c ∉ s.notifying := by
  simp only [free, decide_eq_true_eq] at h
  exact h.1

theorem beginNotify_card {c : C} {items : List T} (h : s.free c = true) :
    (s.beginNotify c items).notifying.card = s.notifying.card + 1 :=
  Finset.card_insert_of_notMem (free_notMem h)

/-! ## One step -/

theorem Covered.fewer {mItems : List T} {c : C} {r : Returned T} (h : Covered s)
    (hle : mItems.length ≤ s.mItems.length) : Covered (s.leave c r mItems) :=
  CondVar.Covers.mono h hle

/-- A thread whose wait is over takes what it asked for. -/
theorem Covered.grabWaited {c : C} (h : Covered s)
    (hc : c ∈ s.mCv.waiting ∨ c ∈ s.mCv.woken) :
    Covered ({ s with mCv := s.mCv.leave c }.grabWaited c (s.count c)) := by
  unfold Covered at h
  unfold SimpleContainer.grabWaited
  split
  · rename_i hempty
    change (s.mCv.leave c).Covers s.count s.notifying.card s.mItems.length
    rw [show s.mItems = [] from hempty]
    exact CondVar.covers_zero
  · change (s.mCv.leave c).Covers s.count s.notifying.card
      (grabItemsUnlocked s.mItems (s.count c)).2.length
    rw [grabItemsUnlocked_length]
    rcases hc with hc | hc
    · exact (h.leave hc).mono (Nat.sub_le _ _)
    · exact h.take hc

theorem Covered.notifyOne {c : C} {woken : Option C} (h : Covered s) (hc : c ∈ s.notifying)
    (hs : ({ s with notifying := s.notifying.erase c }.setReturned c .nothing).notifyOne woken =
      some t) : Covered t := by
  have hcard : (s.notifying.erase c).card + 1 = s.notifying.card :=
    Finset.card_erase_add_one hc
  unfold Covered at h
  cases woken with
  | some w =>
    simp only [SimpleContainer.notifyOne, Option.ite_none_right_eq_some, Option.some.injEq] at hs
    obtain ⟨hw, rfl⟩ := hs
    rw [← hcard] at h
    exact h.notify hw
  | none =>
    simp only [SimpleContainer.notifyOne, Option.ite_none_right_eq_some, Option.some.injEq] at hs
    obtain ⟨hnone, rfl⟩ := hs
    exact CondVar.covers_of_waiting_empty hnone

theorem Covered.step {a : ContainerAction T C} (h : Covered s) (hok : WakesEnough s a)
    (hs : s.step a = some t) : Covered t := by
  cases a with
  | clear c =>
    simp only [SimpleContainer.step, Option.ite_none_right_eq_some, Option.some.injEq] at hs
    obtain ⟨-, rfl⟩ := hs
    exact h.fewer (Nat.zero_le _)
  | insert c item insertBack =>
    simp only [SimpleContainer.step, Option.ite_none_right_eq_some, Option.some.injEq] at hs
    obtain ⟨hfree, rfl⟩ := hs
    unfold Covered
    rw [beginNotify_card hfree]
    simp only [beginNotify, insertItemUnlocked_length]
    exact hok
  | insertMany c items insertBack =>
    simp only [SimpleContainer.step, Option.ite_none_right_eq_some, Option.some.injEq] at hs
    obtain ⟨hfree, rfl⟩ := hs
    split
    · exact h
    · rename_i hne
      unfold Covered
      rw [beginNotify_card hfree]
      simp only [beginNotify, insertManyUnlocked_length]
      exact hok.resolve_left hne
  | insertNotify c woken =>
    simp only [SimpleContainer.step] at hs
    split at hs
    · rename_i hc
      exact h.notifyOne hc hs
    · cases hs
  | grab c count =>
    simp only [SimpleContainer.step, Option.ite_none_right_eq_some, Option.some.injEq] at hs
    obtain ⟨-, rfl⟩ := hs
    exact h.fewer (by rw [grabItemsUnlocked_length]; exact Nat.sub_le _ _)
  | grabFor c count =>
    simp only [SimpleContainer.step, Option.ite_none_right_eq_some, Option.some.injEq] at hs
    obtain ⟨-, rfl⟩ := hs
    split
    · rename_i hempty
      unfold Covered
      rw [show s.mItems = [] from hempty]
      exact CondVar.covers_zero
    · rename_i hne
      rw [SimpleContainer.grabWaited, if_neg hne]
      exact h.fewer (by rw [grabItemsUnlocked_length]; exact Nat.sub_le _ _)
  | resume c =>
    simp only [SimpleContainer.step, Option.ite_none_right_eq_some, Option.some.injEq] at hs
    obtain ⟨hc, rfl⟩ := hs
    split
    · rename_i hempty
      unfold Covered
      rw [show s.mItems = [] from hempty]
      exact CondVar.covers_zero
    · exact h.grabWaited hc
  | expire c =>
    simp only [SimpleContainer.step, Option.ite_none_right_eq_some, Option.some.injEq] at hs
    obtain ⟨hc, rfl⟩ := hs
    exact h.grabWaited hc
  | grabSelected c count fn offset =>
    simp only [SimpleContainer.step, Option.ite_none_right_eq_some, Option.some.injEq] at hs
    obtain ⟨-, rfl⟩ := hs
    exact h.fewer (grabSelected_length_le _ _ _ _)
  | notifyOne c woken =>
    simp only [SimpleContainer.step, Option.ite_none_right_eq_some] at hs
    obtain ⟨-, hs⟩ := hs
    cases woken with
    | some w =>
      simp only [SimpleContainer.notifyOne, Option.ite_none_right_eq_some,
        Option.some.injEq] at hs
      obtain ⟨hw, rfl⟩ := hs
      exact CondVar.Covers.notify_extra h hw
    | none =>
      simp only [SimpleContainer.notifyOne, Option.ite_none_right_eq_some,
        Option.some.injEq] at hs
      obtain ⟨-, rfl⟩ := hs
      exact h
  | notifyAll c =>
    simp only [SimpleContainer.step, Option.ite_none_right_eq_some, Option.some.injEq] at hs
    obtain ⟨-, rfl⟩ := hs
    exact CondVar.covers_notifyAll
  | snapshot c count offset | empty c | size c =>
    simp only [SimpleContainer.step, Option.ite_none_right_eq_some, Option.some.injEq] at hs
    obtain ⟨-, rfl⟩ := hs
    exact h

theorem covered_init : Covered ({} : SimpleContainer T C) := CondVar.covers_zero

theorem covered_of_reachable (hr : (simpleContainer T C).ReachableBy WakesEnough s) :
    Covered s := by
  refine ReachableBy.invariant (P := Covered) ?_ (fun _ _ _ _ hx hok hs => hx.step hok hs) hr
  exact covered_init

theorem Covered.noWakeupLost (h : Covered s) : NoWakeupLost s := by
  intro hquiet hitems
  unfold Covered at h
  rw [hquiet, Finset.card_empty] at h
  rcases h.woken_nonempty (List.length_pos_iff.mpr hitems) with hnone | ⟨c, hc⟩
  · exact .inl hnone
  · exact .inr ⟨c, hc, by simp [SimpleContainer.step, hc]⟩

/-! ## A wakeup that is lost -/

/-- The woken threads take what they ask for, and items are left beside a waiter. -/
theorem lost_of_woken (hquiet : s.notifying = ∅) (hwaiting : s.mCv.waiting.Nonempty)
    (hless : ∑ c ∈ s.mCv.woken, s.count c < s.mItems.length) :
    ∃ u, (simpleContainer T C).Reaches Free s u ∧ ¬ NoWakeupLost u := by
  generalize hn : s.mCv.woken.card = n
  induction n generalizing s with
  | zero =>
    have hwoken : s.mCv.woken = ∅ := Finset.card_eq_zero.mp hn
    refine ⟨s, .refl s, fun hclaim => ?_⟩
    have hitems : s.mItems ≠ [] := List.length_pos_iff.mp (Nat.zero_lt_of_lt hless)
    rcases hclaim hquiet hitems with hnone | ⟨c, hc, -⟩
    · obtain ⟨c, hc⟩ := hwaiting
      have hmem : c ∈ s.mCv.blocked := Finset.mem_union_left _ hc
      rw [hnone] at hmem
      cases hmem
    · rw [hwoken] at hc
      cases hc
  | succ n ih =>
    obtain ⟨c, hc⟩ : s.mCv.woken.Nonempty := Finset.card_pos.mp (by omega)
    have hitems : s.mItems ≠ [] := List.length_pos_iff.mp (Nat.zero_lt_of_lt hless)
    have hsum : s.count c + ∑ d ∈ (s.mCv.leave c).woken, s.count d =
        ∑ d ∈ s.mCv.woken, s.count d := Finset.add_sum_erase _ _ hc
    have hstep : (simpleContainer T C).step s (.resume c) =
        some ({ s with mCv := s.mCv.leave c }.grabWaited c (s.count c)) := by
      simp [simpleContainer, SimpleContainer.step, hc, hitems]
    have hnext : { s with mCv := s.mCv.leave c }.grabWaited c (s.count c) =
        { s with mCv := s.mCv.leave c }.leave c
          (.items (grabItemsUnlocked s.mItems (s.count c)).1)
          (grabItemsUnlocked s.mItems (s.count c)).2 := if_neg hitems
    rw [hnext] at hstep
    have hwaiting' : (s.mCv.leave c).waiting = s.mCv.waiting :=
      Finset.erase_eq_of_notMem (CondVar.notMem_waiting hc)
    have hlength := grabItemsUnlocked_length s.mItems (s.count c)
    obtain ⟨u, hu, hlost⟩ := ih (s := { s with mCv := s.mCv.leave c }.leave c
        (.items (grabItemsUnlocked s.mItems (s.count c)).1)
        (grabItemsUnlocked s.mItems (s.count c)).2) hquiet
      (by change (s.mCv.leave c).waiting.Nonempty; rwa [hwaiting'])
      (by
        change ∑ d ∈ (s.mCv.leave c).woken, s.count d <
          (grabItemsUnlocked s.mItems (s.count c)).2.length
        omega)
      (by
        change (s.mCv.woken.erase c).card = n
        rw [Finset.card_erase_of_mem hc]
        omega)
    exact ⟨u, (Reaches.single trivial hstep).trans hu, hlost⟩

/-- The notifications may wake just the waiters that ask for too little. -/
theorem lost_of_not_covered (h : ¬ Covered s) :
    ∃ u, (simpleContainer T C).Reaches Free s u ∧ ¬ NoWakeupLost u := by
  simp only [Covered, CondVar.Covers, not_forall, Nat.not_le] at h
  obtain ⟨Q, hQ, hcard, hless⟩ := h
  generalize hn : s.notifying.card = n at hcard
  induction n generalizing s Q with
  | zero =>
    obtain rfl := Finset.card_eq_zero.mp hcard
    rw [Finset.sum_empty, Nat.add_zero] at hless
    exact lost_of_woken (Finset.card_eq_zero.mp hn)
      (Finset.empty_ssubset.mp (Finset.mem_ssubsets.mp hQ)) hless
  | succ n ih =>
    obtain ⟨p, hp⟩ : s.notifying.Nonempty := Finset.card_pos.mp (by omega)
    obtain ⟨w, hw⟩ : Q.Nonempty := Finset.card_pos.mp (by omega)
    have hstrict := Finset.mem_ssubsets.mp hQ
    have hwaits : w ∈ s.mCv.waiting := hstrict.1 hw
    have hstep : (simpleContainer T C).step s (.insertNotify p (some w)) =
        some { { s with notifying := s.notifying.erase p }.setReturned p .nothing with
          mCv := s.mCv.notify w } := by
      simp [simpleContainer, SimpleContainer.step, SimpleContainer.notifyOne, setReturned, hp,
        hwaits]
    have hsum : s.count w + ∑ d ∈ Q.erase w, s.count d = ∑ d ∈ Q, s.count d :=
      Finset.add_sum_erase _ _ hw
    have hwoken : ∑ d ∈ (s.mCv.notify w).woken, s.count d =
        s.count w + ∑ d ∈ s.mCv.woken, s.count d := CondVar.sum_notify hwaits
    obtain ⟨u, hu, hlost⟩ := ih (Q := Q.erase w)
      (s := { { s with notifying := s.notifying.erase p }.setReturned p .nothing with
        mCv := s.mCv.notify w })
      (Finset.mem_ssubsets.mpr (CondVar.erase_ssubset_notify hstrict hw))
      (by
        change ∑ d ∈ (s.mCv.notify w).woken, s.count d + ∑ d ∈ Q.erase w, s.count d <
          s.mItems.length
        omega)
      (by
        change (s.notifying.erase p).card = n
        rw [Finset.card_erase_of_mem hp]
        omega)
      (by
        rw [Finset.card_erase_of_mem hw]
        omega)
    exact ⟨u, (Reaches.single trivial hstep).trans hu, hlost⟩

theorem not_covered_of_insert {a : ContainerAction T C} (hok : ¬ WakesEnough s a)
    (hs : s.step a = some t) : ¬ Covered t := by
  cases a with
  | insert c item insertBack =>
    simp only [SimpleContainer.step, Option.ite_none_right_eq_some, Option.some.injEq] at hs
    obtain ⟨hfree, rfl⟩ := hs
    unfold Covered
    rw [beginNotify_card hfree]
    simp only [beginNotify, insertItemUnlocked_length]
    exact hok
  | insertMany c items insertBack =>
    simp only [SimpleContainer.step, Option.ite_none_right_eq_some, Option.some.injEq] at hs
    obtain ⟨hfree, rfl⟩ := hs
    obtain ⟨hne, hless⟩ := not_or.mp hok
    rw [if_neg hne]
    unfold Covered
    rw [beginNotify_card hfree]
    simp only [beginNotify, insertManyUnlocked_length]
    exact hless
  | _ => exact absurd trivial hok

/-- No wakeup is lost where every insertion leaves waiters to be woken that ask for all the
items; an insertion that does not can be followed by the loss of one. -/
theorem no_wakeup_is_lost (T C : Type) [DecidableEq C] :
    (∀ s, (simpleContainer T C).ReachableBy WakesEnough s → NoWakeupLost s) ∧
    (∀ s a t, (simpleContainer T C).step s a = some t → ¬ WakesEnough s a →
      ∃ u, (simpleContainer T C).Reaches Free t u ∧ ¬ NoWakeupLost u) :=
  ⟨fun _ hr => (covered_of_reachable hr).noWakeupLost,
    fun _ _ _ hs hok => lost_of_not_covered (not_covered_of_insert hok hs)⟩

/-! ## One item at a time -/

/-- Every insertion brings one item at most, and a timed `grab` asks for something. -/
def OneByOne (_ : SimpleContainer T C) : ContainerAction T C → Prop
  | .insertMany _ items _ => items.length ≤ 1
  | .grabFor _ count => 0 < count
  | _ => True

def Asking (s : SimpleContainer T C) : Prop :=
  ∀ c, c ∈ s.mCv.waiting ∨ c ∈ s.mCv.woken → 0 < s.count c

theorem Asking.step {a : ContainerAction T C} (h : Asking s) (hok : OneByOne s a)
    (hs : s.step a = some t) : Asking t := by
  cases a with
  | grabFor c count =>
    simp only [SimpleContainer.step, Option.ite_none_right_eq_some, Option.some.injEq] at hs
    obtain ⟨-, rfl⟩ := hs
    split
    · intro d hd
      by_cases hdc : d = c
      · subst hdc
        change 0 < Function.update s.count d count d
        rw [Function.update_self]
        exact hok
      · change 0 < Function.update s.count c count d
        rw [Function.update_of_ne hdc]
        simp only [CondVar.wait, Finset.mem_insert, Finset.mem_erase, hdc, false_or] at hd
        exact h d (hd.imp_right And.right)
    · rename_i hne
      rw [SimpleContainer.grabWaited, if_neg hne]
      exact h
  | resume c | expire c =>
    simp only [SimpleContainer.step, Option.ite_none_right_eq_some, Option.some.injEq] at hs
    obtain ⟨hc, rfl⟩ := hs
    have hleave : ∀ d, d ∈ (s.mCv.leave c).waiting ∨ d ∈ (s.mCv.leave c).woken → 0 < s.count d :=
      fun d hd => h d (hd.imp Finset.mem_of_mem_erase Finset.mem_of_mem_erase)
    have hwait : ∀ d, d ∈ (s.mCv.wait c).waiting ∨ d ∈ (s.mCv.wait c).woken → 0 < s.count d := by
      intro d hd
      by_cases hdc : d = c
      · exact hdc ▸ h c hc
      · simp only [CondVar.wait, Finset.mem_insert, Finset.mem_erase, hdc, false_or] at hd
        exact h d (hd.imp_right And.right)
    simp only [SimpleContainer.grabWaited]
    split <;> first | exact hwait | exact hleave
  | notifyOne c woken | insertNotify c woken =>
    have hnotify : ∀ (x : SimpleContainer T C), x.mCv = s.mCv → x.count = s.count →
        x.notifyOne woken = some t → Asking t := by
      intro x hcv hcount hx
      cases woken with
      | none =>
        simp only [SimpleContainer.notifyOne, Option.ite_none_right_eq_some,
          Option.some.injEq] at hx
        obtain ⟨-, rfl⟩ := hx
        unfold Asking
        rw [hcv, hcount]
        exact h
      | some w =>
        simp only [SimpleContainer.notifyOne, Option.ite_none_right_eq_some,
          Option.some.injEq] at hx
        obtain ⟨hw, rfl⟩ := hx
        intro d hd
        rw [hcv] at hw
        change 0 < x.count d
        rw [hcount]
        simp only [hcv, CondVar.notify, Finset.mem_erase, Finset.mem_insert] at hd
        rcases hd with hd | rfl | hd
        · exact h d (.inl hd.2)
        · exact h d (.inl hw)
        · exact h d (.inr hd)
    simp only [SimpleContainer.step, Option.ite_none_right_eq_some] at hs
    refine hnotify _ ?_ ?_ hs.2 <;> rfl
  | notifyAll c =>
    simp only [SimpleContainer.step, Option.ite_none_right_eq_some, Option.some.injEq] at hs
    obtain ⟨-, rfl⟩ := hs
    intro d hd
    simp only [setReturned, CondVar.notifyAll, Finset.notMem_empty, Finset.mem_union,
      false_or] at hd
    exact h d hd.symm
  | insertMany c items insertBack =>
    simp only [SimpleContainer.step, Option.ite_none_right_eq_some, Option.some.injEq] at hs
    obtain ⟨-, rfl⟩ := hs
    split <;> exact h
  | _ =>
    simp only [SimpleContainer.step, Option.ite_none_right_eq_some, Option.some.injEq] at hs
    obtain ⟨-, rfl⟩ := hs
    exact h

theorem wakesEnough_of_oneByOne {a : ContainerAction T C} (h : Covered s) (hasking : Asking s)
    (hok : OneByOne s a) : WakesEnough s a := by
  have hone := CondVar.Covers.add_one h fun c hc => hasking c (.inl hc)
  cases a with
  | insert c item insertBack => exact hone
  | insertMany c items insertBack =>
    match items, hok with
    | [], _ => exact .inl rfl
    | [item], _ => exact .inr hone
  | _ => trivial

/-- Inserted one by one, items wake as many threads as there are to take them. -/
theorem no_wakeup_lost_one_by_one (hr : (simpleContainer T C).ReachableBy OneByOne s) :
    NoWakeupLost s := by
  have hboth : Covered s ∧ Asking s := by
    refine ReachableBy.invariant (P := fun s => Covered s ∧ Asking s) ?_
      (fun s a t _ hx hok hs => ?_) hr
    · exact ⟨covered_init, fun c hc => by rcases hc with hc | hc <;> cases hc⟩
    · exact ⟨hx.1.step (wakesEnough_of_oneByOne hx.1 hx.2 hok) hs, hx.2.step hok hs⟩
  exact hboth.1.noWakeupLost

def blockedSchedule : List (ContainerAction Nat (Fin 3)) :=
  [.grabFor 0 1, .grabFor 1 1]

/-- Two items are inserted one after the other; the first notification has come. -/
def singleSchedule : List (ContainerAction Nat (Fin 3)) :=
  [.insert 2 7 true, .insertNotify 2 (some 0)]

theorem no_wakeup_is_lost_single :
    let S := simpleContainer Nat (Fin 3)
    NoWakeupLost (S.after WakesEnough S.init (blockedSchedule ++ singleSchedule)) := by
  intro S
  exact (no_wakeup_is_lost Nat (Fin 3)).1 _ (reaches_after (by decide))

/-- A batch of two notifies once; the thread that resumes takes one item. -/
def batchSchedule : List (ContainerAction Nat (Fin 3)) :=
  [.insertMany 2 [7, 8] true, .insertNotify 2 (some 0), .resume 0]

theorem batch_leaves_waiter_asleep :
    ¬ ∀ s, (simpleContainer Nat (Fin 3)).Reachable s → NoWakeupLost s := by
  intro hclaim
  let S := simpleContainer Nat (Fin 3)
  let s := S.after Free S.init (blockedSchedule ++ batchSchedule)
  have hlost : s.notifying = ∅ ∧ s.mItems = [8] ∧ s.mCv.woken = ∅ ∧ s.mCv.blocked = {1} := by
    decide
  rcases hclaim s (reaches_after (by decide)) hlost.1 (by simp [hlost.2.1]) with hnone | ⟨c, hc, -⟩
  · rw [hlost.2.2.2] at hnone
    exact absurd hnone (by decide)
  · rw [hlost.2.2.1] at hc
    cases hc

end SimpleContainer

end ThreadComponent
