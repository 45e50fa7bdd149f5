import Mathlib.Algebra.Order.Group.Multiset
import ThreadComponent.History
import ThreadComponent.SimpleContainerSelect

/-!
# The items of a simple_container_V2

Every item is accounted for, whatever calls the threads make and however their sections and
waits interleave: it is still in the container, or it went out with exactly one call, or a
`clear` has destroyed it, or the exception of a selection function. With insertions at the back
and without selection functions the container is a queue.
-/

set_option autoImplicit false

namespace ThreadComponent

open Transitions Transitions.System

namespace SimpleContainer
variable {T C : Type}

def given : ContainerAction T C → List T
  | .insert _ item _ => [item]
  | .insertMany _ items _ => items
  | _ => []

def cleared (s : SimpleContainer T C) : ContainerAction T C → List T
  | .clear _ => s.mItems
  | _ => []

/-- The items that `returnContainer` holds when the selection function throws. -/
def selectLost (mItems : List T) (count : Nat) (fn : Option (SelectionFn T)) (offset : Nat) :
    List T :=
  match fn, SimpleContainer.grabSelected mItems count fn offset with
  | some fn, (.threw, _) =>
    grabbed (rememberCalls fn) [] (mItems.drop (min offset mItems.length))
  | _, _ => []

def lost (s : SimpleContainer T C) : ContainerAction T C → List T
  | .grabSelected _ count fn offset => selectLost s.mItems count fn offset
  | _ => []

section Hand
variable [DecidableEq C]

/-- What the call of thread `c` has returned, unless it sleeps. -/
def handedTo (t : SimpleContainer T C) (c : C) : List T :=
  if c ∈ t.mCv.waiting then [] else resultItems (t.returned c)

/-- The items that leave with the calls that are over in `t`, behind a step. -/
def handed (t : SimpleContainer T C) : ContainerAction T C → List T
  | .grab c _ | .grabFor c _ | .resume c | .expire c | .grabSelected c _ _ _ => t.handedTo c
  | _ => []

end Hand

/-! ## One step -/

theorem insertItemUnlocked_perm (mItems : List T) (item : T) (insertBack : Bool) :
    (insertItemUnlocked mItems item insertBack).Perm (mItems ++ [item]) := by
  unfold insertItemUnlocked
  split
  · exact List.Perm.refl _
  · exact (List.perm_append_singleton item mItems).symm

theorem insertManyUnlocked_perm (mItems items : List T) (insertBack : Bool) :
    (insertManyUnlocked mItems items insertBack).Perm (mItems ++ items) := by
  unfold insertManyUnlocked
  split
  · exact List.Perm.refl _
  · exact List.perm_append_comm

theorem grabItemsUnlocked_append (mItems : List T) (count : Nat) :
    (grabItemsUnlocked mItems count).1 ++ (grabItemsUnlocked mItems count).2 = mItems :=
  List.take_append_drop _ _

theorem grabSelected_perm (mItems : List T) (count : Nat) (fn : Option (SelectionFn T))
    (offset : Nat) :
    (resultItems (SimpleContainer.grabSelected mItems count fn offset).1 ++
      selectLost mItems count fn offset ++
      (SimpleContainer.grabSelected mItems count fn offset).2).Perm mItems := by
  cases fn with
  | none => exact List.Perm.refl _
  | some fn =>
    by_cases hcount : count = 0
    · subst hcount
      simp [SimpleContainer.grabSelected, selectLost, resultItems]
    · obtain ⟨called, left, hs⟩ := grabWith_scanned mItems (rememberCalls fn) [] offset
        (Nat.pos_of_ne_zero hcount)
      have hperm := perm_of_called hs.called_append_left (passed_append_grabbed hs.answered)
      have hended := hs.ended
      unfold selectLost
      rw [grabSelected_rememberCalls]
      generalize (grabWith mItems count (rememberCalls fn) [] offset).1 = r at hended ⊢
      cases hended with
      | returned => simpa [resultItems] using hperm
      | requeued => simpa [resultItems] using List.perm_append_comm.trans hperm
      | threw hleft hthrow =>
        have hcalls : grabbed (rememberCalls fn) [] (mItems.drop (min offset mItems.length)) =
            grabbed (rememberCalls fn) [] called := by
          unfold grabbed
          rw [hs.called_append_left, hleft, answers_of_throw hs.answered hthrow]
        simpa [resultItems, hcalls] using hperm

/-- Neither a `clear` nor a call with a selection function. -/
def Plain : ContainerAction T C → Prop
  | .clear _ | .grabSelected .. => False
  | _ => True

def placed (mItems : List T) : ContainerAction T C → List T
  | .insert _ item insertBack => insertItemUnlocked mItems item insertBack
  | .insertMany _ items insertBack => insertManyUnlocked mItems items insertBack
  | _ => mItems

theorem placed_perm (mItems : List T) (a : ContainerAction T C) :
    (placed mItems a).Perm (mItems ++ given a) := by
  unfold placed given
  split
  · exact insertItemUnlocked_perm ..
  · exact insertManyUnlocked_perm ..
  · rw [List.append_nil]

theorem cleared_of_plain {s : SimpleContainer T C} {a : ContainerAction T C}
    (hplain : Plain a) : cleared s a = [] := by
  cases a with
  | clear => exact hplain.elim
  | _ => rfl

theorem lost_of_plain {s : SimpleContainer T C} {a : ContainerAction T C}
    (hplain : Plain a) : lost s a = [] := by
  cases a with
  | grabSelected => exact hplain.elim
  | _ => rfl

section Step
variable [DecidableEq C] {s t : SimpleContainer T C} {a : ContainerAction T C} {c : C}

theorem notifyOne_mItems {woken : Option C} (h : s.notifyOne woken = some t) :
    t.mItems = s.mItems := by
  cases woken with
  | some w =>
    simp only [SimpleContainer.notifyOne] at h
    split at h
    · cases h
      rfl
    · cases h
  | none =>
    simp only [SimpleContainer.notifyOne] at h
    split at h
    · cases h
      rfl
    · cases h

theorem handedTo_of_mem (h : c ∈ t.mCv.waiting) : t.handedTo c = [] := if_pos h

theorem handedTo_of_notMem (h : c ∉ t.mCv.waiting) :
    t.handedTo c = resultItems (t.returned c) := if_neg h

theorem notMem_waiting_of_free (h : s.free c = true) : c ∉ s.mCv.waiting := by
  simp only [free, decide_eq_true_eq] at h
  exact h.2.1

theorem leave_handedTo (r : Returned T) (mItems : List T) (h : c ∉ s.mCv.waiting) :
    (s.leave c r mItems).handedTo c = resultItems r := by
  have hawake : c ∉ (s.leave c r mItems).mCv.waiting := h
  rw [handedTo_of_notMem hawake]
  simp [leave, setReturned]

theorem leave_mItems (r : Returned T) (mItems : List T) : (s.leave c r mItems).mItems = mItems :=
  rfl

theorem setReturned_mItems (r : Returned T) : (s.setReturned c r).mItems = s.mItems := rfl

theorem grabWaited_append (count : Nat) (h : c ∉ s.mCv.waiting) :
    (s.grabWaited c count).handedTo c ++ (s.grabWaited c count).mItems = s.mItems := by
  unfold grabWaited
  split
  · have hreturned : s.setReturned c (.items []) = s.leave c (.items []) s.mItems := rfl
    rw [hreturned, leave_handedTo _ _ h]
    rfl
  · rw [leave_handedTo _ _ h]
    exact grabItemsUnlocked_append s.mItems count

/-- A plain step takes from the front, behind what it has put in. -/
theorem step_placed (hplain : Plain a) (h : s.step a = some t) :
    handed t a ++ t.mItems = placed s.mItems a := by
  cases a with
  | clear => exact hplain.elim
  | grabSelected => exact hplain.elim
  | insert c item insertBack =>
    simp only [SimpleContainer.step, Option.ite_none_right_eq_some, Option.some.injEq] at h
    obtain ⟨-, rfl⟩ := h
    rfl
  | insertMany c items insertBack =>
    simp only [SimpleContainer.step, Option.ite_none_right_eq_some, Option.some.injEq] at h
    obtain ⟨-, rfl⟩ := h
    split
    · rename_i hempty
      cases insertBack <;>
        simp [handed, placed, insertManyUnlocked, setReturned_mItems, hempty]
    · rfl
  | insertNotify c woken =>
    simp only [SimpleContainer.step, Option.ite_none_right_eq_some] at h
    exact (notifyOne_mItems h.2).trans (setReturned_mItems _)
  | grab c count =>
    simp only [SimpleContainer.step, Option.ite_none_right_eq_some, Option.some.injEq] at h
    obtain ⟨hfree, rfl⟩ := h
    rw [handed, leave_handedTo _ _ (notMem_waiting_of_free hfree)]
    exact grabItemsUnlocked_append s.mItems count
  | grabFor c count =>
    simp only [SimpleContainer.step, Option.ite_none_right_eq_some, Option.some.injEq] at h
    obtain ⟨hfree, rfl⟩ := h
    split
    · rw [handed, handedTo_of_mem (Finset.mem_insert_self c _)]
      rfl
    · exact grabWaited_append count (notMem_waiting_of_free hfree)
  | resume c =>
    simp only [SimpleContainer.step, Option.ite_none_right_eq_some, Option.some.injEq] at h
    obtain ⟨-, rfl⟩ := h
    split
    · rw [handed, handedTo_of_mem (Finset.mem_insert_self c _)]
      rfl
    · exact grabWaited_append (s.count c) (Finset.notMem_erase c _)
  | expire c =>
    simp only [SimpleContainer.step, Option.ite_none_right_eq_some, Option.some.injEq] at h
    obtain ⟨-, rfl⟩ := h
    exact grabWaited_append (s.count c) (Finset.notMem_erase c _)
  | notifyOne c woken =>
    simp only [SimpleContainer.step, Option.ite_none_right_eq_some] at h
    exact (notifyOne_mItems h.2).trans (setReturned_mItems _)
  | snapshot | notifyAll | empty | size =>
    simp only [SimpleContainer.step, Option.ite_none_right_eq_some, Option.some.injEq] at h
    obtain ⟨-, rfl⟩ := h
    rfl

/-- A step puts in what it is given and takes out what it hands over or destroys. -/
theorem step_perm (h : s.step a = some t) :
    (handed t a ++ cleared s a ++ lost s a ++ t.mItems).Perm (s.mItems ++ given a) := by
  by_cases hplain : Plain a
  · rw [cleared_of_plain hplain, lost_of_plain hplain, List.append_nil, List.append_nil,
      step_placed hplain h]
    exact placed_perm s.mItems a
  cases a with
  | clear c =>
    simp only [SimpleContainer.step, Option.ite_none_right_eq_some, Option.some.injEq] at h
    obtain ⟨-, rfl⟩ := h
    simp [handed, cleared, lost, given, leave_mItems]
  | grabSelected c count fn offset =>
    simp only [SimpleContainer.step, Option.ite_none_right_eq_some, Option.some.injEq] at h
    obtain ⟨hfree, rfl⟩ := h
    simpa [handed, cleared, lost, given, leave_handedTo _ _ (notMem_waiting_of_free hfree),
      leave_mItems] using grabSelected_perm s.mItems count fn offset
  | _ => exact absurd trivial hplain

end Step

/-! ## The run -/

/-- The items of all calls up to now, in the order of their sections. -/
structure Ledger (T : Type) where
  inserted : List T := []
  handedOut : List T := []
  cleared : List T := []
  lost : List T := []
  deriving DecidableEq

section Run
variable [DecidableEq C]

def Ledger.note (s : SimpleContainer T C) (a : ContainerAction T C) (l : Ledger T) : Ledger T where
  inserted := l.inserted ++ given a
  handedOut := l.handedOut ++ (s.step a).elim [] fun t => handed t a
  cleared := l.cleared ++ SimpleContainer.cleared s a
  lost := l.lost ++ SimpleContainer.lost s a

def itemLedger (T C : Type) [DecidableEq C] :
    System (SimpleContainer T C × Ledger T) (ContainerAction T C) :=
  (simpleContainer T C).withHistory {} Ledger.note

def Ledger.all (l : Ledger T) : List T := l.handedOut ++ l.cleared ++ l.lost

def Accounted (s : SimpleContainer T C) (l : Ledger T) : Prop :=
  (l.all ++ s.mItems).Perm l.inserted

variable {s t : SimpleContainer T C} {a : ContainerAction T C} {l : Ledger T}
  {x : SimpleContainer T C × Ledger T}

theorem Ledger.note_handedOut (h : s.step a = some t) :
    (Ledger.note s a l).handedOut = l.handedOut ++ handed t a := by
  rw [Ledger.note, h]
  rfl

theorem Accounted.step (hl : Accounted s l) (h : s.step a = some t) :
    Accounted t (Ledger.note s a l) := by
  unfold Accounted Ledger.all at hl ⊢
  rw [Ledger.note_handedOut h]
  have hstep := step_perm h
  simp only [Ledger.note, ← Multiset.coe_eq_coe, ← Multiset.coe_add] at hl hstep ⊢
  rw [← hl, add_assoc _ (s.mItems : Multiset T), ← hstep]
  ac_rfl

theorem accounted_of_reachable (hr : (itemLedger T C).Reachable x) : Accounted x.1 x.2 := by
  have hinit : Accounted (simpleContainer T C).init {} := List.Perm.refl _
  exact Reachable.related hinit (fun _ _ _ _ _ hl hs => hl.step hs) hr

/-- No item disappears, none is handed out twice, and none comes out that was not put in. -/
theorem items_are_accounted_for (hr : (itemLedger T C).Reachable x) :
    (x.2.handedOut ++ x.2.cleared ++ x.2.lost ++ x.1.mItems).Perm x.2.inserted :=
  accounted_of_reachable hr

/-- The function takes an item and throws on the next one. -/
def losingSchedule : List (ContainerAction Nat Nat) :=
  [.insertMany 0 [4, 5, 6] true, .insertNotify 0 none, .insert 1 3 false, .grab 2 1,
    .grabSelected 2 9 (some fun seen _ => if seen = [] then some .grab else none) 1, .clear 2]

theorem items_are_accounted_for_losing :
    let x := (itemLedger Nat Nat).after Free (itemLedger Nat Nat).init losingSchedule
    x.2 = ⟨[4, 5, 6, 3], [3], [4, 6], [5]⟩ ∧
      (x.2.handedOut ++ x.2.cleared ++ x.2.lost ++ x.1.mItems).Perm x.2.inserted := by
  intro x
  have hr : (itemLedger Nat Nat).Reachable x := reaches_after (by decide)
  exact ⟨by decide, items_are_accounted_for hr⟩

/-- The container as a queue: what goes in at the back comes out at the front. -/
def AsQueue (_ : SimpleContainer T C) : ContainerAction T C → Prop
  | .insert _ _ insertBack | .insertMany _ _ insertBack => insertBack = true
  | .grabSelected .. => False
  | _ => True

instance (s : SimpleContainer T C) (a : ContainerAction T C) : Decidable (AsQueue s a) := by
  unfold AsQueue
  split <;> infer_instance

def InOrder (s : SimpleContainer T C) (l : Ledger T) : Prop :=
  (l.handedOut ++ s.mItems).Sublist l.inserted ∧ l.lost = []

omit [DecidableEq C] in
theorem placed_of_asQueue (hok : AsQueue s a) : placed s.mItems a = s.mItems ++ given a := by
  cases a with
  | insert c item insertBack =>
    cases hok
    rfl
  | insertMany c items insertBack =>
    cases hok
    rfl
  | _ => exact (List.append_nil _).symm

theorem InOrder.step (hl : InOrder s l) (hok : AsQueue s a) (h : s.step a = some t) :
    InOrder t (Ledger.note s a l) := by
  unfold InOrder at hl ⊢
  rw [Ledger.note_handedOut h]
  by_cases hplain : Plain a
  · have hplaced := (step_placed hplain h).trans (placed_of_asQueue hok)
    simp only [Ledger.note, lost_of_plain hplain, List.append_nil, List.append_assoc, hplaced]
    refine ⟨?_, hl.2⟩
    rw [← List.append_assoc]
    exact hl.1.append_right (given a)
  cases a with
  | clear c =>
    simp only [SimpleContainer.step, Option.ite_none_right_eq_some, Option.some.injEq] at h
    obtain ⟨-, rfl⟩ := h
    have hfront : l.handedOut.Sublist l.inserted := (List.sublist_append_left _ _).trans hl.1
    simpa [Ledger.note, handed, given, SimpleContainer.lost, leave_mItems, hl.2] using hfront
  | grabSelected => exact hok.elim
  | _ => exact absurd trivial hplain

/-- In order, and without gaps where nothing is cleared. -/
theorem queued_items_keep_order (hr : (itemLedger T C).ReachableBy (Present AsQueue) x) :
    (x.2.handedOut ++ x.1.mItems).Sublist x.2.inserted ∧
      (x.2.cleared = [] → x.2.handedOut ++ x.1.mItems = x.2.inserted) := by
  have hinit : InOrder (simpleContainer T C).init {} := ⟨List.Sublist.refl _, rfl⟩
  have hx : InOrder x.1 x.2 := ReachableBy.related hinit
    (fun s a t l _ hl hok hs => InOrder.step (a := a) hl hok hs) hr
  refine ⟨hx.1, fun hcleared => hx.1.eq_of_length ?_⟩
  have hperm := (accounted_of_reachable hr.free).length_eq
  simpa [Ledger.all, hcleared, hx.2] using hperm

/-- A waiter goes to sleep, an insertion wakes it, and it takes the item. -/
def handOverSchedule : List (ContainerAction Nat Nat) :=
  [.grabFor 1 2, .insertMany 0 [4, 5, 6] true, .insertNotify 0 (some 1), .resume 1,
    .insert 2 7 true]

theorem queued_items_keep_order_handOver :
    let x := (itemLedger Nat Nat).after (Present AsQueue) (itemLedger Nat Nat).init
      handOverSchedule
    x.2.handedOut = [4, 5] ∧ x.1.mItems = [6, 7] ∧
      x.2.handedOut ++ x.1.mItems = x.2.inserted := by
  intro x
  have hr : (itemLedger Nat Nat).ReachableBy (Present AsQueue) x := reaches_after (by decide)
  exact ⟨by decide, by decide, (queued_items_keep_order hr).2 (by decide)⟩

end Run

end SimpleContainer

end ThreadComponent
