import ThreadComponent.SimpleContainer

/-!
# The ways of reading simple_container_V2

`grab(count)` and the timed `grab` move a range out of the container and erase it, the predicate
`grab` erases item by item, and `snapshot` copies item by item. For a predicate that always answers
`grab` they take the same items.
-/

set_option autoImplicit false

namespace ThreadComponent

namespace SimpleContainer
variable {T C : Type} {count offset : Nat} {fn : SelectionFn T}
  {seen before returnContainer result items mItems : List T}

def snapshotLoop (count : Nat) (result : List T) : List T → List T
  | [] => result
  | current :: rest =>
    if result.length < count then snapshotLoop count (result ++ [current]) rest else result

theorem snapshotLoop_eq (count : Nat) (result items : List T) :
    snapshotLoop count result items = result ++ items.take (count - result.length) := by
  induction items generalizing result with
  | nil => rw [snapshotLoop, List.take_nil, List.append_nil]
  | cons current rest ih =>
    rw [snapshotLoop]
    split
    · rename_i hroom
      have hone : count - result.length = count - (result ++ [current]).length + 1 := by
        rw [List.length_append, List.length_singleton]
        omega
      rw [ih, hone, List.take_succ_cons, List.append_assoc, List.singleton_append]
    · rename_i hfull
      rw [Nat.sub_eq_zero_of_le (Nat.le_of_not_lt hfull), List.take_zero, List.append_nil]

theorem snapshot_eq_loop (mItems : List T) (count offset : Nat) :
    snapshot mItems count offset =
      snapshotLoop count [] (advanceIteratorUnlocked mItems offset).2 := by
  rw [snapshotLoop_eq, List.nil_append, List.length_nil, Nat.sub_zero, snapshot]

/-! ## A predicate that always answers grab -/

def AlwaysGrabs (fn : SelectionFn T) : Prop := ∀ seen item, fn seen item = some .grab

theorem selectLoop_of_alwaysGrabs (hfn : AlwaysGrabs fn) (hroom : returnContainer.length < count) :
    selectLoop count fn seen before returnContainer items =
      (.items (returnContainer ++ items.take (count - returnContainer.length)),
        before ++ items.drop (count - returnContainer.length)) := by
  induction items generalizing seen returnContainer with
  | nil => rw [selectLoop, List.take_nil, List.drop_nil, List.append_nil, List.append_nil]
  | cons current rest ih =>
    have hlength : (returnContainer ++ [current]).length = returnContainer.length + 1 :=
      List.length_append
    have hone : count - returnContainer.length =
        count - (returnContainer ++ [current]).length + 1 := by omega
    rw [selectLoop, hfn]
    simp only
    rw [hone, List.take_succ_cons, List.drop_succ_cons]
    split
    · rename_i hfull
      rw [Nat.sub_eq_zero_of_le hfull, List.take_zero, List.drop_zero]
    · rename_i hmore
      rw [ih (Nat.lt_of_not_le hmore), List.append_assoc, List.singleton_append]

/-- The items behind the offset, up to `count` of them, and those that are left. -/
theorem grabSelected_of_alwaysGrabs (mItems : List T) (count offset : Nat)
    (hfn : AlwaysGrabs fn) :
    grabSelected mItems count (some fn) offset =
      (.items (snapshot mItems count offset),
        mItems.take (min offset mItems.length) ++
          (mItems.drop (min offset mItems.length)).drop count) := by
  by_cases hcount : count = 0
  · subst hcount
    simp [grabSelected, snapshot]
  · have hroom : ([] : List T).length < count := Nat.pos_of_ne_zero hcount
    rw [grabSelected, if_neg hcount]
    simp only [advanceIteratorUnlocked]
    rw [selectLoop_of_alwaysGrabs hfn hroom, List.nil_append]
    rfl

/-- A range that ends behind the last item is cut there. -/
theorem grabItemsUnlocked_eq (mItems : List T) (count : Nat) :
    grabItemsUnlocked mItems count = (snapshot mItems count 0, mItems.drop count) := by
  have htake : mItems.take (min count mItems.length) = mItems.take count :=
    List.take_eq_take_min.symm
  have hdrop : mItems.drop (min count mItems.length) = mItems.drop count := by
    by_cases hle : count ≤ mItems.length
    · rw [Nat.min_eq_left hle]
    · have hge : mItems.length ≤ count := Nat.le_of_not_le hle
      rw [Nat.min_eq_right hge, List.drop_length, List.drop_eq_nil_of_le hge]
  rw [grabItemsUnlocked, htake, hdrop]
  simp [snapshot, advanceIteratorUnlocked]

/-! ## The calls -/

section Calls
variable [DecidableEq C] {s : SimpleContainer T C} {c : C}

/-- The call does not wait. It has returned `items`, and `left` is in the container. -/
def Returns (s : SimpleContainer T C) (c : C) (a : ContainerAction T C) (items left : List T) :
    Prop :=
  ∃ t, s.step a = some t ∧ t.returned c = .items items ∧ t.mItems = left ∧ t.mCv = s.mCv

theorem snapshot_returns (hfree : s.free c = true) (count offset : Nat) :
    Returns s c (.snapshot c count offset) (SimpleContainer.snapshot s.mItems count offset)
      s.mItems :=
  ⟨_, if_pos hfree, Function.update_self .., rfl, rfl⟩

theorem grabSelected_returns (hfree : s.free c = true) (hfn : AlwaysGrabs fn)
    (count offset : Nat) :
    Returns s c (.grabSelected c count (some fn) offset)
      (SimpleContainer.snapshot s.mItems count offset)
      (s.mItems.take (min offset s.mItems.length) ++
        (s.mItems.drop (min offset s.mItems.length)).drop count) := by
  have hgrab := grabSelected_of_alwaysGrabs s.mItems count offset hfn
  refine ⟨_, if_pos hfree, ?_, ?_, rfl⟩
  · rw [hgrab]
    exact Function.update_self ..
  · rw [hgrab]
    rfl

theorem leave_returns (count : Nat) {a : ContainerAction T C}
    (hstep : s.step a = some (s.leave c (.items (grabItemsUnlocked s.mItems count).1)
      (grabItemsUnlocked s.mItems count).2)) :
    Returns s c a (SimpleContainer.snapshot s.mItems count 0) (s.mItems.drop count) := by
  rw [grabItemsUnlocked_eq] at hstep
  exact ⟨_, hstep, Function.update_self .., rfl, rfl⟩

theorem grab_returns (hfree : s.free c = true) (count : Nat) :
    Returns s c (.grab c count) (SimpleContainer.snapshot s.mItems count 0)
      (s.mItems.drop count) :=
  leave_returns count (if_pos hfree)

/-- The predicate of the wait holds at once. -/
theorem grabFor_returns (hfree : s.free c = true) (hne : s.mItems ≠ []) (count : Nat) :
    Returns s c (.grabFor c count) (SimpleContainer.snapshot s.mItems count 0)
      (s.mItems.drop count) := by
  refine leave_returns count ((if_pos hfree).trans ?_)
  rw [if_neg hne, grabWaited, if_neg hne]

/-- All calls take the items behind the offset, which only the snapshot leaves where they are. -/
theorem readings_agree (hfree : s.free c = true) (hfn : AlwaysGrabs fn) (count offset : Nat) :
    let xs := s.mItems
    let taken := (xs.drop (min offset xs.length)).take count
    (Returns s c (.snapshot c count offset) taken xs ∧
      snapshotLoop count [] (advanceIteratorUnlocked xs offset).2 = taken) ∧
    Returns s c (.grabSelected c count (some fn) offset) taken
      (xs.take (min offset xs.length) ++ (xs.drop (min offset xs.length)).drop count) ∧
    (offset = 0 →
      Returns s c (.grabSelected c count (some fn) 0) taken (xs.drop count) ∧
      Returns s c (.grab c count) taken (xs.drop count) ∧
      (xs ≠ [] → Returns s c (.grabFor c count) taken (xs.drop count))) := by
  intro xs taken
  have htaken : SimpleContainer.snapshot s.mItems count offset = taken := rfl
  have hselected := grabSelected_returns hfree hfn count offset
  rw [htaken] at hselected
  refine ⟨⟨snapshot_returns hfree count offset, (snapshot_eq_loop ..).symm⟩, hselected, ?_⟩
  rintro rfl
  refine ⟨?_, grab_returns hfree count, fun hne => grabFor_returns hfree hne count⟩
  rw [Nat.zero_min, List.take_zero, List.nil_append, List.drop_zero] at hselected
  exact hselected

/-- The second and the third of three items, and the first two. -/
theorem readings_agree_three :
    let s : SimpleContainer String Unit := { mItems := ["alpha", "beta", "gamma"] }
    Returns s () (.snapshot () 2 1) ["beta", "gamma"] ["alpha", "beta", "gamma"] ∧
      Returns s () (.grabSelected () 2 (some fun _ _ => some .grab) 1) ["beta", "gamma"]
        ["alpha"] ∧
      Returns s () (.grabFor () 2) ["alpha", "beta"] ["gamma"] := by
  intro s
  have hfn : AlwaysGrabs (fun _ _ => some .grab : SelectionFn String) := fun _ _ => rfl
  have hagree (offset : Nat) := readings_agree (s := s) (c := ()) (by decide) hfn 2 offset
  exact ⟨(hagree 1).1.1, (hagree 1).2.1, ((hagree 0).2.2 rfl).2.2 (by decide)⟩

end Calls

end SimpleContainer

end ThreadComponent
