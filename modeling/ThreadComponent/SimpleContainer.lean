import ThreadComponent.CondVar
import ThreadComponent.Transitions

/-!
# simple_container_V2

The container is a sequence of items. Every member function has one section of
`m_itemsMutex`, but for the timed `grab`, which goes to sleep in the middle of it and resumes
with the mutex held again, and for `insert`, which notifies behind it. A selection function
may have a state of its own, so it is given the items that it was called on before; it may
also throw. Item operations do not throw, and a wait may end at any time.
-/

set_option autoImplicit false

namespace ThreadComponent

open Transitions

inductive EnmSelect where
  | skip
  | grab
  | stop
  | stopAndRequeue
  deriving DecidableEq, Repr

/-- `none` where the call throws. -/
abbrev SelectionFn (T : Type) := List T → T → Option EnmSelect

/-- How a call ends. -/
inductive Returned (T : Type) where
  | nothing
  | items (items : List T)
  | empty (b : Bool)
  | size (n : Nat)
  | threw
  deriving DecidableEq, Repr

namespace SimpleContainer
variable {T : Type}

def insertItemUnlocked (mItems : List T) (item : T) (insertBack : Bool) : List T :=
  if insertBack then mItems ++ [item] else item :: mItems

def insertManyUnlocked (mItems items : List T) (insertBack : Bool) : List T :=
  if insertBack then mItems ++ items else items ++ mItems

def requeueUnlocked (mItems items : List T) (insertBack : Bool) : List T :=
  if items = [] then mItems else insertManyUnlocked mItems items insertBack

/-- The items taken and the items left. -/
def grabItemsUnlocked (mItems : List T) (count : Nat) : List T × List T :=
  let actualCount := min count mItems.length
  (mItems.take actualCount, mItems.drop actualCount)

/-- The items before the iterator and those from it on. -/
def advanceIteratorUnlocked (mItems : List T) (offset : Nat) : List T × List T :=
  (mItems.take (min offset mItems.length), mItems.drop (min offset mItems.length))

/-- The loop of the predicate `grab` at the head of a list: `before` are the items that stay
in front of it, `seen` those that `fn` was called on. An exception destroys
`returnContainer` with what it holds. -/
def selectLoop (count : Nat) (fn : SelectionFn T) (seen before returnContainer : List T) :
    List T → Returned T × List T
  | [] => (.items returnContainer, before)
  | current :: rest =>
    match fn seen current with
    | none => (.threw, before ++ current :: rest)
    | some .stopAndRequeue =>
      (.items [], requeueUnlocked (before ++ current :: rest) returnContainer true)
    | some .stop => (.items returnContainer, before ++ current :: rest)
    | some .grab =>
      if count ≤ (returnContainer ++ [current]).length then
        (.items (returnContainer ++ [current]), before ++ rest)
      else selectLoop count fn (seen ++ [current]) before (returnContainer ++ [current]) rest
    | some .skip => selectLoop count fn (seen ++ [current]) (before ++ [current]) returnContainer rest

/-- `grab(count, fn, offset)`; an empty `std::function` is `none`. -/
def grabSelected (mItems : List T) (count : Nat) (fn : Option (SelectionFn T)) (offset : Nat) :
    Returned T × List T :=
  match fn with
  | none => (.items [], mItems)
  | some fn =>
    if count = 0 then (.items [], mItems)
    else
      let (before, rest) := advanceIteratorUnlocked mItems offset
      selectLoop count fn [] before [] rest

def snapshot (mItems : List T) (count offset : Nat) : List T :=
  (advanceIteratorUnlocked mItems offset).2.take count

theorem grabItemsUnlocked_length (mItems : List T) (count : Nat) :
    (grabItemsUnlocked mItems count).2.length = mItems.length - count := by
  simp only [grabItemsUnlocked, List.length_drop]
  omega

theorem requeueUnlocked_length (mItems items : List T) (insertBack : Bool) :
    (requeueUnlocked mItems items insertBack).length = mItems.length + items.length := by
  unfold requeueUnlocked insertManyUnlocked
  cases insertBack <;> split <;> simp_all [Nat.add_comm]

/-- The loop adds nothing to the items that it has found or selected. -/
theorem selectLoop_length_le (count : Nat) (fn : SelectionFn T)
    (seen before returnContainer items : List T) :
    (selectLoop count fn seen before returnContainer items).2.length ≤
      before.length + returnContainer.length + items.length := by
  induction items generalizing seen before returnContainer with
  | nil => simp [selectLoop]
  | cons current rest ih =>
    unfold selectLoop
    split
    · simp
    · simp [requeueUnlocked_length]
      omega
    · simp
    · split
      · simp
        omega
      · have hrest := ih (seen ++ [current]) before (returnContainer ++ [current])
        simp only [List.length_append, List.length_cons, List.length_nil] at hrest ⊢
        omega
    · have hrest := ih (seen ++ [current]) (before ++ [current]) returnContainer
      simp only [List.length_append, List.length_cons, List.length_nil] at hrest ⊢
      omega

theorem grabSelected_length_le (mItems : List T) (count : Nat) (fn : Option (SelectionFn T))
    (offset : Nat) : (grabSelected mItems count fn offset).2.length ≤ mItems.length := by
  unfold grabSelected
  split
  · exact Nat.le_refl _
  · split
    · exact Nat.le_refl _
    · refine (selectLoop_length_le _ _ _ _ _ _).trans ?_
      simp only [List.length_take, List.length_drop, List.length_nil]
      omega

end SimpleContainer

structure SimpleContainer (T C : Type) where
  mItems : List T := []
  /-- The threads blocked in a timed `grab`. -/
  mCv : CondVar C := CondVar.init
  /-- The count that a blocked thread asks for. -/
  count : C → Nat := fun _ => 0
  /-- The threads inside `insert`, behind its section. -/
  notifying : Finset C := ∅
  returned : C → Returned T := fun _ => .nothing

/-- `insertMany` is the insertion of a whole container, `grabFor` the timed `grab` and
`grabSelected` the one with a selection function. Who is woken is up to the condition
variable: `none` where nobody is. -/
inductive ContainerAction (T C : Type) where
  | clear (c : C)
  | insert (c : C) (item : T) (insertBack : Bool)
  | insertMany (c : C) (items : List T) (insertBack : Bool)
  | insertNotify (c : C) (woken : Option C)
  | grab (c : C) (count : Nat)
  | grabFor (c : C) (count : Nat)
  | resume (c : C)
  | expire (c : C)
  | grabSelected (c : C) (count : Nat) (fn : Option (SelectionFn T)) (offset : Nat)
  | snapshot (c : C) (count offset : Nat)
  | notifyOne (c : C) (woken : Option C)
  | notifyAll (c : C)
  | empty (c : C)
  | size (c : C)

namespace SimpleContainer
variable {T C : Type} [DecidableEq C]

def free (s : SimpleContainer T C) (c : C) : Bool :=
  c ∉ s.notifying ∧ c ∉ s.mCv.waiting ∧ c ∉ s.mCv.woken

def setReturned (s : SimpleContainer T C) (c : C) (r : Returned T) : SimpleContainer T C :=
  { s with returned := Function.update s.returned c r }

def leave (s : SimpleContainer T C) (c : C) (r : Returned T) (mItems : List T) :
    SimpleContainer T C :=
  { s with mItems := mItems }.setReturned c r

def beginNotify (s : SimpleContainer T C) (c : C) (mItems : List T) : SimpleContainer T C :=
  { s with mItems := mItems, notifying := insert c s.notifying }

/-- `m_cv.notify_one()` wakes a waiter; nobody is woken only where nobody waits. -/
def notifyOne (s : SimpleContainer T C) : Option C → Option (SimpleContainer T C)
  | some w => if w ∈ s.mCv.waiting then some { s with mCv := s.mCv.notify w } else none
  | none => if s.mCv.waiting = ∅ then some s else none

/-- The rest of the timed `grab` when the wait is over. -/
def grabWaited (s : SimpleContainer T C) (c : C) (count : Nat) : SimpleContainer T C :=
  if s.mItems = [] then s.setReturned c (.items [])
  else s.leave c (.items (grabItemsUnlocked s.mItems count).1) (grabItemsUnlocked s.mItems count).2

def step (s : SimpleContainer T C) : ContainerAction T C → Option (SimpleContainer T C)
  | .clear c => if s.free c then some (s.leave c .nothing []) else none
  | .insert c item insertBack =>
    if s.free c then some (s.beginNotify c (insertItemUnlocked s.mItems item insertBack))
    else none
  | .insertMany c items insertBack =>
    if s.free c then
      some (if items = [] then s.setReturned c .nothing
        else s.beginNotify c (insertManyUnlocked s.mItems items insertBack))
    else none
  | .insertNotify c woken =>
    if c ∈ s.notifying then
      ({ s with notifying := s.notifying.erase c }.setReturned c .nothing).notifyOne woken
    else none
  | .grab c count =>
    if s.free c then
      some (s.leave c (.items (grabItemsUnlocked s.mItems count).1)
        (grabItemsUnlocked s.mItems count).2)
    else none
  | .grabFor c count =>
    if s.free c then
      -- the predicate is evaluated before the wait
      some (if s.mItems = [] then
          { s with mCv := s.mCv.wait c, count := Function.update s.count c count }
        else s.grabWaited c count)
    else none
  | .resume c =>
    -- a waiter may also wake up on its own
    if c ∈ s.mCv.waiting ∨ c ∈ s.mCv.woken then
      some (if s.mItems = [] then { s with mCv := s.mCv.wait c }
        else { s with mCv := s.mCv.leave c }.grabWaited c (s.count c))
    else none
  | .expire c =>
    if c ∈ s.mCv.waiting ∨ c ∈ s.mCv.woken then
      some ({ s with mCv := s.mCv.leave c }.grabWaited c (s.count c))
    else none
  | .grabSelected c count fn offset =>
    if s.free c then
      some (s.leave c (SimpleContainer.grabSelected s.mItems count fn offset).1
        (SimpleContainer.grabSelected s.mItems count fn offset).2)
    else none
  | .snapshot c count offset =>
    if s.free c then
      some (s.setReturned c (.items (SimpleContainer.snapshot s.mItems count offset)))
    else none
  | .notifyOne c woken =>
    if s.free c then (s.setReturned c .nothing).notifyOne woken else none
  | .notifyAll c =>
    if s.free c then some ({ s with mCv := s.mCv.notifyAll }.setReturned c .nothing) else none
  | .empty c => if s.free c then some (s.setReturned c (.empty s.mItems.isEmpty)) else none
  | .size c => if s.free c then some (s.setReturned c (.size s.mItems.length)) else none

end SimpleContainer

def simpleContainer (T C : Type) [DecidableEq C] :
    System (SimpleContainer T C) (ContainerAction T C) where
  init := {}
  step := SimpleContainer.step

end ThreadComponent
