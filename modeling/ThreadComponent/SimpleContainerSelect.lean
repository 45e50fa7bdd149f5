import Mathlib.Data.List.Perm.Basic
import ThreadComponent.SimpleContainer

/-!
# Grabbing with a selection function

The scan of `grab(count, fn, offset)` with the state that the selection function carries from
call to call, against what the answers of the function ask for. The state shows on which items,
how often and in which order it has been called.
-/

set_option autoImplicit false

namespace ThreadComponent

namespace SimpleContainer
variable {T S : Type}

/-- A selection function with a state; `none` where the call throws. -/
abbrev SelectWith (S T : Type) := S → T → Option (EnmSelect × S)

/-- The loop of the predicate `grab` with the state behind it. -/
def selectLoopWith (count : Nat) (fn : SelectWith S T) (state : S)
    (before returnContainer : List T) : List T → (Returned T × List T) × S
  | [] => ((.items returnContainer, before), state)
  | current :: rest =>
    match fn state current with
    | none => ((.threw, before ++ current :: rest), state)
    | some (.stopAndRequeue, state) =>
      ((.items [], requeueUnlocked (before ++ current :: rest) returnContainer true), state)
    | some (.stop, state) => ((.items returnContainer, before ++ current :: rest), state)
    | some (.grab, state) =>
      if count ≤ (returnContainer ++ [current]).length then
        ((.items (returnContainer ++ [current]), before ++ rest), state)
      else selectLoopWith count fn state before (returnContainer ++ [current]) rest
    | some (.skip, state) =>
      selectLoopWith count fn state (before ++ [current]) returnContainer rest

def grabWith (mItems : List T) (count : Nat) (fn : SelectWith S T) (state : S) (offset : Nat) :
    (Returned T × List T) × S :=
  if count = 0 then ((.items [], mItems), state)
  else
    let (before, rest) := advanceIteratorUnlocked mItems offset
    selectLoopWith count fn state before [] rest

/-- The container knows a selection function by the items that it was called on before. -/
def rememberCalls (fn : SelectionFn T) : SelectWith (List T) T := fun seen item =>
  (fn seen item).map fun answer => (answer, seen ++ [item])

theorem selectLoop_rememberCalls (count : Nat) (fn : SelectionFn T)
    (seen before returnContainer items : List T) :
    selectLoop count fn seen before returnContainer items =
      (selectLoopWith count (rememberCalls fn) seen before returnContainer items).1 := by
  induction items generalizing seen before returnContainer with
  | nil => rfl
  | cons current rest ih =>
    rw [selectLoop, selectLoopWith, rememberCalls]
    cases fn seen current with
    | none => rfl
    | some answer =>
      cases answer with
      | skip => exact ih ..
      | grab =>
        simp only [Option.map_some]
        split
        · rfl
        · exact ih ..
      | stop | stopAndRequeue => rfl

/-- What the step of the container does is the scan with the calls remembered. -/
theorem grabSelected_rememberCalls (mItems : List T) (count : Nat) (fn : SelectionFn T)
    (offset : Nat) :
    grabSelected mItems count (some fn) offset =
      (grabWith mItems count (rememberCalls fn) [] offset).1 := by
  rw [grabSelected, grabWith]
  split
  · rfl
  · exact selectLoop_rememberCalls ..

/-! ## What the answers ask for -/

/-- The items that `fn` answers to with its answers, when it is called on each of a list in
order; an exception ends it. -/
def answers (fn : SelectWith S T) : S → List T → List (T × EnmSelect)
  | _, [] => []
  | state, item :: items =>
    match fn state item with
    | none => []
    | some (answer, state) => (item, answer) :: answers fn state items

def stateAfter (fn : SelectWith S T) : S → List T → S
  | state, [] => state
  | state, item :: items =>
    match fn state item with
    | none => state
    | some (_, state) => stateAfter fn state items

def grabbed (fn : SelectWith S T) (state : S) (items : List T) : List T :=
  ((answers fn state items).filter fun p => p.2 = .grab).map Prod.fst

def passed (fn : SelectWith S T) (state : S) (items : List T) : List T :=
  ((answers fn state items).filter fun p => p.2 ≠ .grab).map Prod.fst

def lastAnswer (fn : SelectWith S T) (state : S) (items : List T) : Option EnmSelect :=
  (answers fn state items).getLast?.map Prod.snd

def Over (count : Nat) (fn : SelectWith S T) (state : S) (items : List T) : Prop :=
  lastAnswer fn state items = some .stop ∨ lastAnswer fn state items = some .stopAndRequeue ∨
    count ≤ (grabbed fn state items).length

section Answers
variable {fn : SelectWith S T} {state state' : S} {item : T} {items : List T}
  {answer : EnmSelect} {count : Nat}

theorem answers_cons (h : fn state item = some (answer, state')) :
    answers fn state (item :: items) = (item, answer) :: answers fn state' items := by
  rw [answers, h]

theorem stateAfter_cons (h : fn state item = some (answer, state')) :
    stateAfter fn state (item :: items) = stateAfter fn state' items := by
  rw [stateAfter, h]

theorem grabbed_cons (h : fn state item = some (answer, state')) :
    grabbed fn state (item :: items) =
      if answer = .grab then item :: grabbed fn state' items else grabbed fn state' items := by
  unfold grabbed
  rw [answers_cons h]
  cases answer <;> simp

theorem passed_cons (h : fn state item = some (answer, state')) :
    passed fn state (item :: items) =
      if answer = .grab then passed fn state' items else item :: passed fn state' items := by
  unfold passed
  rw [answers_cons h]
  cases answer <;> simp

@[simp] theorem grabbed_nil : grabbed fn state [] = [] := rfl

@[simp] theorem passed_nil : passed fn state [] = [] := rfl

theorem grabbed_singleton (h : fn state item = some (answer, state')) :
    grabbed fn state [item] = if answer = .grab then [item] else [] := grabbed_cons h

theorem passed_singleton (h : fn state item = some (answer, state')) :
    passed fn state [item] = if answer = .grab then [] else [item] := passed_cons h

theorem lastAnswer_cons (h : fn state item = some (answer, state')) :
    lastAnswer fn state (item :: items) = some ((lastAnswer fn state' items).getD answer) := by
  unfold lastAnswer
  rw [answers_cons h, List.getLast?_cons]
  cases (answers fn state' items).getLast? <;> rfl

/-- Behind an answer that goes on, and with one item less to take if it was taken. -/
theorem over_cons (count : Nat) (items : List T) (h : fn state item = some (answer, state'))
    (hanswer : answer = .skip ∨ answer = .grab) :
    Over count fn state (item :: items) ↔
      Over (if answer = .grab then count - 1 else count) fn state' items := by
  unfold Over
  rw [lastAnswer_cons h, grabbed_cons h]
  rcases hanswer with rfl | rfl
  · cases lastAnswer fn state' items <;> simp
  · cases lastAnswer fn state' items <;> simp

theorem answers_map_fst_cons (h : fn state item = some (answer, state'))
    (hcalled : (answers fn state' items).map Prod.fst = items) :
    (answers fn state (item :: items)).map Prod.fst = item :: items := by
  rw [answers_cons h, List.map_cons, hcalled]

/-- Nothing is taken that was not called on, and nothing twice. -/
theorem passed_append_grabbed (hcalled : (answers fn state items).map Prod.fst = items) :
    (passed fn state items ++ grabbed fn state items).Perm items := by
  have hperm := List.filter_append_perm (fun p : T × EnmSelect => p.2 = .grab)
    (answers fn state items)
  have hmap := hperm.map Prod.fst
  rw [hcalled, List.map_append] at hmap
  refine List.perm_append_comm.trans ?_
  simpa [grabbed, passed] using hmap

end Answers

/-! ## The scan -/

/-- How a scan of `called ++ left` ends whose calls were those on `called`. -/
inductive Ended (count : Nat) (fn : SelectWith S T) (state : S)
    (before returnContainer called left : List T) : Returned T × List T → Prop where
  | returned (hanswer : lastAnswer fn state called ≠ some .stopAndRequeue)
      (hend : left = [] ∨ Over (count - returnContainer.length) fn state called) :
      Ended count fn state before returnContainer called left
        (.items (returnContainer ++ grabbed fn state called),
          before ++ passed fn state called ++ left)
  | requeued (hanswer : lastAnswer fn state called = some .stopAndRequeue) :
      Ended count fn state before returnContainer called left
        (.items [], before ++ passed fn state called ++ left ++
          (returnContainer ++ grabbed fn state called))
  | threw {item : T} {more : List T} (hleft : left = item :: more)
      (hthrow : fn (stateAfter fn state called) item = none)
      (hend : ¬ Over (count - returnContainer.length) fn state called) :
      Ended count fn state before returnContainer called left
        (.threw, before ++ passed fn state called ++ left)

/-- The calls of a scan, with how it ends. -/
structure Scanned (count : Nat) (fn : SelectWith S T) (state : S)
    (before returnContainer items called left : List T) (r : (Returned T × List T) × S) :
    Prop where
  called_append_left : items = called ++ left
  answered : (answers fn state called).map Prod.fst = called
  final : r.2 = stateAfter fn state called
  first : ∀ p, p <+: called → p ≠ called → ¬ Over (count - returnContainer.length) fn state p
  taken : (grabbed fn state called).length ≤ count - returnContainer.length
  ended : Ended count fn state before returnContainer called left r.1

section Scan
variable {count : Nat} {fn : SelectWith S T} {state state' : S} {item : T}
  {before returnContainer items called left : List T} {answer : EnmSelect}
  {r : (Returned T × List T) × S}

theorem not_over_nil (h : returnContainer.length < count) :
    ¬ Over (count - returnContainer.length) fn state [] := by
  simp [Over, lastAnswer, answers, grabbed]
  omega

theorem Scanned.single {res : Returned T × List T} (h : fn state item = some (answer, state'))
    (hroom : returnContainer.length < count)
    (hended : Ended count fn state before returnContainer [item] left res) :
    Scanned count fn state before returnContainer (item :: left) [item] left (res, state') where
  called_append_left := rfl
  answered := answers_map_fst_cons h rfl
  final := by
    rw [stateAfter_cons h]
    rfl
  first := by
    intro p hp hne
    rcases List.prefix_cons_iff.mp hp with rfl | ⟨p', rfl, hp'⟩
    · exact not_over_nil hroom
    · rw [List.prefix_nil.mp hp'] at hne
      exact absurd rfl hne
  taken := by
    rw [grabbed_singleton h]
    split
    · rw [List.length_singleton]
      omega
    · exact Nat.zero_le _
  ended := hended

theorem Scanned.none_called {res : Returned T × List T}
    (hended : Ended count fn state before returnContainer [] items res) :
    Scanned count fn state before returnContainer items [] items (res, state) where
  called_append_left := rfl
  answered := rfl
  final := rfl
  first _ hp hne := absurd (List.prefix_nil.mp hp) hne
  taken := Nat.zero_le _
  ended := hended

/-- A scan that returns with its first call, as it is told to stop or has taken enough. -/
theorem Scanned.returned (before left : List T)
    (h : fn state item = some (answer, state'))
    (hroom : returnContainer.length < count)
    (hend : answer = .stop ∨ (answer = .grab ∧ count ≤ returnContainer.length + 1)) :
    Scanned count fn state before returnContainer (item :: left) [item] left
      ((.items (returnContainer ++ grabbed fn state [item]),
        before ++ passed fn state [item] ++ left), state') := by
  have hlast : lastAnswer fn state [item] = some answer := lastAnswer_cons h
  have hover : Over (count - returnContainer.length) fn state [item] := by
    rcases hend with rfl | ⟨rfl, hfull⟩
    · exact .inl hlast
    · refine .inr (.inr ?_)
      rw [grabbed_singleton h, if_pos rfl, List.length_singleton]
      omega
  refine Scanned.single h hroom (.returned ?_ (.inr hover))
  rw [hlast]
  rcases hend with rfl | ⟨rfl, -⟩
  · decide
  · decide

theorem lastAnswer_cons_iff (items : List T) (h : fn state item = some (answer, state'))
    (hanswer : answer ≠ .stopAndRequeue) :
    lastAnswer fn state (item :: items) = some .stopAndRequeue ↔
      lastAnswer fn state' items = some .stopAndRequeue := by
  rw [lastAnswer_cons h]
  cases lastAnswer fn state' items <;> simp [hanswer]

/-- The scan behind a call that it goes on from ends as the whole scan does. -/
theorem Ended.goOn {before' returnContainer' : List T} {res : Returned T × List T}
    (h : fn state item = some (answer, state')) (hanswer : answer ≠ .stopAndRequeue)
    (hgrabbed : returnContainer' ++ grabbed fn state' called =
      returnContainer ++ grabbed fn state (item :: called))
    (hpassed : before' ++ passed fn state' called = before ++ passed fn state (item :: called))
    (hover : Over (count - returnContainer.length) fn state (item :: called) ↔
      Over (count - returnContainer'.length) fn state' called)
    (he : Ended count fn state' before' returnContainer' called left res) :
    Ended count fn state before returnContainer (item :: called) left res := by
  have hlast := lastAnswer_cons_iff called h hanswer
  cases he with
  | returned hanswer hend =>
    rw [hgrabbed, hpassed]
    exact .returned (fun hl => hanswer (hlast.mp hl)) (hend.imp_right hover.mpr)
  | requeued hanswer =>
    rw [hgrabbed, hpassed]
    exact .requeued (hlast.mpr hanswer)
  | threw hleft hthrow hend =>
    rw [hpassed]
    exact .threw hleft (by rwa [stateAfter_cons h]) fun ho => hend (hover.mp ho)

theorem Ended.skip {res : Returned T × List T} (h : fn state item = some (.skip, state'))
    (he : Ended count fn state' (before ++ [item]) returnContainer called left res) :
    Ended count fn state before returnContainer (item :: called) left res := by
  refine he.goOn h (by decide) ?_ ?_ (over_cons _ called h (.inl rfl))
  · simp [grabbed_cons h]
  · simp [passed_cons h]

theorem Ended.grab {res : Returned T × List T} (h : fn state item = some (.grab, state'))
    (he : Ended count fn state' before (returnContainer ++ [item]) called left res) :
    Ended count fn state before returnContainer (item :: called) left res := by
  have hroom : count - (returnContainer ++ [item]).length = count - returnContainer.length - 1 := by
    rw [List.length_append, List.length_singleton, Nat.sub_add_eq]
  have hover := over_cons (count - returnContainer.length) called h (.inr rfl)
  rw [if_pos rfl, ← hroom] at hover
  refine he.goOn h (by decide) ?_ ?_ hover
  · simp [grabbed_cons h]
  · simp [passed_cons h]

theorem Scanned.cons {before' returnContainer' : List T}
    (h : fn state item = some (answer, state')) (hanswer : answer = .skip ∨ answer = .grab)
    (hroom : returnContainer.length < count)
    (hlength : returnContainer'.length =
      returnContainer.length + if answer = .grab then 1 else 0)
    (hs : Scanned count fn state' before' returnContainer' items called left r)
    (hended : Ended count fn state before returnContainer (item :: called) left r.1) :
    Scanned count fn state before returnContainer (item :: items) (item :: called) left r where
  called_append_left := by rw [hs.called_append_left, List.cons_append]
  answered := answers_map_fst_cons h hs.answered
  final := by rw [stateAfter_cons h, hs.final]
  first := by
    intro p hp hne
    rcases List.prefix_cons_iff.mp hp with rfl | ⟨p', rfl, hp'⟩
    · exact not_over_nil hroom
    · have hfirst := hs.first p' hp' fun heq => hne (by rw [heq])
      rw [over_cons _ _ h hanswer]
      rw [hlength] at hfirst
      rcases hanswer with rfl | rfl
      · simpa using hfirst
      · simpa [Nat.sub_add_eq] using hfirst
  taken := by
    have htaken := hs.taken
    rw [hlength] at htaken
    rw [grabbed_cons h]
    split
    · rename_i hgrab
      rw [if_pos hgrab] at htaken
      rw [List.length_cons]
      omega
    · rename_i hskip
      rwa [if_neg hskip] at htaken
  ended := hended

theorem selectLoopWith_scanned (count : Nat) (fn : SelectWith S T) (state : S)
    (before returnContainer items : List T) (hroom : returnContainer.length < count) :
    ∃ called left, Scanned count fn state before returnContainer items called left
      (selectLoopWith count fn state before returnContainer items) := by
  induction items generalizing state before returnContainer with
  | nil =>
    have hended : Ended count fn state before returnContainer [] []
        (.items (returnContainer ++ grabbed fn state []), before ++ passed fn state [] ++ []) :=
      .returned (by simp [lastAnswer, answers]) (.inl rfl)
    exact ⟨[], [], Scanned.none_called (by simpa using hended)⟩
  | cons item items ih =>
    rw [selectLoopWith]
    cases hfn : fn state item with
    | none =>
      have hended : Ended count fn state before returnContainer [] (item :: items)
          (.threw, before ++ passed fn state [] ++ item :: items) :=
        .threw rfl hfn (not_over_nil hroom)
      exact ⟨[], item :: items, Scanned.none_called (by simpa using hended)⟩
    | some p =>
      obtain ⟨answer, state'⟩ := p
      cases answer with
      | skip =>
        obtain ⟨called, left, hs⟩ := ih state' (before ++ [item]) returnContainer hroom
        exact ⟨_, _, hs.cons hfn (.inl rfl) hroom rfl (hs.ended.skip hfn)⟩
      | grab =>
        have hlength : (returnContainer ++ [item]).length = returnContainer.length + 1 :=
          List.length_append
        simp only
        split
        · rename_i hfull
          have hs := Scanned.returned before items hfn hroom
            (.inr ⟨rfl, hlength ▸ hfull⟩)
          refine ⟨[item], items, ?_⟩
          simpa [grabbed_singleton hfn, passed_singleton hfn] using hs
        · rename_i hmore
          obtain ⟨called, left, hs⟩ := ih state' before (returnContainer ++ [item])
            (Nat.lt_of_not_le hmore)
          exact ⟨_, _, hs.cons hfn (.inr rfl) hroom hlength (hs.ended.grab hfn)⟩
      | stop =>
        have hs := Scanned.returned before items hfn hroom (.inl rfl)
        refine ⟨[item], items, ?_⟩
        simpa [grabbed_singleton hfn, passed_singleton hfn] using hs
      | stopAndRequeue =>
        refine ⟨[item], items, Scanned.single hfn hroom ?_⟩
        have hlast : lastAnswer fn state [item] = some .stopAndRequeue := lastAnswer_cons hfn
        have hrequeue : requeueUnlocked (before ++ item :: items) returnContainer true =
            before ++ item :: items ++ returnContainer := by
          unfold requeueUnlocked insertManyUnlocked
          split <;> simp_all
        have hended : Ended count fn state before returnContainer [item] items
            (.items [], before ++ passed fn state [item] ++ items ++
              (returnContainer ++ grabbed fn state [item])) := .requeued hlast
        simpa [hrequeue, grabbed_singleton hfn, passed_singleton hfn] using hended

theorem grabWith_scanned (mItems : List T) {count : Nat} (fn : SelectWith S T) (state : S)
    (offset : Nat) (hcount : 0 < count) :
    ∃ called left, Scanned count fn state (mItems.take (min offset mItems.length)) []
      (mItems.drop (min offset mItems.length)) called left
      (grabWith mItems count fn state offset) := by
  rw [grabWith, if_neg (by omega)]
  exact selectLoopWith_scanned count fn state _ [] _ hcount

end Scan

/-! ## A function that does not throw -/

def total (fn : S → T → EnmSelect × S) : SelectWith S T := fun state item => some (fn state item)

/-- The items that a call has returned; one that throws has none. -/
def resultItems : Returned T → List T
  | .items items => items
  | _ => []

theorem grabWith_zero (mItems : List T) (fn : SelectWith S T) (state : S) (offset : Nat) :
    grabWith mItems 0 fn state offset = ((.items [], mItems), state) := if_pos rfl

/-- The items in front of the offset and those that the scan has called on and not. -/
theorem perm_of_called {mItems called left passed taken : List T} {offset : Nat}
    (hcalled : mItems.drop offset = called ++ left) (hperm : (passed ++ taken).Perm called) :
    (taken ++ (mItems.take offset ++ passed ++ left)).Perm mItems := by
  refine (List.perm_append_comm_assoc taken (mItems.take offset ++ passed) left).trans ?_
  conv_rhs => rw [← List.take_append_drop offset mItems, hcalled]
  simpa using (hperm.append_right left).append_left (mItems.take offset)

/-- The scan calls `fn` on the items from `offset` on, in order and once each, until its answer
or the number of items taken ends it. -/
theorem grab_is_reference_scan (mItems : List T) (count offset : Nat)
    (fn : S → T → EnmSelect × S) (state : S) :
    ∃ called left, mItems.drop (min offset mItems.length) = called ++ left ∧
      let r := grabWith mItems count (total fn) state offset
      let taken := grabbed (total fn) state called
      let kept := mItems.take (min offset mItems.length) ++ passed (total fn) state called ++ left
      (r.2 = stateAfter (total fn) state called ∧
        (∀ p, p <+: called → p ≠ called → ¬ Over count (total fn) state p) ∧
        (left = [] ∨ Over count (total fn) state called)) ∧
      (lastAnswer (total fn) state called ≠ some .stopAndRequeue →
        r.1 = (.items taken, kept) ∧ taken.length ≤ count) ∧
      (lastAnswer (total fn) state called = some .stopAndRequeue →
        r.1 = (.items [], kept ++ taken)) ∧
      (resultItems r.1.1 ++ r.1.2).Perm mItems := by
  by_cases hcount : count = 0
  · subst hcount
    refine ⟨[], mItems.drop (min offset mItems.length), rfl, ?_⟩
    rw [grabWith_zero]
    refine ⟨⟨rfl, ?_, .inr (.inr (.inr (Nat.zero_le _)))⟩, fun _ => ⟨?_, Nat.le_refl _⟩, ?_, ?_⟩
    · intro p hp hne
      exact absurd (List.prefix_nil.mp hp) hne
    · simp
    · intro h
      simp [lastAnswer, answers] at h
    · exact List.Perm.refl _
  · obtain ⟨called, left, hs⟩ := grabWith_scanned mItems (total fn) state offset
      (Nat.pos_of_ne_zero hcount)
    have hperm := perm_of_called hs.called_append_left (passed_append_grabbed hs.answered)
    refine ⟨called, left, hs.called_append_left, ?_⟩
    have hended := hs.ended
    generalize hr : grabWith mItems count (total fn) state offset = r at *
    obtain ⟨r, final⟩ := r
    simp only at hended
    refine ⟨⟨hs.final, hs.first, ?_⟩, ?_, ?_, ?_⟩
    · cases hended with
      | returned _ hend => exact hend
      | requeued hlast => exact .inr (.inr (.inl hlast))
      | threw _ hthrow => cases hthrow
    · intro hlast
      cases hended with
      | returned => exact ⟨by simp, hs.taken⟩
      | requeued hlast' => exact absurd hlast' hlast
      | threw _ hthrow => cases hthrow
    · intro hlast
      cases hended with
      | returned hlast' => exact absurd hlast hlast'
      | requeued => simp
      | threw _ hthrow => cases hthrow
    · cases hended with
      | returned => exact hperm
      | requeued => simpa [resultItems] using List.perm_append_comm.trans hperm
      | threw _ hthrow => cases hthrow

/-! ## A function that throws -/

section Throw
variable {fn : SelectWith S T} {state : S} {called more : List T} {item : T}

theorem answers_of_throw (hcalled : (answers fn state called).map Prod.fst = called)
    (hthrow : fn (stateAfter fn state called) item = none) :
    answers fn state (called ++ item :: more) = answers fn state called := by
  induction called generalizing state with
  | nil =>
    rw [stateAfter] at hthrow
    simp [answers, hthrow]
  | cons first called ih =>
    cases hfn : fn state first with
    | none => simp [answers, hfn] at hcalled
    | some p =>
      obtain ⟨answer, state'⟩ := p
      rw [stateAfter_cons hfn] at hthrow
      rw [answers_cons hfn, List.map_cons] at hcalled
      rw [List.cons_append, answers_cons hfn, answers_cons hfn,
        ih (List.cons.inj hcalled).2 hthrow]

theorem grabbed_eq_nil_iff {items : List T} :
    grabbed fn state items = [] ↔ ∀ p ∈ answers fn state items, p.2 ≠ .grab := by
  simp [grabbed]

/-- The selected items of a scan that ends with an exception are lost, so there must be none. -/
theorem throw_keeps_items_iff (mItems : List T) (count offset : Nat) (fn : SelectWith S T)
    (state : S) (hthrew : (grabWith mItems count fn state offset).1.1 = .threw) :
    (grabWith mItems count fn state offset).1.2.Perm mItems ↔
      ∀ p ∈ answers fn state (mItems.drop (min offset mItems.length)), p.2 ≠ .grab := by
  have hcount : count ≠ 0 := by
    rintro rfl
    rw [grabWith_zero] at hthrew
    cases hthrew
  obtain ⟨called, left, hs⟩ := grabWith_scanned mItems fn state offset
    (Nat.pos_of_ne_zero hcount)
  have hended := hs.ended
  generalize grabWith mItems count fn state offset = r at *
  obtain ⟨⟨returned, items⟩, final⟩ := r
  cases hended with
  | returned => cases hthrew
  | requeued => cases hthrew
  | threw hleft hthrow =>
    rw [hs.called_append_left, hleft, answers_of_throw hs.answered hthrow, ← grabbed_eq_nil_iff]
    rw [hleft] at hs
    have hperm := perm_of_called hs.called_append_left (passed_append_grabbed hs.answered)
    constructor
    · intro hkept
      have hlength := hperm.length_eq.trans hkept.length_eq.symm
      simp only [List.length_append] at hlength
      exact List.eq_nil_of_length_eq_zero (by omega)
    · intro hnone
      rwa [hnone] at hperm

end Throw

/-- It skips an item and throws on the next one. -/
theorem throw_keeps_items_iff_skipping :
    (grabWith [1, 2, 3] 5 (fun (_ : Unit) i => if i = 3 then none else some (.skip, ()))
      () 1).1.2.Perm [1, 2, 3] :=
  (throw_keeps_items_iff [1, 2, 3] 5 1
    (fun (_ : Unit) i => if i = 3 then none else some (.skip, ())) () rfl).mpr (by decide)

/-- It takes an item and throws on the next one. -/
theorem throw_loses_taken_items :
    ¬ ∀ (mItems : List Nat) (count offset : Nat) (fn : SelectWith Unit Nat) (state : Unit),
      (grabWith mItems count fn state offset).1.1 = .threw →
        (grabWith mItems count fn state offset).1.2.Perm mItems := by
  intro h
  have hkept := h [1, 2] 5 0 (fun _ i => if i = 2 then none else some (.grab, ())) () rfl
  exact absurd hkept (by decide)

end SimpleContainer

end ThreadComponent
