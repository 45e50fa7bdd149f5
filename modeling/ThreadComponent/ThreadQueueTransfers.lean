import ThreadComponent.History
import ThreadComponent.ThreadQueueSafety

/-!
# Elements between cThreadQueue_V2 objects

Any number of queues with moves between them, with exceptions of the element operations and with
the calls that throw elements away. A queue takes in what it is given, by a call or from another
queue, and gives out what its calls return and what is moved out of it. It never gives out an
element twice, one that it has not taken in, or one before an older one.
-/

set_option autoImplicit false
set_option linter.unusedSectionVars false

namespace ThreadComponent

open Transitions Transitions.System

/-- The elements that a call puts into the queue, or instead of those in it. -/
def QueueOp.offered {T : Type} : QueueOp T → List T
  | .assign queue => queue
  | op => op.given

namespace ThreadQueue
variable {T : Type} {x : ThreadQueue T}

/-- With a fault a call loses elements, but it keeps the order of the others. -/
theorem moveFront_sublist (absent : QueueResult T) (f : Fault) (habsent : absent.elements = []) :
    ((x.moveFront absent f).2.elements ++ (x.moveFront absent f).1.mQueue).Sublist x.mQueue := by
  unfold moveFront tryGetFront
  cases hq : x.mQueue with
  | nil => simp [habsent, hq]
  | cons element queue =>
    cases hfirst : f.next with
    | none => simp [QueueResult.elements, hq]
    | some f₁ =>
      cases hsecond : f₁.next with
      | none => simp [QueueResult.elements, hsecond]
      | some f₂ =>
        cases hthird : f₂.next with
        | none => simp [QueueResult.elements, hsecond, hthird]
        | some f₃ => simp [QueueResult.elements, hsecond, hthird]

theorem tryGetFront_sublist (f : Fault) :
    ((x.locked f .tryGetFront).2.elements ++ (x.locked f .tryGetFront).1.mQueue).Sublist
      x.mQueue := by
  unfold locked tryGetFront
  cases hq : x.mQueue with
  | nil => simp [QueueResult.elements, hq]
  | cons element queue =>
    cases hfirst : f.next with
    | none => simp [QueueResult.elements, hq]
    | some f₁ =>
      cases hsecond : f₁.next with
      | none => simp [QueueResult.elements, hsecond]
      | some f₂ => simp [QueueResult.elements, hsecond]

theorem push_sublist (element : T) (f : Fault) :
    ((x.push element f).2.elements ++ (x.push element f).1.mQueue).Sublist
      (x.mQueue ++ [element]) := by
  unfold push
  cases f.next with
  | none => exact List.sublist_append_left _ _
  | some => exact List.Sublist.refl _

theorem pushAll_sublist (elements : List T) (f : Fault) :
    ((x.pushAll elements f).2.elements ++ (x.pushAll elements f).1.mQueue).Sublist
      (x.mQueue ++ elements) := by
  cases f with
  | none =>
    rw [pushAll_none]
    exact List.Sublist.refl _
  | some n =>
    rw [pushAll_some]
    split
    · exact List.Sublist.refl _
    · exact (List.take_sublist n elements).append_left x.mQueue

theorem getFrontCount_sublist (elementCount : Nat) (f : Fault) :
    ((x.getFrontCount elementCount f).2.elements ++
      (x.getFrontCount elementCount f).1.mQueue).Sublist x.mQueue := by
  have hall : (x.mQueue.take elementCount ++ x.mQueue.drop elementCount).Sublist x.mQueue :=
    (List.take_append_drop elementCount x.mQueue).symm ▸ List.Sublist.refl _
  cases f with
  | none =>
    rw [getFrontCount_none]
    exact hall
  | some n =>
    rw [getFrontCount_some]
    split
    · exact hall
    · exact List.drop_sublist n x.mQueue

theorem locked_sublist (f : Fault) (op : QueueOp T) :
    ((x.locked f op).2.elements ++ (x.locked f op).1.mQueue).Sublist
      (x.mQueue ++ op.offered) := by
  cases op with
  | clear => exact List.nil_sublist _
  | push element => exact push_sublist element f
  | emplace element => exact push_sublist element f
  | pushAll elements => exact pushAll_sublist elements f
  | assign queue => exact List.sublist_append_right x.mQueue queue
  | tryGetFront => exact (tryGetFront_sublist f).trans (List.sublist_append_left _ _)
  | tryGetFrontInto =>
    exact (moveFront_sublist (.front none) f rfl).trans (List.sublist_append_left _ _)
  | getFront => exact (moveFront_sublist .underflow f rfl).trans (List.sublist_append_left _ _)
  | getFrontCount elementCount =>
    exact (getFrontCount_sublist elementCount f).trans (List.sublist_append_left _ _)
  | getAll => simp [locked, getAll, QueueResult.elements, QueueOp.offered, QueueOp.given]

theorem unlocked_elements {op : QueueOp T} {result : QueueResult T}
    (h : op.unlocked = some result) : result.elements = [] ∧ op.offered = [] := by
  unfold QueueOp.unlocked at h
  split at h
  · cases h
    exact ⟨rfl, rfl⟩
  · cases h
    exact ⟨rfl, rfl⟩
  · cases h

/-- What a call hands out and leaves, in the order of what it found and was given. -/
theorem call_sublist (f : Fault) (op : QueueOp T) :
    ((x.call f op).2.elements ++ (x.call f op).1.mQueue).Sublist (x.mQueue ++ op.offered) := by
  unfold call
  split
  · rename_i result h
    obtain ⟨hresult, hoffered⟩ := unlocked_elements h
    rw [hresult, hoffered, List.append_nil]
    exact List.Sublist.refl _
  · exact locked_sublist f op

theorem call_append {op : QueueOp T} (hop : op.transfers = true) :
    (x.call none op).2.elements ++ (x.call none op).1.mQueue = x.mQueue ++ op.offered := by
  have hoffered : op.offered = op.given := by
    cases op with
    | assign => cases hop
    | _ => rfl
  unfold call
  split
  · rename_i result h
    obtain ⟨hresult, hnone⟩ := unlocked_elements h
    rw [hresult, hnone, List.append_nil, List.nil_append]
  · rw [hoffered]
    exact (locked_fifo hop).symm

end ThreadQueue

/-! ## The run -/

namespace Queues
variable {Q T : Type} [DecidableEq Q]

/-- What has gone in and out of one queue. -/
structure Passage (T : Type) where
  takenIn : List T := []
  givenOut : List T := []
  deriving DecidableEq

def Passage.add (p : Passage T) (takenIn givenOut : List T) : Passage T :=
  ⟨p.takenIn ++ takenIn, p.givenOut ++ givenOut⟩

/-- A move gives out the content of a queue to another one. -/
def notePassage (s : Q → ThreadQueue T) (a : QueuesAction Q T) (h : Q → Passage T) :
    Q → Passage T :=
  match a with
  | .call q op fault =>
    Function.update h q ((h q).add op.offered ((s q).call fault op).2.elements)
  | .moveConstruct q other =>
    -- a new object starts with a new record
    Function.update (Function.update h q ⟨(s other).mQueue, []⟩) other
      ((h other).add [] (s other).mQueue)
  | .moveAssign q other =>
    if q = other then h
    else Function.update (Function.update h q ((h q).add (s other).mQueue [])) other
      ((h other).add [] (s other).mQueue)

def passages (Q T : Type) [DecidableEq Q] :
    System ((Q → ThreadQueue T) × (Q → Passage T)) (QueuesAction Q T) :=
  (queuesSystem Q T).withHistory (fun _ => {}) notePassage

/-- Nothing is thrown and nothing thrown away: a queue that is assigned to is empty. -/
def Lossless (s : Q → ThreadQueue T) : QueuesAction Q T → Prop
  | .call _ op fault => fault = none ∧ op.transfers = true
  | .moveConstruct _ _ => True
  | .moveAssign q other => q = other ∨ (s q).mQueue = []

instance [DecidableEq T] (s : Q → ThreadQueue T) (a : QueuesAction Q T) :
    Decidable (Lossless s a) := by
  induction a using QueuesAction.casesOn <;> (unfold Lossless; infer_instance)

/-- A relation that survives what stands before and behind. -/
structure Orderly (R : List T → List T → Prop) : Prop where
  refl : ∀ l, R l l
  trans : ∀ {l m n}, R l m → R m n → R l n
  append_left : ∀ {l m} k, R l m → R (k ++ l) (k ++ m)
  append_right : ∀ {l m} k, R l m → R (l ++ k) (m ++ k)

theorem orderly_sublist : Orderly (T := T) List.Sublist where
  refl := List.Sublist.refl
  trans h₁ h₂ := h₁.trans h₂
  append_left k h := h.append_left k
  append_right k h := h.append_right k

theorem orderly_eq : Orderly (T := T) Eq where
  refl _ := rfl
  trans h₁ h₂ := h₁.trans h₂
  append_left k h := congrArg (k ++ ·) h
  append_right k h := congrArg (· ++ k) h

/-- In every queue, what has gone out with what is still there relates to what has gone in. -/
def Kept (R : List T → List T → Prop) (s : Q → ThreadQueue T) (h : Q → Passage T) : Prop :=
  ∀ q, R ((h q).givenOut ++ (s q).mQueue) (h q).takenIn

section Kept
variable {R : List T → List T → Prop} {s t : Q → ThreadQueue T} {h : Q → Passage T}
  {a : QueuesAction Q T} {q : Q} {y : ThreadQueue T} {p : Passage T}

theorem Kept.update (hk : Kept R s h) (hq : R (p.givenOut ++ y.mQueue) p.takenIn) :
    Kept R (Function.update s q y) (Function.update h q p) := by
  intro q'
  by_cases hq' : q' = q
  · subst hq'
    rwa [Function.update_self, Function.update_self]
  · rw [Function.update_of_ne hq', Function.update_of_ne hq']
    exact hk q'

/-- The record of a queue that has given out `out` and taken in `inn`. -/
theorem Kept.add (hk : Kept R s h) (hR : Orderly R) {out inn : List T}
    (hstep : R (out ++ y.mQueue) ((s q).mQueue ++ inn)) :
    R (((h q).add inn out).givenOut ++ y.mQueue) ((h q).add inn out).takenIn := by
  have hbefore : R ((h q).givenOut ++ ((s q).mQueue ++ inn)) ((h q).takenIn ++ inn) := by
    rw [← List.append_assoc]
    exact hR.append_right inn (hk q)
  have hbehind : R ((h q).givenOut ++ (out ++ y.mQueue))
      ((h q).givenOut ++ ((s q).mQueue ++ inn)) := hR.append_left _ hstep
  rw [← List.append_assoc] at hbehind
  exact hR.trans hbehind hbefore

/-- A queue that another one is moved from gives out its content. -/
theorem Kept.movedFrom (hk : Kept R s h) (hR : Orderly R) :
    R (((h q).add [] (s q).mQueue).givenOut ++ ({} : ThreadQueue T).mQueue)
      ((h q).add [] (s q).mQueue).takenIn :=
  hk.add hR (hR.refl _)

theorem Kept.step (hk : Kept R s h) (hR : Orderly R)
    (hcall : ∀ q op fault, a = .call q op fault → R (((s q).call fault op).2.elements ++
      ((s q).call fault op).1.mQueue) ((s q).mQueue ++ op.offered))
    (hassign : ∀ q other, a = .moveAssign q other → q ≠ other →
      R (s other).mQueue ((s q).mQueue ++ (s other).mQueue))
    (hs : Queues.step s a = some t) : Kept R t (notePassage s a h) := by
  cases a with
  | call q op fault =>
    obtain rfl := Option.some.inj hs
    exact hk.update (hk.add hR (hcall q op fault rfl))
  | moveConstruct q other =>
    simp only [Queues.step, Option.ite_none_left_eq_some, Option.some.injEq] at hs
    obtain ⟨-, rfl⟩ := hs
    exact (hk.update (hR.refl _)).update (hk.movedFrom hR)
  | moveAssign q other =>
    simp only [Queues.step] at hs
    by_cases hsame : q = other
    · rw [if_pos hsame] at hs
      obtain rfl := Option.some.inj hs
      simpa [notePassage, hsame] using hk
    · rw [if_neg hsame] at hs
      obtain rfl := Option.some.inj hs
      simp only [notePassage, if_neg hsame]
      have hassigned : R ([] ++ ((s q).moveFrom (s other)).1.mQueue)
          ((s q).mQueue ++ (s other).mQueue) := hassign q other rfl hsame
      exact (hk.update (hk.add hR hassigned)).update (hk.movedFrom hR)

end Kept

variable {x : (Q → ThreadQueue T) × (Q → Passage T)}

theorem kept_of_reachable (hr : (passages Q T).Reachable x) : Kept List.Sublist x.1 x.2 := by
  have hinit : Kept List.Sublist (queuesSystem Q T).init fun _ => {} :=
    fun _ => List.Sublist.refl _
  refine Reachable.related hinit (fun s a t h _ hk hs => ?_) hr
  refine hk.step orderly_sublist (fun q op fault _ => ?_) (fun q other _ _ => ?_) hs
  · exact ThreadQueue.call_sublist fault op
  · exact List.sublist_append_right _ _

/-- In every queue of every run, what has gone out and what is still there stand in the order in
which they went in. Nothing is missing where nothing throws and nothing is thrown away. -/
theorem elements_keep_order :
    (∀ x, (passages Q T).Reachable x → ∀ q,
      ((x.2 q).givenOut ++ (x.1 q).mQueue).Sublist (x.2 q).takenIn) ∧
    ∀ x, (passages Q T).ReachableBy (Present Lossless) x → ∀ q,
      (x.2 q).givenOut ++ (x.1 q).mQueue = (x.2 q).takenIn := by
  refine ⟨fun x hr => kept_of_reachable hr, fun x hr => ?_⟩
  have hinit : Kept Eq (queuesSystem Q T).init fun _ => {} := fun _ => rfl
  refine ReachableBy.related (R := Kept Eq) hinit (fun s a t h _ hk hok hs => ?_) hr
  refine hk.step orderly_eq (fun q op fault ha => ?_) (fun q other ha hne => ?_) hs
  · subst ha
    obtain ⟨rfl, hop⟩ := hok
    exact ThreadQueue.call_append hop
  · subst ha
    rw [hok.resolve_left hne, List.nil_append]

/-- A batch push that fails at its third element, a batch that is taken, and a move. -/
theorem elements_keep_order_moved :
    let x := (passages Nat Nat).after Free (passages Nat Nat).init
      [.call 0 (.pushAll [1, 2, 3]) (some 2), .call 0 (.push 4) none,
        .call 0 (.getFrontCount 1) none, .moveAssign 1 0, .call 1 .tryGetFront (some 1)]
    x.2 0 = ⟨[1, 2, 3, 4], [1, 2, 4]⟩ ∧ (x.1 1).mQueue = [4] ∧
      ((x.2 1).givenOut ++ (x.1 1).mQueue).Sublist (x.2 1).takenIn := by
  intro x
  exact ⟨by decide, by decide, elements_keep_order.1 x (reaches_after (by decide)) 1⟩

end Queues

end ThreadComponent
