import Mathlib.Data.List.Basic

/-!
# Sending all of a buffer

A sender offers what is left of its buffer until all of it is taken. An offer is answered: some
elements of it are taken, or it is to be made again, or the sender gives up. A script is the
sequence of the answers that a sender has had so far.
-/

set_option autoImplicit false

namespace StreamSocket

inductive Answer where
  | took (n : Nat)
  | again
  | failed
  deriving DecidableEq, Repr

/-- How many elements are taken, and whether the sender has given up. -/
structure Sender where
  taken : Nat := 0
  gaveUp : Bool := false
  deriving DecidableEq, Repr

namespace Sender

def receive (x : Sender) : Answer → Sender
  | .took n => { x with taken := x.taken + n }
  | .again => x
  | .failed => { x with gaveUp := true }

def run (x : Sender) (answers : List Answer) : Sender := answers.foldl receive x

/-- The sender of a buffer of `size` elements makes another offer. -/
structure Offers (size : Nat) (x : Sender) : Prop where
  going : x.gaveUp = false
  rest : x.taken < size

/-- What is taken is at least one element and at most what was offered. -/
def Fits (size : Nat) (x : Sender) : Answer → Prop
  | .took n => 0 < n ∧ x.taken + n ≤ size
  | _ => True

/-- Every answer is one to an offer of the sender. -/
def Script (size : Nat) (x : Sender) : List Answer → Prop
  | [] => True
  | answer :: rest => x.Offers size ∧ x.Fits size answer ∧ (x.receive answer).Script size rest

variable {size : Nat} {x : Sender} {answer : Answer} {answers : List Answer}

theorem run_append (x : Sender) (answers : List Answer) (answer : Answer) :
    x.run (answers ++ [answer]) = (x.run answers).receive answer := by
  rw [run, List.foldl_append]
  rfl

theorem Script.append_iff :
    x.Script size (answers ++ [answer]) ↔
      x.Script size answers ∧ (x.run answers).Offers size ∧ (x.run answers).Fits size answer := by
  induction answers generalizing x with
  | nil =>
    constructor
    · intro h
      exact ⟨trivial, h.1, h.2.1⟩
    · intro h
      exact ⟨h.2.1, h.2.2, trivial⟩
  | cons first answers ih =>
    constructor
    · rintro ⟨hoffers, hfits, hrest⟩
      have h := ih.mp hrest
      exact ⟨⟨hoffers, hfits, h.1⟩, h.2⟩
    · rintro ⟨⟨hoffers, hfits, hrest⟩, hlast⟩
      exact ⟨hoffers, hfits, ih.mpr ⟨hrest, hlast⟩⟩

theorem receive_taken_le (hx : x.taken ≤ size) (hfits : x.Fits size answer) :
    (x.receive answer).taken ≤ size := by
  cases answer with
  | took n => exact hfits.2
  | again => exact hx
  | failed => exact hx

theorem Script.run_taken_le (h : x.Script size answers) (hx : x.taken ≤ size) :
    (x.run answers).taken ≤ size := by
  induction answers generalizing x with
  | nil => exact hx
  | cons answer answers ih =>
    obtain ⟨-, hfits, hrest⟩ := h
    exact ih hrest (receive_taken_le hx hfits)

theorem Script.eq_nil (h : x.Script size answers) (hx : x.gaveUp = true) : answers = [] := by
  cases answers with
  | nil => rfl
  | cons answer answers =>
    have hgoing := h.1.going
    rw [hx] at hgoing
    cases hgoing

theorem Script.gaveUp (h : x.Script size answers) (hx : x.gaveUp = false)
    (hgaveUp : (x.run answers).gaveUp = true) : (x.run answers).taken < size := by
  induction answers generalizing x with
  | nil =>
    have hsame : x.gaveUp = true := hgaveUp
    rw [hx] at hsame
    cases hsame
  | cons answer answers ih =>
    obtain ⟨hoffers, -, hrest⟩ := h
    cases answer with
    | took n => exact ih hrest hx hgaveUp
    | again => exact ih hrest hx hgaveUp
    | failed =>
      rw [hrest.eq_nil rfl]
      exact hoffers.rest

theorem not_offers_iff (h : x.taken ≤ size) :
    ¬ x.Offers size ↔ x.gaveUp = true ∨ x.taken = size := by
  constructor
  · intro hnot
    cases hgaveUp : x.gaveUp with
    | true => exact .inl rfl
    | false =>
      refine .inr (Nat.le_antisymm h (Nat.le_of_not_lt fun hlt => ?_))
      exact hnot ⟨hgaveUp, hlt⟩
  · rintro (hgaveUp | hall) hoffers
    · rw [hoffers.going] at hgaveUp
      cases hgaveUp
    · exact absurd hoffers.rest (by omega)

end Sender

end StreamSocket
