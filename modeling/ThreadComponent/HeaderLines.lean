import ThreadComponent.HeaderText

/-!
# The header of a message, line by line

A reader of a header takes line by line, each with its end, and stops behind the empty one.
-/

set_option autoImplicit false

namespace HeaderText

section Trim
variable {α : Type} {p q : α → Bool} {xs : List α}

/-- A text that is trimmed of more is trimmed of less. -/
theorem trim_eq_self_of_trim (h : ∀ x, p x = true → q x = true) (htrim : trim q xs = xs) :
    trim p xs = xs := by
  have hp : ∀ {x}, q x = false → p x = false := by
    intro x hx
    cases hpx : p x with
    | false => rfl
    | true =>
      rw [h x hpx] at hx
      cases hx
  have hshort : (trim q xs).length ≤ (xs.dropWhile q).length :=
    (List.rdropWhile_prefix q _).length_le
  have hdrop : xs.dropWhile q = xs := by
    refine (List.dropWhile_suffix q).eq_of_length_le ?_
    rw [htrim] at hshort
    exact hshort
  have hrdrop : xs.rdropWhile q = xs := by
    rw [trim, hdrop] at htrim
    exact htrim
  have hfront : xs.dropWhile p = xs := by
    refine dropWhile_eq_self fun x hx => hp ?_
    have hnot := List.head?_dropWhile_not q xs
    rw [hdrop, hx] at hnot
    simpa using hnot
  rw [trim, hfront, List.rdropWhile_eq_self_iff]
  intro hne
  have hlast := List.rdropWhile_eq_self_iff.mp hrdrop hne
  rw [Bool.not_eq_true] at hlast
  rw [Bool.not_eq_true]
  exact hp hlast

end Trim

def isEmptyLine (line : List Char) : Bool := line = ['\r', '\n'] || line = ['\n']

/-- The lines up to the empty one, and what comes behind it; `line` is what has been read of the
first one. -/
def takeHeader (line : List Char) : List Char → Option (List (List Char) × List Char)
  | [] => none
  | c :: text =>
    if c = '\n' then
      if isEmptyLine (line ++ [c]) then some ([line ++ [c]], text)
      else (takeHeader [] text).map fun p => ((line ++ [c]) :: p.1, p.2)
    else takeHeader (line ++ [c]) text

/-- A line of a header: it has one end, and something in front of it. -/
structure IsHeaderLine (line : List Char) : Prop where
  ends : ∃ text, line = text ++ ['\n'] ∧ '\n' ∉ text
  nonempty : isEmptyLine line = false

variable {line text : List Char} {lines : List (List Char)}

theorem takeHeader_text (h : '\n' ∉ text) (line rest : List Char) :
    takeHeader line (text ++ rest) = takeHeader (line ++ text) rest := by
  induction text generalizing line with
  | nil => rw [List.nil_append, List.append_nil]
  | cons c text ih =>
    rw [List.mem_cons, not_or] at h
    rw [List.cons_append, takeHeader, if_neg (Ne.symm h.1), ih h.2, List.append_assoc,
      List.singleton_append]

theorem takeHeader_line (h : IsHeaderLine line) (rest : List Char) :
    takeHeader [] (line ++ rest) = (takeHeader [] rest).map fun p => (line :: p.1, p.2) := by
  obtain ⟨⟨text, rfl, htext⟩, hnonempty⟩ := h
  rw [List.append_assoc, takeHeader_text htext, List.nil_append, List.singleton_append, takeHeader,
    if_pos rfl, if_neg (by rw [hnonempty]; exact Bool.false_ne_true)]

theorem takeHeader_emptyLine (h : isEmptyLine line = true) (rest : List Char) :
    takeHeader [] (line ++ rest) = some ([line], rest) := by
  simp only [isEmptyLine, Bool.or_eq_true, decide_eq_true_eq] at h
  rcases h with rfl | rfl
  · rfl
  · rfl

/-- A reader finds the lines of a header, whatever comes behind. -/
theorem takeHeader_lines (h : ∀ line ∈ lines, IsHeaderLine line) {ending : List Char}
    (hending : isEmptyLine ending = true) (rest : List Char) :
    takeHeader [] (lines.flatten ++ (ending ++ rest)) = some (lines ++ [ending], rest) := by
  induction lines with
  | nil => exact takeHeader_emptyLine hending rest
  | cons line lines ih =>
    rw [List.flatten_cons, List.append_assoc, takeHeader_line (h line List.mem_cons_self),
      ih fun l hl => h l (List.mem_cons_of_mem _ hl)]
    rfl

end HeaderText
