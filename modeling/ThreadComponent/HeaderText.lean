import Mathlib.Data.List.DropRight
import Mathlib.Data.List.Infix

/-!
# Header fields as text

Lines, trimming and fields as HTTP/1.1 writes them, on lists of characters that stand for the
bytes of a message. A line ends with CR LF; a reader may also take a LF alone for the end.
-/

set_option autoImplicit false

namespace HeaderText

universe u

/-! ## Cutting and trimming -/

section Cut
variable {α : Type u} [DecidableEq α] {c : α} {xs ys as bs : List α}

/-- What is in front of the first `c`, and what is behind it. -/
def cut (c : α) : List α → Option (List α × List α)
  | [] => none
  | x :: xs => if x = c then some ([], xs) else (cut c xs).map fun p => (x :: p.1, p.2)

theorem cut_append (h : c ∉ xs) (ys : List α) : cut c (xs ++ c :: ys) = some (xs, ys) := by
  induction xs with
  | nil => simp [cut]
  | cons x xs ih =>
    rw [List.mem_cons, not_or] at h
    obtain ⟨hx, hxs⟩ := h
    rw [List.cons_append, cut, if_neg (Ne.symm hx), ih hxs]
    rfl

theorem cut_eq_some (h : cut c xs = some (as, bs)) : xs = as ++ c :: bs ∧ c ∉ as := by
  induction xs generalizing as with
  | nil => cases h
  | cons x xs ih =>
    rw [cut] at h
    split at h
    · rename_i hx
      obtain ⟨rfl, rfl⟩ := Prod.mk.inj (Option.some.inj h)
      exact ⟨by rw [hx, List.nil_append], by simp⟩
    · rename_i hx
      obtain ⟨⟨as', bs'⟩, hcut, heq⟩ := Option.map_eq_some_iff.mp h
      obtain ⟨rfl, rfl⟩ := Prod.mk.inj heq
      obtain ⟨rfl, hnot⟩ := ih hcut
      exact ⟨rfl, by simp [hnot, Ne.symm hx]⟩

theorem cut_eq_none_iff : cut c xs = none ↔ c ∉ xs := by
  constructor
  · intro hcut hmem
    induction xs with
    | nil => cases hmem
    | cons x xs ih =>
      rw [cut] at hcut
      split at hcut
      · cases hcut
      · rename_i hx
        rcases List.mem_cons.mp hmem with rfl | hmem
        · exact hx rfl
        · exact ih (Option.map_eq_none_iff.mp hcut) hmem
  · intro hmem
    cases hcut : cut c xs with
    | none => rfl
    | some p =>
      have hxs := (cut_eq_some hcut).1
      rw [hxs] at hmem
      exact absurd (List.mem_append_right _ List.mem_cons_self) hmem

end Cut

theorem infix_pair_append {α : Type u} {xs ys : List α} {a b c : α} (ha : c ≠ a) (hb : c ≠ b) :
    [a, b] <:+: xs ++ c :: ys ↔ [a, b] <:+: xs ∨ [a, b] <:+: ys := by
  induction xs with
  | nil =>
    have hprefix : ¬ [a, b] <+: c :: ys := fun h => ha (List.cons_prefix_cons.mp h).1.symm
    simp [List.infix_cons_iff, hprefix]
  | cons x xs ih =>
    have hprefix : [a, b] <+: x :: (xs ++ c :: ys) ↔ [a, b] <+: x :: xs := by
      cases xs with
      | nil => simp [List.cons_prefix_cons, Ne.symm hb]
      | cons y xs => simp [List.cons_prefix_cons]
    rw [List.cons_append, List.infix_cons_iff, List.infix_cons_iff, ih, hprefix, or_assoc]

section Trim
variable {α : Type u} {p : α → Bool} {a : α} {xs ys : List α}

/-- Without the elements that meet `p` at both ends. -/
def trim (p : α → Bool) (xs : List α) : List α := (xs.dropWhile p).rdropWhile p

theorem trim_cons (h : p a = true) : trim p (a :: xs) = trim p xs := by
  rw [trim, List.dropWhile_cons_of_pos h, trim]

theorem trim_append (h : ∀ y ∈ ys, p y = true) : trim p (xs ++ ys) = trim p xs := by
  have hdrop : ∀ zs : List α, (zs ++ ys).rdropWhile p = zs.rdropWhile p := by
    intro zs
    have hreverse : ∀ y ∈ ys.reverse, p y = true := fun y hy => h y (List.mem_reverse.mp hy)
    rw [List.rdropWhile, List.reverse_append, List.dropWhile_append_of_pos hreverse,
      List.rdropWhile]
  unfold trim
  rw [List.dropWhile_append]
  split
  · rename_i hempty
    rw [List.isEmpty_iff.mp hempty, List.dropWhile_eq_nil_iff.mpr h]
  · exact hdrop _

theorem dropWhile_eq_self (h : ∀ x ∈ xs.head?, p x = false) : xs.dropWhile p = xs := by
  cases xs with
  | nil => rfl
  | cons x xs => rw [List.dropWhile_cons_of_neg (by simp [h x rfl])]

theorem trim_eq_self (h : ∀ x ∈ xs, p x = false) : trim p xs = xs := by
  rw [trim, dropWhile_eq_self fun x hx => h x (List.mem_of_mem_head? hx)]
  refine List.rdropWhile_eq_self_iff.mpr fun hne => ?_
  simp [h _ (List.getLast_mem hne)]

theorem trim_trim : trim p (trim p xs) = trim p xs := by
  have hhead : ∀ x ∈ (trim p xs).head?, p x = false := by
    intro x hx
    have hprefix : trim p xs <+: xs.dropWhile p := List.rdropWhile_prefix p _
    have hfirst : (xs.dropWhile p).head? = some x := by
      cases hzs : trim p xs with
      | nil =>
        rw [hzs] at hx
        cases hx
      | cons z zs =>
        rw [hzs] at hx hprefix
        obtain ⟨ws, hws⟩ := hprefix
        rw [← hws]
        exact hx
    have hnot := List.head?_dropWhile_not p xs
    rw [hfirst] at hnot
    simpa using hnot
  rw [trim, dropWhile_eq_self hhead]
  exact List.rdropWhile_idempotent p _

theorem trim_infix : trim p xs <:+: xs :=
  (List.rdropWhile_prefix p _).isInfix.trans (List.dropWhile_suffix p).isInfix

end Trim

/-! ## Lines -/

inductive LineEnd where
  | crlf
  | lf
  deriving DecidableEq, Repr

/-- Does a text run over the end of a line? -/
def LineEnd.Breaks (e : LineEnd) (text : List Char) : Prop :=
  match e with
  | .crlf => ['\r', '\n'] <:+: text
  | .lf => '\n' ∈ text

def takeCrlfLine : List Char → Option (List Char × List Char)
  | [] => none
  | c :: text =>
    if c = '\r' ∧ text.head? = some '\n' then some ([], text.tail)
    else (takeCrlfLine text).map fun p => (c :: p.1, p.2)

/-- The first line without its end, and what comes behind it. A CR in front of a LF belongs to
the end of the line. -/
def takeLine : LineEnd → List Char → Option (List Char × List Char)
  | .crlf, text => takeCrlfLine text
  | .lf, text => (cut '\n' text).map fun p =>
      (if p.1.getLast? = some '\r' then p.1.dropLast else p.1, p.2)

section Lines
variable {e : LineEnd} {line text rest xs ys : List Char}

theorem LineEnd.Breaks.mono (h : e.Breaks xs) (hsub : xs <:+: ys) : e.Breaks ys := by
  cases e with
  | crlf => exact List.IsInfix.trans h hsub
  | lf => exact hsub.mem h

theorem not_breaks_of_notMem (h : '\n' ∉ text) : ¬ e.Breaks text := by
  cases e with
  | crlf => exact fun hb => h (List.IsInfix.subset hb (by simp))
  | lf => exact h

theorem breaks_append {c : Char} (hcr : c ≠ '\r') (hlf : c ≠ '\n') :
    e.Breaks (xs ++ c :: ys) ↔ e.Breaks xs ∨ e.Breaks ys := by
  cases e with
  | crlf => exact infix_pair_append hcr hlf
  | lf => simp [LineEnd.Breaks, Ne.symm hlf]

theorem takeCrlfLine_append (h : ¬ LineEnd.crlf.Breaks line) (rest : List Char) :
    takeCrlfLine (line ++ '\r' :: '\n' :: rest) = some (line, rest) := by
  induction line with
  | nil => rfl
  | cons c line ih =>
    have hnext : ¬ (c = '\r' ∧ (line ++ '\r' :: '\n' :: rest).head? = some '\n') := by
      rintro ⟨rfl, hhead⟩
      cases line with
      | nil => cases hhead
      | cons d line =>
        obtain rfl : d = '\n' := Option.some.inj hhead
        exact h ⟨[], line, rfl⟩
    have hline : ¬ LineEnd.crlf.Breaks line :=
      fun hb => h (hb.mono (List.infix_cons (List.infix_refl _)))
    rw [List.cons_append, takeCrlfLine, if_neg hnext, ih hline]
    rfl

theorem takeLine_append (h : ¬ e.Breaks line) (rest : List Char) :
    takeLine e (line ++ '\r' :: '\n' :: rest) = some (line, rest) := by
  cases e with
  | crlf => exact takeCrlfLine_append h rest
  | lf =>
    have hcut : cut '\n' ((line ++ ['\r']) ++ '\n' :: rest) = some (line ++ ['\r'], rest) :=
      cut_append (by simpa [LineEnd.Breaks] using h) rest
    rw [List.append_assoc] at hcut
    simp only [List.singleton_append] at hcut
    simp [takeLine, hcut]

theorem takeCrlfLine_some (h : takeCrlfLine text = some (line, rest)) :
    ¬ LineEnd.crlf.Breaks line ∧ text = line ++ '\r' :: '\n' :: rest := by
  induction text generalizing line with
  | nil => cases h
  | cons c text ih =>
    rw [takeCrlfLine] at h
    split at h
    · rename_i hend
      obtain ⟨rfl, rfl⟩ := Prod.mk.inj (Option.some.inj h)
      obtain ⟨rfl, hhead⟩ := hend
      cases text with
      | nil => cases hhead
      | cons d text =>
        obtain rfl : d = '\n' := Option.some.inj hhead
        exact ⟨by simp [LineEnd.Breaks], rfl⟩
    · rename_i hend
      obtain ⟨⟨line', rest'⟩, hline, heq⟩ := Option.map_eq_some_iff.mp h
      obtain ⟨rfl, rfl⟩ := Prod.mk.inj heq
      obtain ⟨hbreaks, rfl⟩ := ih hline
      refine ⟨fun hb => ?_, rfl⟩
      rcases List.infix_cons_iff.mp hb with hprefix | hsub
      · obtain ⟨hc, hnext⟩ := List.cons_prefix_cons.mp hprefix
        obtain ⟨more, hmore⟩ := hnext
        refine hend ⟨hc.symm, ?_⟩
        rw [show line' = '\n' :: more from hmore.symm]
        rfl
      · exact hbreaks hsub

theorem takeLine_some (h : takeLine e text = some (line, rest)) :
    ¬ e.Breaks line ∧ ∃ ending, ending ≠ [] ∧ text = line ++ (ending ++ rest) := by
  cases e with
  | crlf =>
    obtain ⟨hbreaks, htext⟩ := takeCrlfLine_some h
    exact ⟨hbreaks, ['\r', '\n'], by simp, htext⟩
  | lf =>
    obtain ⟨⟨front, behind⟩, hcut, heq⟩ := Option.map_eq_some_iff.mp h
    obtain ⟨htext, hnot⟩ := cut_eq_some hcut
    obtain ⟨hline, rfl⟩ := Prod.mk.inj heq
    split at hline
    · rename_i hlast
      subst hline
      refine ⟨fun hb => hnot (List.dropLast_sublist front |>.mem hb), ['\r', '\n'], by simp, ?_⟩
      have hfront : front.dropLast ++ ['\r'] = front :=
        List.dropLast_append_getLast? _ hlast
      rw [htext]
      conv_lhs => rw [← hfront]
      simp
    · subst hline
      exact ⟨hnot, ['\n'], by simp, htext⟩

theorem takeLine_length (h : takeLine e text = some (line, rest)) :
    rest.length < text.length := by
  obtain ⟨-, ending, hending, rfl⟩ := takeLine_some h
  have hpos := List.length_pos_of_ne_nil hending
  simp only [List.length_append]
  omega

end Lines

/-! ## Fields -/

def isBlank (c : Char) : Bool := c = ' ' || c = '\t'

/-- The field lines up to the empty line, and what comes behind that. A name is taken as it
stands, a value without the blanks around it. -/
def readFields (e : LineEnd) (text : List Char) :
    Option (List (List Char × List Char) × List Char) :=
  match h : takeLine e text with
  | none => none
  | some ([], rest) => some ([], rest)
  | some (c :: line, rest) =>
    match cut ':' (c :: line) with
    | none => none
    | some (name, value) =>
      have := takeLine_length h
      (readFields e rest).map fun p => ((name, trim isBlank value) :: p.1, p.2)
termination_by text.length

def writeField (f : List Char × List Char) : List Char := f.1 ++ ':' :: ' ' :: f.2 ++ ['\r', '\n']

/-- A field that a reader gives back as it was written. -/
structure Readable (e : LineEnd) (f : List Char × List Char) : Prop where
  colon : ':' ∉ f.1
  name : ¬ e.Breaks f.1
  value : ¬ e.Breaks f.2
  trimmed : trim isBlank f.2 = f.2

section Fields
variable {e : LineEnd} {f : List Char × List Char} {fs : List (List Char × List Char)}
  {text rest : List Char}

theorem readFields_end (rest : List Char) :
    readFields e ('\r' :: '\n' :: rest) = some ([], rest) := by
  have hline : takeLine e ('\r' :: '\n' :: rest) = some ([], rest) :=
    takeLine_append (not_breaks_of_notMem List.not_mem_nil) rest
  rw [readFields]
  split
  · rename_i heq
    rw [hline] at heq
    cases heq
  · rename_i heq
    rw [hline] at heq
    cases heq
    rfl
  · rename_i heq
    rw [hline] at heq
    cases heq

theorem readFields_line {line name value : List Char} (hline : takeLine e text = some (line, rest))
    (hcut : cut ':' line = some (name, value)) :
    readFields e text =
      (readFields e rest).map fun p => ((name, trim isBlank value) :: p.1, p.2) := by
  rw [readFields]
  split
  · rename_i heq
    rw [hline] at heq
    cases heq
  · rename_i heq
    rw [hline] at heq
    cases heq
    cases hcut
  · rename_i heq
    rw [hline] at heq
    cases heq
    simp only [hcut]

theorem readFields_writeField (h : Readable e f) (rest : List Char) :
    readFields e (writeField f ++ rest) =
      (readFields e rest).map fun p => (f :: p.1, p.2) := by
  have hbreaks : ¬ e.Breaks (f.1 ++ ':' :: ' ' :: f.2) := by
    rw [breaks_append (by decide) (by decide)]
    rintro (hb | hb)
    · exact h.name hb
    · rw [show ' ' :: f.2 = [] ++ ' ' :: f.2 from rfl,
        breaks_append (by decide) (by decide)] at hb
      rcases hb with hb | hb
      · exact h.name (hb.mono List.nil_infix)
      · exact h.value hb
  have hline := takeLine_append hbreaks rest
  have hwritten : writeField f ++ rest = f.1 ++ ':' :: ' ' :: f.2 ++ '\r' :: '\n' :: rest := by
    simp [writeField]
  rw [hwritten, readFields_line hline (cut_append h.colon _), trim_cons (by decide), h.trimmed]

theorem readFields_writeFields (h : ∀ f ∈ fs, Readable e f) (rest : List Char) :
    readFields e (fs.flatMap writeField ++ '\r' :: '\n' :: rest) = some (fs, rest) := by
  induction fs with
  | nil => exact readFields_end rest
  | cons f fs ih =>
    rw [List.flatMap_cons, List.append_assoc, readFields_writeField (h f List.mem_cons_self),
      ih fun g hg => h g (List.mem_cons_of_mem f hg)]
    rfl

/-- A reader finds nothing but such fields, made of the characters of the text. -/
theorem readable_of_readFields (h : readFields e text = some (fs, rest)) :
    ∀ f ∈ fs, Readable e f ∧ ∀ c ∈ f.1 ++ f.2, c ∈ text := by
  fun_induction readFields e text generalizing fs with
  | case1 => cases h
  | case2 =>
    cases h
    simp
  | case3 => cases h
  | case4 text c line rest' hline name value hcut _ ih =>
    obtain ⟨⟨fs', rest''⟩, hrest, heq⟩ := Option.map_eq_some_iff.mp h
    cases heq
    obtain ⟨hbreaks, ending, -, htext⟩ := takeLine_some hline
    obtain ⟨hsplit, hcolon⟩ := cut_eq_some hcut
    have hname : name <:+: c :: line := ⟨[], ':' :: value, hsplit.symm⟩
    have hvalue : trim isBlank value <:+: c :: line :=
      trim_infix.trans ⟨name ++ [':'], [], by simp [hsplit]⟩
    intro f hf
    rcases List.mem_cons.mp hf with rfl | hf
    · refine ⟨⟨hcolon, fun hb => hbreaks (hb.mono hname), fun hb => hbreaks (hb.mono hvalue),
        trim_trim⟩, fun x hx => ?_⟩
      rw [htext]
      refine List.mem_append_left _ ?_
      rcases List.mem_append.mp hx with hx | hx
      · exact hname.mem hx
      · exact hvalue.mem hx
    · obtain ⟨hreadable, hmem⟩ := ih hrest f hf
      refine ⟨hreadable, fun x hx => ?_⟩
      rw [htext]
      exact List.mem_append_right _ (List.mem_append_right _ (hmem x hx))

end Fields

end HeaderText
