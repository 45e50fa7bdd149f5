import ThreadComponent.Transitions

/-!
# Systems that run side by side

The members of a family, or two systems, take their steps one at a time and in any order.
A link between them takes part in every step and may hold it up. In a run of the whole every
component goes through a run of its own.
-/

set_option autoImplicit false

namespace Transitions

universe u v w x y

namespace System

def Both {σ : Type u} {α : Type v} (ok ok' : σ → α → Prop) : σ → α → Prop :=
  fun s a => ok s a ∧ ok' s a

instance {σ : Type u} {α : Type v} (ok ok' : σ → α → Prop) [∀ s a, Decidable (ok s a)]
    [∀ s a, Decidable (ok' s a)] (s : σ) (a : α) : Decidable (Both ok ok' s a) :=
  inferInstanceAs (Decidable (_ ∧ _))

theorem ReachableBy.both {σ : Type u} {α : Type v} {S : System σ α} {ok ok' : σ → α → Prop}
    {s : σ} (h : S.ReachableBy (Both ok ok') s) : S.ReachableBy ok s ∧ S.ReachableBy ok' s :=
  ⟨h.mono fun _ _ hok => hok.1, h.mono fun _ _ hok => hok.2⟩

section Family
variable {σ : Type u} {α : Type v} {K : Type w} [DecidableEq K]

variable (K) in
/-- Copies of a system; the member that takes a step is named with the action. -/
def family (S : System σ α) : System (K → σ) (K × α) where
  init := fun _ => S.init
  step f a := (S.step (f a.1) a.2).map (Function.update f a.1)

def OnMember (ok : σ → α → Prop) : (K → σ) → K × α → Prop := fun f a => ok (f a.1) a.2

instance (ok : σ → α → Prop) [∀ s a, Decidable (ok s a)] (f : K → σ) (a : K × α) :
    Decidable (OnMember ok f a) := inferInstanceAs (Decidable (ok (f a.1) a.2))

variable {S : System σ α} {ok : σ → α → Prop} {f g : K → σ} {k : K} {a : α}

theorem step_family :
    (S.family K).step f (k, a) = some g ↔
      ∃ t, S.step (f k) a = some t ∧ g = Function.update f k t := by
  simp only [family, Option.map_eq_some_iff]
  constructor
  · rintro ⟨t, ht, rfl⟩
    exact ⟨t, ht, rfl⟩
  · rintro ⟨t, ht, rfl⟩
    exact ⟨t, ht, rfl⟩

/-- Every member goes through a run of its own. -/
theorem ReachableBy.member (h : (S.family K).ReachableBy (OnMember ok) f) (k : K) :
    S.ReachableBy ok (f k) := by
  refine ReachableBy.invariant (P := fun f => S.ReachableBy ok (f k)) ?_ ?_ h
  · exact .refl _
  · rintro f ⟨j, a⟩ g - hf hok hs
    obtain ⟨t, ht, rfl⟩ := step_family.mp hs
    by_cases hk : k = j
    · subst hk
      rw [Function.update_self]
      exact hf.step hok ht
    · rwa [Function.update_of_ne hk]

end Family

section Beside
variable {σ : Type u} {α : Type v} {τ : Type w} {β : Type x}

def beside (S : System σ α) (T : System τ β) : System (σ × τ) (α ⊕ β) where
  init := (S.init, T.init)
  step
    | (s, t), .inl a => (S.step s a).map fun s => (s, t)
    | (s, t), .inr b => (T.step t b).map fun t => (s, t)

def EitherSide (ok : σ → α → Prop) (ok' : τ → β → Prop) : σ × τ → α ⊕ β → Prop
  | (s, _), .inl a => ok s a
  | (_, t), .inr b => ok' t b

instance (ok : σ → α → Prop) (ok' : τ → β → Prop) [∀ s a, Decidable (ok s a)]
    [∀ t b, Decidable (ok' t b)] (x : σ × τ) (a : α ⊕ β) : Decidable (EitherSide ok ok' x a) := by
  cases x
  cases a <;> (unfold EitherSide; infer_instance)

variable {S : System σ α} {T : System τ β} {ok : σ → α → Prop} {ok' : τ → β → Prop}
variable {x y : σ × τ} {a : α} {b : β}

theorem step_beside_inl :
    (S.beside T).step x (.inl a) = some y ↔ S.step x.1 a = some y.1 ∧ y.2 = x.2 := by
  simp only [beside, Option.map_eq_some_iff]
  constructor
  · rintro ⟨s, hs, rfl⟩
    exact ⟨hs, rfl⟩
  · rintro ⟨hs, hy⟩
    exact ⟨y.1, hs, by rw [← hy]⟩

theorem step_beside_inr :
    (S.beside T).step x (.inr b) = some y ↔ y.1 = x.1 ∧ T.step x.2 b = some y.2 := by
  simp only [beside, Option.map_eq_some_iff]
  constructor
  · rintro ⟨t, ht, rfl⟩
    exact ⟨rfl, ht⟩
  · rintro ⟨hy, ht⟩
    exact ⟨y.2, ht, by rw [← hy]⟩

theorem ReachableBy.sides (h : (S.beside T).ReachableBy (EitherSide ok ok') x) :
    S.ReachableBy ok x.1 ∧ T.ReachableBy ok' x.2 := by
  refine ReachableBy.invariant (P := fun x => S.ReachableBy ok x.1 ∧ T.ReachableBy ok' x.2)
    ?_ ?_ h
  · constructor
    · exact .refl _
    · exact .refl _
  · rintro x (a | b) y - ⟨hl, hr⟩ hok hs
    · obtain ⟨ha, hy⟩ := step_beside_inl.mp hs
      exact ⟨hl.step hok ha, hy ▸ hr⟩
    · obtain ⟨hy, hb⟩ := step_beside_inr.mp hs
      exact ⟨hy ▸ hl, hr.step hok hb⟩

end Beside

section Linked
variable {σ : Type u} {α : Type v} {η : Type w} {ι : Type x}

/-- `move s a i l` is the link behind the step that takes action `a` in state `s`, if it lets
the step happen; `i` is what comes from outside. -/
def linked (S : System σ α) (l : η) (move : σ → α → ι → η → Option η) :
    System (σ × η) (α × ι) where
  init := (S.init, l)
  step x a := (S.step x.1 a.1).bind fun s => (move x.1 a.1 a.2 x.2).map fun l => (s, l)

/-- A condition on the steps of the system, whatever the link is. -/
def Under (ok : σ → α → Prop) : σ × η → α × ι → Prop := fun x a => ok x.1 a.1

instance (ok : σ → α → Prop) [∀ s a, Decidable (ok s a)] (x : σ × η) (a : α × ι) :
    Decidable (Under ok x a) := inferInstanceAs (Decidable (ok x.1 a.1))

variable {S : System σ α} {l : η} {move : σ → α → ι → η → Option η} {ok : σ → α → Prop}

theorem step_linked {x y : σ × η} {a : α} {i : ι} :
    (S.linked l move).step x (a, i) = some y ↔
      S.step x.1 a = some y.1 ∧ move x.1 a i x.2 = some y.2 := by
  simp only [linked, Option.bind_eq_some_iff, Option.map_eq_some_iff]
  constructor
  · rintro ⟨s, hs, l, hl, rfl⟩
    exact ⟨hs, hl⟩
  · rintro ⟨hs, hl⟩
    exact ⟨y.1, hs, y.2, hl, rfl⟩

theorem ReachableBy.under {x : σ × η} (hr : (S.linked l move).ReachableBy (Under ok) x) :
    S.ReachableBy ok x.1 := by
  refine ReachableBy.invariant (P := fun x => S.ReachableBy ok x.1) ?_ ?_ hr
  · exact .refl _
  · rintro x ⟨a, i⟩ y - hx hok hs
    exact hx.step hok (step_linked.mp hs).1

/-- What relates the system to its link at the start, and is kept by every allowed step,
relates them in every run. -/
theorem ReachableBy.linked {R : σ → η → Prop} (h0 : R S.init l)
    (hstep : ∀ s a i t k k', S.ReachableBy ok s → R s k → ok s a → S.step s a = some t →
      move s a i k = some k' → R t k')
    {x : σ × η} (hr : (S.linked l move).ReachableBy (Under ok) x) : R x.1 x.2 := by
  refine ReachableBy.invariant (P := fun x => R x.1 x.2) h0 ?_ hr
  rintro x ⟨a, i⟩ y hr hx hok hs
  obtain ⟨ht, hl⟩ := step_linked.mp hs
  exact hstep x.1 a i y.1 x.2 y.2 hr.under hx hok ht hl

end Linked

end System

end Transitions
