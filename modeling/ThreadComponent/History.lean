import ThreadComponent.Transitions

/-!
# Systems with a history

A history is kept beside the state and brought up to date by every step. It does not decide
which steps are enabled, so the runs with a history are the runs of the system.
-/

set_option autoImplicit false

namespace Transitions

universe u v w

namespace System
variable {σ : Type u} {α : Type v} {η : Type w}

/-- `note s a h` is the history behind the step that takes action `a` in state `s`. -/
def withHistory (S : System σ α) (h : η) (note : σ → α → η → η) : System (σ × η) α where
  init := (S.init, h)
  step x a := (S.step x.1 a).map fun t => (t, note x.1 a x.2)

/-- A condition on the steps of the system, whatever their history. -/
def Present (ok : σ → α → Prop) : σ × η → α → Prop := fun x => ok x.1

instance (ok : σ → α → Prop) [∀ s a, Decidable (ok s a)] (x : σ × η) (a : α) :
    Decidable (Present ok x a) := inferInstanceAs (Decidable (ok x.1 a))

variable {S : System σ α} {h : η} {note : σ → α → η → η} {ok : σ → α → Prop}

theorem step_withHistory {x y : σ × η} {a : α} :
    (S.withHistory h note).step x a = some y ↔
      S.step x.1 a = some y.1 ∧ y.2 = note x.1 a x.2 := by
  simp only [withHistory, Option.map_eq_some_iff]
  constructor
  · rintro ⟨t, ht, rfl⟩
    exact ⟨ht, rfl⟩
  · rintro ⟨ht, hy⟩
    exact ⟨y.1, ht, by rw [← hy]⟩

/-- Every run with a history is a run of the system. -/
theorem ReachableBy.present {x : σ × η}
    (hr : (S.withHistory h note).ReachableBy (Present ok) x) : S.ReachableBy ok x.1 := by
  refine ReachableBy.invariant (P := fun x => S.ReachableBy ok x.1) ?_ ?_ hr
  · exact .refl S.init
  · intro x a y _ hx hok hs
    exact hx.step hok (step_withHistory.mp hs).1

theorem ReachableBy.reachable_present {ok : σ × η → α → Prop} {x : σ × η}
    (hr : (S.withHistory h note).ReachableBy ok x) : S.Reachable x.1 :=
  have hfree : (S.withHistory h note).ReachableBy (Present Free) x := hr.free
  hfree.present

theorem ReachableBy.withHistory {s : σ} (hr : S.ReachableBy ok s) (h : η)
    (note : σ → α → η → η) :
    ∃ k, (S.withHistory h note).ReachableBy (Present ok) (s, k) := by
  refine ReachableBy.invariant
    (P := fun s => ∃ k, (S.withHistory h note).ReachableBy (Present ok) (s, k)) ?_ ?_ hr
  · exact ⟨h, .refl _⟩
  · rintro s a t - ⟨k, hk⟩ hok hs
    exact ⟨note s a k, hk.step hok (step_withHistory.mpr ⟨hs, rfl⟩)⟩

/-- What relates the initial state to the initial history, and is kept by every allowed step,
relates every state of a run to its history. -/
theorem ReachableBy.related {R : σ → η → Prop} (h0 : R S.init h)
    (hstep : ∀ s a t k, S.ReachableBy ok s → R s k → ok s a → S.step s a = some t →
      R t (note s a k))
    {x : σ × η} (hr : (S.withHistory h note).ReachableBy (Present ok) x) : R x.1 x.2 := by
  refine ReachableBy.invariant (P := fun x => R x.1 x.2) h0 ?_ hr
  intro x a y hr hx hok hs
  obtain ⟨ht, hy⟩ := step_withHistory.mp hs
  rw [hy]
  exact hstep x.1 a y.1 x.2 hr.present hx hok ht

/-- The same over all runs. -/
theorem Reachable.related {R : σ → η → Prop} (h0 : R S.init h)
    (hstep : ∀ s a t k, S.Reachable s → R s k → S.step s a = some t → R t (note s a k))
    {x : σ × η} (hr : (S.withHistory h note).Reachable x) : R x.1 x.2 := by
  have hfree : (S.withHistory h note).ReachableBy (Present Free) x := hr
  exact hfree.related h0 fun s a t k hr hx _ hs => hstep s a t k hr hx hs

end System

end Transitions
