import Mathlib.Logic.Function.Basic

/-!
# Guarded step functions and their runs

`step s a = some t` says that action `a` is enabled in `s` and leads to `t`. A run
is restricted by `ok`, a condition on the state before a step and on the action
taken there; the unrestricted runs are those with the trivial condition.
-/

set_option autoImplicit false

namespace Transitions

universe u v w

structure System (σ : Type u) (α : Type v) where
  init : σ
  step : σ → α → Option σ

namespace System
variable {σ : Type u} {α : Type v} (S : System σ α)

inductive Reaches (ok : σ → α → Prop) : σ → σ → Prop where
  | refl (s : σ) : Reaches ok s s
  | tail {s t u : σ} {a : α} :
      Reaches ok s t → ok t a → S.step t a = some u → Reaches ok s u

/-- The condition that every step meets. -/
def Free : σ → α → Prop := fun _ _ => True

instance (s : σ) (a : α) : Decidable (Free s a) := inferInstanceAs (Decidable True)

def ReachableBy (ok : σ → α → Prop) (s : σ) : Prop := S.Reaches ok S.init s

def Reachable (s : σ) : Prop := S.ReachableBy Free s

variable {S}

theorem Reaches.single {ok : σ → α → Prop} {s t : σ} {a : α}
    (hok : ok s a) (h : S.step s a = some t) : S.Reaches ok s t :=
  .tail (.refl s) hok h

theorem Reaches.trans {ok : σ → α → Prop} {s t u : σ}
    (hst : S.Reaches ok s t) (htu : S.Reaches ok t u) : S.Reaches ok s u := by
  induction htu with
  | refl => exact hst
  | tail _ hok h ih => exact .tail ih hok h

theorem Reaches.mono {ok ok' : σ → α → Prop} (himp : ∀ s a, ok s a → ok' s a)
    {s t : σ} (h : S.Reaches ok s t) : S.Reaches ok' s t := by
  induction h with
  | refl => exact .refl _
  | tail _ hok hs ih => exact .tail ih (himp _ _ hok) hs

theorem Reaches.free {ok : σ → α → Prop} {s t : σ} (h : S.Reaches ok s t) :
    S.Reaches Free s t := h.mono fun _ _ _ => trivial

theorem ReachableBy.free {ok : σ → α → Prop} {s : σ} (h : S.ReachableBy ok s) :
    S.Reachable s := Reaches.free h

theorem ReachableBy.step {ok : σ → α → Prop} {s t : σ} {a : α} (h : S.ReachableBy ok s)
    (hok : ok s a) (hs : S.step s a = some t) : S.ReachableBy ok t :=
  .tail h hok hs

/-- What holds at the start of a run and is kept by every allowed step holds at its end. -/
theorem Reaches.keeps {ok : σ → α → Prop} {P : σ → Prop}
    (hstep : ∀ s a t, P s → ok s a → S.step s a = some t → P t)
    {s t : σ} (h : S.Reaches ok s t) (hs : P s) : P t := by
  induction h with
  | refl => exact hs
  | tail _ hok hst ih => exact hstep _ _ _ ih hok hst

/-- The same, where a step may also use that its source is reachable. -/
theorem ReachableBy.invariant {ok : σ → α → Prop} {P : σ → Prop} (h0 : P S.init)
    (hstep : ∀ s a t, S.ReachableBy ok s → P s → ok s a → S.step s a = some t → P t)
    {s : σ} (h : S.ReachableBy ok s) : P s := by
  have hboth : S.ReachableBy ok s ∧ P s :=
    Reaches.keeps (P := fun s => S.ReachableBy ok s ∧ P s)
      (fun s a t hs hok hst => ⟨hs.1.step hok hst, hstep s a t hs.1 hs.2 hok hst⟩)
      h ⟨.refl _, h0⟩
  exact hboth.2

/-- A step-wise projection carries runs to runs; a step may project to standing still. -/
theorem Reaches.project {τ : Type w} {β : Type v} {T : System τ β} {ok : σ → α → Prop}
    (f : σ → τ)
    (hstep : ∀ s a t, S.step s a = some t → f t = f s ∨ ∃ b, T.step (f s) b = some (f t))
    {s t : σ} (h : S.Reaches ok s t) : T.Reaches Free (f s) (f t) := by
  induction h with
  | refl => exact .refl _
  | tail _ _ hs ih =>
    rcases hstep _ _ _ hs with he | ⟨b, hb⟩
    · exact he ▸ ih
    · exact .tail ih trivial hb

section Replay
variable (S) (ok : σ → α → Prop) [∀ s a, Decidable (ok s a)]

/-- Replay a schedule; `none` when a step is disabled or breaks `ok`. -/
def replay (s : σ) : List α → Option σ
  | [] => some s
  | a :: as => if ok s a then (S.step s a).bind fun t => replay t as else none

variable {S ok}

theorem reaches_of_replay {as : List α} {s t : σ} (h : S.replay ok s as = some t) :
    S.Reaches ok s t := by
  induction as generalizing s with
  | nil =>
    obtain rfl : s = t := by simpa [replay] using h
    exact .refl s
  | cons a as ih =>
    simp only [replay] at h
    split at h
    · rename_i hok
      obtain ⟨u, hu, hrest⟩ := Option.bind_eq_some_iff.mp h
      exact (Reaches.single hok hu).trans (ih hrest)
    · simp at h

variable (S ok) in
/-- Where a schedule leads from `s`; it stays at `s` if it does not replay. -/
def after (s : σ) (as : List α) : σ := (S.replay ok s as).getD s

theorem reaches_after {as : List α} {s : σ} (h : (S.replay ok s as).isSome = true) :
    S.Reaches ok s (S.after ok s as) := by
  obtain ⟨t, ht⟩ := Option.isSome_iff_exists.mp h
  simpa [after, ht] using reaches_of_replay ht

end Replay

end System

end Transitions
