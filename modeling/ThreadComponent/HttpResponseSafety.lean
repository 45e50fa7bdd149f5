import ThreadComponent.HttpResponse

/-!
# One response for each request

The writer is never called twice, in any run. It is called at all as long as an
unanswered state never loses its last handle that may still answer: the destructor
answers for the last handle, but an assignment over that handle does not, and of two
destructors that overlap each may read a `use_count()` of two.
-/

set_option autoImplicit false

namespace ThreadComponent

open Transitions System

namespace Responses

/-! ## Inversion, action by action -/

section Inversion
variable {w t : Responses} {h source i : Nat}

theorem mState_eq_some {m : Option Nat} :
    w.mState h = some m ↔ w.handles[h]? = some (.live m) := by
  simp only [mState]
  split <;> grind -linarith

theorem idle_eq_some {m : Option Nat} :
    w.idle h = some m ↔
      w.handles[h]? = some (.live m) ∧ ∀ i, m = some i → (w.state i).busy h = false := by
  simp only [idle]
  split
  · grind -linarith
  · grind -linarith
  · cases m <;> grind -linarith

theorem step_copyConstruct :
    w.step (.copyConstruct h) = some t ↔
      ∃ m, w.handles[h]? = some (.live m) ∧ t = w.addHandle m := by
  simp only [step, Option.map_eq_some_iff, mState_eq_some]
  grind -linarith

theorem step_moveConstruct :
    w.step (.moveConstruct h) = some t ↔
      ∃ m, w.idle h = some m ∧ t = (w.setHandle h (.live none)).addHandle m := by
  simp only [step, Option.map_eq_some_iff]
  grind -linarith

theorem step_copyAssign :
    w.step (.copyAssign h source) = some t ↔ ∃ m m', w.idle h = some m ∧
      w.handles[source]? = some (.live m') ∧ t = w.setHandle h (.live m') := by
  simp only [step, Option.bind_eq_some_iff, Option.map_eq_some_iff, mState_eq_some]
  grind -linarith

theorem step_moveAssign :
    w.step (.moveAssign h source) = some t ↔ ∃ m m', w.idle h = some m ∧
      w.idle source = some m' ∧
      t = if h = source then w
        else (w.setHandle source (.live none)).setHandle h (.live m') := by
  simp only [step, Option.bind_eq_some_iff, Option.map_eq_some_iff]
  grind -linarith

theorem step_write {x : WriteCall} :
    w.step (.write h x) = some t ↔
      (w.handles[h]? = some (.live none) ∧ t = w) ∨
      ∃ i, w.handles[h]? = some (.live (some i)) ∧
        t = w.setState i ((w.state i).ask h x.written) := by
  simp only [step, ← mState_eq_some]
  split <;> grind -linarith

theorem step_callWriter :
    w.step (.callWriter i) = some t ↔ ∃ h x, (w.state i).pending = some (h, x) ∧
      t = w.setState i ((w.state i).call x) := by
  simp only [step]
  split <;> grind -linarith

theorem step_destroy :
    w.step (.destroy h) = some t ↔
      (w.idle h = some none ∧ t = w.setHandle h .gone) ∨
      ∃ i, w.idle h = some (some i) ∧
        t = w.setHandle h (if (w.state i).responded then .releasing i else .testing i) := by
  simp only [step]
  split <;> grind -linarith

theorem step_useCount :
    w.step (.useCount h) = some t ↔ ∃ i, w.handles[h]? = some (.testing i) ∧
      t = w.setHandle h (if w.useCount i = 1 then .answering i else .leaving i) := by
  simp only [step]
  split <;> grind -linarith

theorem step_answer :
    w.step (.answer h) = some t ↔ ∃ i, w.handles[h]? = some (.answering i) ∧
      t = (w.setState i ((w.state i).exchange h automaticResponse)).setHandle h
        (.releasing i) := by
  simp only [step]
  split <;> grind -linarith

theorem step_release :
    w.step (.release h) = some t ↔ t = w.setHandle h .gone ∧
      ∃ i, w.handles[h]? = some (.leaving i) ∨
        (w.handles[h]? = some (.releasing i) ∧ (w.state i).busy h = false) := by
  simp only [step]
  split <;> grind -linarith

end Inversion

end Responses

/-! ## One state -/

namespace ResponseState

/-- What a state is answered with: the first response that was asked for, or the
automatic one. -/
def answer (x : ResponseState) : Written := x.asked.head?.getD automaticResponse

/-- An unanswered state is untouched; an answered one has had its answer written or has
it pending, and nothing else. -/
structure Consistent (x : ResponseState) : Prop where
  unanswered : x.responded = false → x.pending = none ∧ x.written = [] ∧ x.asked = []
  answered : x.responded = true → x.written ++ (x.pending.map Prod.snd).toList = [x.answer]

variable {x : ResponseState} {h : Nat} {w : Written}

theorem consistent_fresh : Consistent {} :=
  ⟨fun _ => ⟨rfl, rfl, rfl⟩, fun h => by simp at h⟩

theorem Consistent.exchange_automatic (hx : x.Consistent) :
    (x.exchange h automaticResponse).Consistent := by
  unfold exchange
  split
  · exact hx
  · rename_i hr
    obtain ⟨-, hw, ha⟩ := hx.unanswered (by simpa using hr)
    exact ⟨fun h => by simp at h, fun _ => by simp [hw, ha, answer]⟩

theorem Consistent.ask (hx : x.Consistent) (hasked : x.responded = true → x.asked ≠ []) :
    (x.ask h w).Consistent := by
  unfold ResponseState.ask exchange
  split
  · rename_i hr
    obtain ⟨v, vs, hv⟩ := List.exists_cons_of_ne_nil (hasked hr)
    have hans := hx.answered hr
    refine ⟨fun h => by simp [hr] at h, fun _ => ?_⟩
    simpa [answer, hv] using hans
  · rename_i hr
    obtain ⟨-, hw, ha⟩ := hx.unanswered (by simpa using hr)
    exact ⟨fun h => by simp at h, fun _ => by simp [hw, ha, answer]⟩

theorem Consistent.call (hx : x.Consistent) (hp : x.pending = some (h, w)) :
    (x.call w).Consistent := by
  have hr : x.responded = true := by
    by_contra hr
    simp [(hx.unanswered (by simpa using hr)).1] at hp
  refine ⟨fun h => by simp [ResponseState.call, hr] at h, fun _ => ?_⟩
  simpa [ResponseState.call, answer, hp] using hx.answered hr

theorem Consistent.written_length (hx : x.Consistent) : x.written.length ≤ 1 := by
  cases hr : x.responded with
  | false => simp [(hx.unanswered hr).2.1]
  | true =>
    have hlen := congrArg List.length (hx.answered hr)
    simp only [List.length_append, List.length_singleton] at hlen
    omega

end ResponseState

/-! ## Handles and states together -/

namespace Responses

structure Sound (w : Responses) : Prop where
  bounded : ∀ {x i}, x ∈ w.handles → x.refersTo i = true → i < w.states
  consistent : ∀ i, (w.state i).Consistent
  /-- A handle stays where it is while a `write` on it is in progress. -/
  owner : ∀ {i h v}, (w.state i).pending = some (h, v) →
    w.handles[h]? = some (.live (some i)) ∨ w.handles[h]? = some (.releasing i)
  /-- When the automatic response is decided on, nobody else can respond any more. -/
  alone : ∀ {i}, .answering i ∈ w.handles ∨
    ((w.state i).responded = true ∧ (w.state i).asked = []) → .live (some i) ∉ w.handles

variable {w : Responses} {h i : Nat} {x y : Handle}

theorem mem_of_getElem? (hx : w.handles[h]? = some x) : x ∈ w.handles :=
  List.mem_of_getElem? hx

theorem mem_setHandle (hx : x ∈ (w.setHandle h y).handles) : x ∈ w.handles ∨ x = y :=
  List.mem_or_eq_of_mem_set hx

theorem mem_addHandle {m : Option Nat} :
    x ∈ (w.addHandle m).handles ↔ x ∈ w.handles ∨ x = .live m := by
  simp [addHandle]

theorem Sound.setHandle (hw : Sound w)
    (hfree : ∀ i v, (w.state i).pending ≠ some (h, v))
    (hbounded : ∀ i, y.refersTo i = true → i < w.states)
    (hlive : ∀ i, y = .live (some i) → y ∈ w.handles)
    (halone : ∀ i, y = .answering i → .live (some i) ∉ (w.setHandle h y).handles) :
    Sound (w.setHandle h y) where
  bounded hx hi := (mem_setHandle hx).elim (fun hx => hw.bounded hx hi)
    (fun he => hbounded _ (he ▸ hi))
  consistent := hw.consistent
  owner {i g v} hp := by
    have hne : h ≠ g := fun he => hfree i v (he ▸ hp)
    simpa [Responses.setHandle, List.getElem?_set_ne hne] using hw.owner hp
  alone {i} hi hmem := by
    have hold : .live (some i) ∈ w.handles := by
      rcases mem_setHandle hmem with hm | he
      · exact hm
      · exact he ▸ hlive i he.symm
    rcases hi with hans | hauto
    · rcases mem_setHandle hans with hans | he
      · exact hw.alone (.inl hans) hold
      · exact halone i he.symm hmem
    · exact hw.alone (.inr hauto) hold

theorem Sound.addHandle {m : Option Nat} (hw : Sound w)
    (hm : ∀ i, m = some i → .live (some i) ∈ w.handles) : Sound (w.addHandle m) where
  bounded {x i} hx hi := by
    rcases mem_addHandle.mp hx with hx | rfl
    · exact hw.bounded hx hi
    · have hmi : m = some i := by simpa [Handle.refersTo] using hi
      exact hw.bounded (hm i hmi) (by simp [Handle.refersTo])
  consistent := hw.consistent
  owner {i g v} hp := by
    have hlt : g < w.handles.length := by
      rcases hw.owner hp with h | h <;> exact (List.getElem?_eq_some_iff.mp h).1
    simpa [Responses.addHandle, List.getElem?_append_left hlt] using hw.owner hp
  alone {i} hi hmem := by
    have hold : .live (some i) ∈ w.handles := by
      rcases mem_addHandle.mp hmem with h | h
      · exact h
      · exact hm i (by simpa using h.symm)
    rcases hi with hans | hauto
    · exact hw.alone (.inl ((mem_addHandle.mp hans).resolve_right (by simp))) hold
    · exact hw.alone (.inr hauto) hold

theorem Sound.setState {z : ResponseState} (hw : Sound w) (hz : z.Consistent)
    (howner : ∀ {h v}, z.pending = some (h, v) →
      w.handles[h]? = some (.live (some i)) ∨ w.handles[h]? = some (.releasing i))
    (halone : z.responded = true → z.asked = [] → .live (some i) ∉ w.handles) :
    Sound (w.setState i z) where
  bounded := hw.bounded
  consistent j := by
    by_cases hj : j = i
    · subst hj
      simpa [Responses.setState] using hz
    · simpa [Responses.setState, Function.update_of_ne hj] using hw.consistent j
  owner {j g v} hp := by
    by_cases hj : j = i
    · subst hj
      exact howner (by simpa [Responses.setState] using hp)
    · exact hw.owner (by simpa [Responses.setState, Function.update_of_ne hj] using hp)
  alone {j} hj := by
    rcases hj with hans | ⟨hr, ha⟩
    · exact hw.alone (.inl hans)
    · by_cases hji : j = i
      · subst hji
        exact halone (by simpa [Responses.setState] using hr)
          (by simpa [Responses.setState] using ha)
      · simp only [Responses.setState, Function.update_of_ne hji] at hr ha
        exact hw.alone (.inr ⟨hr, ha⟩)

/-- Nobody is in a `write` on a handle that may be changed or destroyed. -/
theorem Sound.free_of_idle {m : Option Nat} (hw : Sound w) (hm : w.idle h = some m) (i : Nat)
    (v : Written) : (w.state i).pending ≠ some (h, v) := by
  intro hp
  obtain ⟨hlive, hbusy⟩ := idle_eq_some.mp hm
  rcases hw.owner hp with ho | ho
  · have hmi : m = some i := by simpa [hlive] using ho
    simpa [ResponseState.busy, hp] using hbusy i hmi
  · simp [hlive] at ho

/-- Neither in a destructor that has not yet come to respond. -/
theorem Sound.free_of_destructor (hw : Sound w) (hx : w.handles[h]? = some x)
    (hlive : ∀ i, x ≠ .live (some i)) (hrel : ∀ i, x ≠ .releasing i) (i : Nat)
    (v : Written) : (w.state i).pending ≠ some (h, v) := by
  intro hp
  rcases hw.owner hp with ho | ho
  · exact hlive i (by simpa [hx] using ho)
  · exact hrel i (by simpa [hx] using ho)

theorem lt_states (hw : Sound w) (hx : w.handles[h]? = some x) (hi : x.refersTo i = true) :
    i < w.states := hw.bounded (mem_of_getElem? hx) hi

/-- The handle that reads `use_count() == 1` is the only one. -/
theorem alone_of_useCount (hx : w.handles[h]? = some x) (hi : x.refersTo i = true)
    (hcount : w.useCount i = 1) (hy : y ≠ .live (some i)) :
    .live (some i) ∉ (w.setHandle h y).handles := by
  intro hmem
  obtain ⟨g, hg⟩ := List.mem_iff_getElem?.mp hmem
  have hlt : h < w.handles.length := (List.getElem?_eq_some_iff.mp hx).1
  have hne : h ≠ g := by
    rintro rfl
    rw [Responses.setHandle, List.getElem?_set_self hlt] at hg
    exact hy (by simpa using hg)
  have hold : w.handles[g]? = some (.live (some i)) := by
    rwa [Responses.setHandle, List.getElem?_set_ne hne] at hg
  have hdrop : (w.handles.set h .gone).countP (Handle.refersTo i) = 0 := by
    rw [List.countP_set hlt, (List.getElem?_eq_some_iff.mp hx).2, hi]
    simp only [useCount] at hcount
    simp [hcount, Handle.refersTo]
  have hpos : 0 < (w.handles.set h .gone).countP (Handle.refersTo i) :=
    List.countP_pos_iff.mpr ⟨.live (some i),
      List.mem_of_getElem? (by rwa [List.getElem?_set_ne hne]), by simp [Handle.refersTo]⟩
  omega

theorem sound_init : Sound {} where
  bounded hx := by simp at hx
  consistent _ := ResponseState.consistent_fresh
  owner hp := by simp at hp
  alone _ := by simp

theorem Sound.make (hw : Sound w) :
    Sound ({ w with states := w.states + 1 }.setState w.states {} |>.addHandle (some w.states)) where
  bounded {x i} hx hi := by
    rcases mem_addHandle.mp hx with hx | rfl
    · exact Nat.lt_succ_of_lt (hw.bounded hx hi)
    · obtain rfl : w.states = i := by simpa [Handle.refersTo] using hi
      exact Nat.lt_succ_self _
  consistent i := by
    by_cases hi : i = w.states
    · subst hi
      simpa [Responses.addHandle, Responses.setState] using ResponseState.consistent_fresh
    · simpa [Responses.addHandle, Responses.setState, Function.update_of_ne hi]
        using hw.consistent i
  owner {i g v} hp := by
    have hi : i ≠ w.states := by
      rintro rfl
      simp [Responses.addHandle, Responses.setState] at hp
    have hold : (w.state i).pending = some (g, v) := by
      simpa [Responses.addHandle, Responses.setState, Function.update_of_ne hi] using hp
    have hlt : g < w.handles.length := by
      rcases hw.owner hold with h | h <;> exact (List.getElem?_eq_some_iff.mp h).1
    simpa [Responses.addHandle, Responses.setState, List.getElem?_append_left hlt]
      using hw.owner hold
  alone {i} hi hmem := by
    by_cases hnew : i = w.states
    · -- no handle refers to a number that is not taken yet
      subst hnew
      rcases hi with hans | hauto
      · have hold := (mem_addHandle.mp hans).resolve_right (by simp)
        exact absurd (hw.bounded hold (i := w.states) (by simp [Handle.refersTo]))
          (Nat.lt_irrefl _)
      · simp [Responses.addHandle, Responses.setState] at hauto
    · have hold : .live (some i) ∈ w.handles :=
        (mem_addHandle.mp hmem).resolve_right (by simpa using hnew)
      rcases hi with hans | hauto
      · exact hw.alone (.inl ((mem_addHandle.mp hans).resolve_right (by simp))) hold
      · simp only [Responses.addHandle, Responses.setState, Function.update_of_ne hnew] at hauto
        exact hw.alone (.inr hauto) hold

theorem addHandle_setHandle {m : Option Nat} (hx : w.handles[h]? = some x) :
    (w.setHandle h y).addHandle m = (w.addHandle m).setHandle h y := by
  have hlt : h < w.handles.length := (List.getElem?_eq_some_iff.mp hx).1
  simp [Responses.addHandle, Responses.setHandle, List.set_append_left _ _ hlt]

theorem setHandle_comm {g : Nat} (hne : h ≠ g) :
    (w.setHandle h x).setHandle g y = (w.setHandle g y).setHandle h x := by
  simp [Responses.setHandle, List.set_comm _ _ hne]

theorem Sound.write {v : Written} (hw : Sound w) (hi : w.handles[h]? = some (.live (some i))) :
    Sound (w.setState i ((w.state i).ask h v)) := by
  have hmem := mem_of_getElem? hi
  refine hw.setState ((hw.consistent i).ask fun hr ha => hw.alone (.inr ⟨hr, ha⟩) hmem) ?_ ?_
  · intro g v' hp
    unfold ResponseState.ask ResponseState.exchange at hp
    split at hp
    · exact hw.owner hp
    · obtain ⟨rfl, -⟩ : h = g ∧ _ := by simpa using hp
      exact .inl hi
  · intro _ ha
    simp [ResponseState.ask] at ha

theorem Sound.callWriter {v : Written} (hw : Sound w)
    (hp : (w.state i).pending = some (h, v)) :
    Sound (w.setState i ((w.state i).call v)) :=
  hw.setState ((hw.consistent i).call hp) (fun hp => by simp [ResponseState.call] at hp)
    fun hr ha => hw.alone (.inr ⟨hr, ha⟩)

theorem Sound.answer (hw : Sound w) (hi : w.handles[h]? = some (.answering i)) :
    Sound ((w.setState i ((w.state i).exchange h automaticResponse)).setHandle h
      (.releasing i)) := by
  have hlt : h < w.handles.length := (List.getElem?_eq_some_iff.mp hi).1
  have hset : Sound (w.setHandle h (.releasing i)) :=
    hw.setHandle (hw.free_of_destructor hi (by simp) (by simp))
      (fun j hj => lt_states hw hi (by simpa [Handle.refersTo] using hj)) (by simp) (by simp)
  refine hset.setState (hw.consistent i).exchange_automatic ?_ ?_
  · intro g v hp
    unfold ResponseState.exchange at hp
    split at hp
    · exact hset.owner hp
    · obtain ⟨rfl, -⟩ : h = g ∧ _ := by simpa using hp
      exact .inr (by simp [Responses.setHandle, hlt])
  · intro _ _ hmem
    have hold := (mem_setHandle hmem).resolve_right (by simp)
    exact hw.alone (.inl (mem_of_getElem? hi)) hold

theorem Sound.step {t : Responses} {a : ResponseAction} (hw : Sound w)
    (hs : w.step a = some t) : Sound t := by
  cases a with
  | make =>
    obtain rfl := Option.some.inj hs
    exact hw.make
  | defaultConstruct =>
    obtain rfl := Option.some.inj hs
    exact hw.addHandle (by simp)
  | copyConstruct h =>
    obtain ⟨m, hm, rfl⟩ := step_copyConstruct.mp hs
    exact hw.addHandle fun i hi => hi ▸ mem_of_getElem? hm
  | moveConstruct h =>
    obtain ⟨m, hm, rfl⟩ := step_moveConstruct.mp hs
    have hx := (idle_eq_some.mp hm).1
    rw [addHandle_setHandle hx]
    exact (hw.addHandle fun i hi => hi ▸ mem_of_getElem? hx).setHandle (hw.free_of_idle hm)
      (by simp [Handle.refersTo]) (by simp) (by simp)
  | copyAssign h source =>
    obtain ⟨m, m', hm, hm', rfl⟩ := step_copyAssign.mp hs
    refine hw.setHandle (hw.free_of_idle hm) (fun i hi => lt_states hw hm' hi)
      (fun i hi => hi ▸ mem_of_getElem? (hi ▸ hm')) (by simp)
  | moveAssign h source =>
    obtain ⟨m, m', hm, hm', rfl⟩ := step_moveAssign.mp hs
    split
    · exact hw
    · rename_i hne
      have hx := (idle_eq_some.mp hm').1
      rw [setHandle_comm (Ne.symm hne)]
      have hset : Sound (w.setHandle h (.live m')) :=
        hw.setHandle (hw.free_of_idle hm) (fun i hi => lt_states hw hx hi)
          (fun i hi => hi ▸ mem_of_getElem? (hi ▸ hx)) (by simp)
      exact hset.setHandle (hw.free_of_idle hm') (by simp [Handle.refersTo]) (by simp)
        (by simp)
  | write h x =>
    rcases step_write.mp hs with ⟨-, rfl⟩ | ⟨i, hi, rfl⟩
    · exact hw
    · exact hw.write hi
  | callWriter i =>
    obtain ⟨h, x, hp, rfl⟩ := step_callWriter.mp hs
    exact hw.callWriter hp
  | destroy h =>
    rcases step_destroy.mp hs with ⟨hm, rfl⟩ | ⟨i, hm, rfl⟩
    · exact hw.setHandle (hw.free_of_idle hm) (by simp [Handle.refersTo]) (by simp) (by simp)
    · have hlt := lt_states hw (idle_eq_some.mp hm).1 (i := i) (by simp [Handle.refersTo])
      split <;> exact hw.setHandle (hw.free_of_idle hm) (by simpa [Handle.refersTo] using hlt)
        (by simp) (by simp)
  | useCount h =>
    obtain ⟨i, hi, rfl⟩ := step_useCount.mp hs
    have hfree := hw.free_of_destructor hi (by simp) (by simp)
    have hlt := lt_states hw hi (i := i) (by simp [Handle.refersTo])
    split
    · rename_i hcount
      refine hw.setHandle hfree (by simpa [Handle.refersTo] using hlt) (by simp) ?_
      intro j hj
      obtain rfl : i = j := by simpa using hj
      exact alone_of_useCount hi (by simp [Handle.refersTo]) hcount (by simp)
    · exact hw.setHandle hfree (by simpa [Handle.refersTo] using hlt) (by simp) (by simp)
  | answer h =>
    obtain ⟨i, hi, rfl⟩ := step_answer.mp hs
    exact hw.answer hi
  | release h =>
    obtain ⟨rfl, i, hi⟩ := step_release.mp hs
    refine hw.setHandle ?_ (by simp [Handle.refersTo]) (by simp) (by simp)
    rcases hi with hi | ⟨hi, hbusy⟩
    · exact hw.free_of_destructor hi (by simp) (by simp)
    · intro j v hp
      rcases hw.owner hp with ho | ho
      · simp [hi] at ho
      · obtain rfl : i = j := by simpa [hi] using ho
        simp [ResponseState.busy, hp] at hbusy

theorem sound_of_reachable {ok : Responses → ResponseAction → Prop}
    (hr : responseSystem.ReachableBy ok w) : Sound w :=
  ReachableBy.invariant sound_init (fun _ _ _ _ hw _ hs => hw.step hs) hr

theorem written_at_most_once (hr : responseSystem.Reachable w) (i : Nat) :
    (w.state i).written.length ≤ 1 :=
  ((sound_of_reachable hr).consistent i).written_length

/-! ## Who may still answer -/

end Responses

/-- A handle that is alive or whose destructor has not yet declined to respond. -/
def Handle.mayAnswer (i : Nat) : Handle → Bool
  | .live m => m = some i
  | .testing j | .answering j => j = i
  | _ => false

theorem Handle.refersTo_of_mayAnswer {i : Nat} {x : Handle} (h : x.mayAnswer i = true) :
    x.refersTo i = true := by
  cases x <;> simp_all [Handle.mayAnswer, Handle.refersTo]

namespace Responses
variable {w : Responses} {h i : Nat} {x y : Handle}

def answerers (w : Responses) (i : Nat) : Nat := w.handles.countP (Handle.mayAnswer i)

def Spared (w : Responses) (i : Nat) : Prop :=
  (w.state i).responded = true ∨ 2 ≤ w.answerers i

/-- Neither an assignment over a handle nor a destructor that reads a `use_count()`
above 1 takes away the last handle that may answer an unanswered state. -/
def Careful (w : Responses) : ResponseAction → Prop
  | .copyAssign h source | .moveAssign h source =>
    match w.mState h with
    | some (some i) => w.mState source = some (some i) ∨ w.Spared i
    | _ => True
  | .useCount h =>
    match w.handles[h]? with
    | some (.testing i) => w.useCount i = 1 ∨ w.Spared i
    | _ => True
  | _ => True

instance (w : Responses) (i : Nat) : Decidable (w.Spared i) :=
  inferInstanceAs (Decidable (_ ∨ _))

instance (w : Responses) (a : ResponseAction) : Decidable (Careful w a) := by
  unfold Careful
  split
  · split <;> infer_instance
  · split <;> infer_instance
  · split <;> infer_instance
  · infer_instance

theorem answerers_pos (hx : w.handles[h]? = some x) (hm : x.mayAnswer i = true) :
    0 < w.answerers i :=
  List.countP_pos_iff.mpr ⟨x, mem_of_getElem? hx, hm⟩

theorem answerers_setHandle (hx : w.handles[h]? = some x) :
    (w.setHandle h y).answerers i + (x.mayAnswer i).toNat =
      w.answerers i + (y.mayAnswer i).toNat := by
  obtain ⟨hlt, hget⟩ := List.getElem?_eq_some_iff.mp hx
  have hpos := answerers_pos (i := i) hx
  simp only [answerers, Responses.setHandle, List.countP_set hlt, hget] at hpos ⊢
  cases hm : x.mayAnswer i <;> cases y.mayAnswer i <;> simp_all

theorem answerers_addHandle {m : Option Nat} :
    (w.addHandle m).answerers i = w.answerers i + ((Handle.live m).mayAnswer i).toNat := by
  simp only [answerers, Responses.addHandle, List.countP_append, List.countP_singleton]
  cases (Handle.live m).mayAnswer i <;> rfl

def Answerable (w : Responses) : Prop :=
  ∀ i, i < w.states → (w.state i).responded = false → 0 < w.answerers i

/-- Replacing a handle by one that may answer for the same state, or may be spared. -/
theorem Answerable.setHandle (hw : Answerable w) (hx : w.handles[h]? = some x)
    (hkeep : ∀ i, x.mayAnswer i = true → y.mayAnswer i = true ∨ w.Spared i) :
    Answerable (w.setHandle h y) := by
  intro i hi hr
  have hcount := answerers_setHandle (i := i) (y := y) hx
  have hpos := hw i hi hr
  cases hm : x.mayAnswer i with
  | false => simp only [hm, Bool.toNat_false] at hcount; omega
  | true =>
    rcases hkeep i hm with hy | hdone | htwo
    · simp only [hm, hy] at hcount
      omega
    · exact absurd (hdone.symm.trans hr) (by simp)
    · simp only [hm, Bool.toNat_true] at hcount
      omega

theorem Answerable.addHandle {m : Option Nat} (hw : Answerable w) :
    Answerable (w.addHandle m) := fun i hi hr => by
  rw [answerers_addHandle]
  exact Nat.add_pos_left (hw i hi hr) _

theorem Answerable.setState {z : ResponseState} (hw : Answerable w)
    (hz : z.responded = false → (w.state i).responded = false) :
    Answerable (w.setState i z) := by
  intro j hj hr
  by_cases hji : j = i
  · subst hji
    exact hw j hj (hz (by simpa [Responses.setState] using hr))
  · exact hw j hj (by simpa [Responses.setState, Function.update_of_ne hji] using hr)

theorem Answerable.make (hw : Answerable w) :
    Answerable ({ w with states := w.states + 1 }.setState w.states {}
      |>.addHandle (some w.states)) := by
  intro i hi hr
  rw [answerers_addHandle]
  by_cases hnew : i = w.states
  · subst hnew
    exact Nat.add_pos_right _ (by simp [Handle.mayAnswer])
  · have hlt : i < w.states := by
      simp only [Responses.addHandle, Responses.setState] at hi
      omega
    refine Nat.add_pos_left (hw i hlt ?_) _
    simpa [Responses.addHandle, Responses.setState, Function.update_of_ne hnew] using hr

theorem Answerable.moveAssign {source : Nat} {m m' : Option Nat} (hw : Answerable w)
    (hne : h ≠ source) (hx : w.handles[h]? = some (.live m))
    (hx' : w.handles[source]? = some (.live m'))
    (hok : ∀ i, m = some i → m' = some i ∨ w.Spared i) :
    Answerable ((w.setHandle source (.live none)).setHandle h (.live m')) := by
  intro i hi hr
  have hpos := hw i hi hr
  have hx₁ : (w.setHandle source (.live none)).handles[h]? = some (.live m) := by
    simpa [Responses.setHandle, List.getElem?_set_ne (Ne.symm hne)] using hx
  have hempty := answerers_setHandle (i := i) (y := .live none) hx'
  have hfill := answerers_setHandle (i := i) (y := .live m') hx₁
  have hnone : (Handle.live none).mayAnswer i = false := by simp [Handle.mayAnswer]
  rw [hnone] at hempty
  by_cases hm : m = some i
  · have hlive : (Handle.live m).mayAnswer i = true := by simp [Handle.mayAnswer, hm]
    have hleft := answerers_pos hx₁ hlive
    rw [hlive] at hfill
    rcases hok i hm with hm' | hdone | htwo
    · have hlive' : (Handle.live m').mayAnswer i = true := by simp [Handle.mayAnswer, hm']
      simp only [hlive', Bool.toNat_true, Bool.toNat_false] at hempty hfill
      omega
    · exact absurd (hdone.symm.trans hr) (by simp)
    · simp only [Bool.toNat_true, Bool.toNat_false] at hempty hfill
      omega
  · have hdead : (Handle.live m).mayAnswer i = false := by simp [Handle.mayAnswer, hm]
    simp only [hdead, Bool.toNat_false] at hempty hfill
    omega

theorem Answerable.step {t : Responses} {a : ResponseAction} (hw : Answerable w)
    (hok : Careful w a) (hs : w.step a = some t) : Answerable t := by
  cases a with
  | make =>
    obtain rfl := Option.some.inj hs
    exact hw.make
  | defaultConstruct =>
    obtain rfl := Option.some.inj hs
    exact hw.addHandle
  | copyConstruct h =>
    obtain ⟨m, -, rfl⟩ := step_copyConstruct.mp hs
    exact hw.addHandle
  | moveConstruct h =>
    -- the new handle stands in for the one that was emptied
    obtain ⟨m, hm, rfl⟩ := step_moveConstruct.mp hs
    have hx := (idle_eq_some.mp hm).1
    intro i hi hr
    have hcount := answerers_setHandle (i := i) (y := .live none) hx
    have hpos := hw i hi hr
    rw [answerers_addHandle]
    simp only [show (Handle.live none).mayAnswer i = false by simp [Handle.mayAnswer],
      Bool.toNat_false] at hcount
    omega
  | copyAssign h source =>
    obtain ⟨m, m', hm, hm', rfl⟩ := step_copyAssign.mp hs
    have hx := (idle_eq_some.mp hm).1
    refine hw.setHandle hx fun i hi => ?_
    obtain rfl : m = some i := by simpa [Handle.mayAnswer] using hi
    simp only [Careful, mState_eq_some.mpr hx, mState_eq_some.mpr hm'] at hok
    simpa [Handle.mayAnswer] using hok
  | moveAssign h source =>
    obtain ⟨m, m', hm, hm', rfl⟩ := step_moveAssign.mp hs
    have hx := (idle_eq_some.mp hm).1
    have hx' := (idle_eq_some.mp hm').1
    split
    · exact hw
    · rename_i hne
      refine hw.moveAssign hne hx hx' ?_
      rintro i rfl
      simpa [Careful, mState_eq_some.mpr hx, mState_eq_some.mpr hx'] using hok
  | write h x =>
    rcases step_write.mp hs with ⟨-, rfl⟩ | ⟨i, -, rfl⟩
    · exact hw
    · refine hw.setState fun hr => ?_
      unfold ResponseState.ask ResponseState.exchange at hr
      split at hr <;> simp_all
  | callWriter i =>
    obtain ⟨h, x, -, rfl⟩ := step_callWriter.mp hs
    exact hw.setState fun hr => by simpa [ResponseState.call] using hr
  | destroy h =>
    rcases step_destroy.mp hs with ⟨hm, rfl⟩ | ⟨i, hm, rfl⟩
    · exact hw.setHandle (idle_eq_some.mp hm).1 (by simp [Handle.mayAnswer])
    · refine hw.setHandle (idle_eq_some.mp hm).1 fun j hj => ?_
      obtain rfl : i = j := by simpa [Handle.mayAnswer] using hj
      split
      · rename_i hdone
        exact .inr (.inl hdone)
      · exact .inl (by simp [Handle.mayAnswer])
  | useCount h =>
    obtain ⟨i, hi, rfl⟩ := step_useCount.mp hs
    refine hw.setHandle hi fun j hj => ?_
    obtain rfl : i = j := by simpa [Handle.mayAnswer] using hj
    simp only [Careful, hi] at hok
    split
    · exact .inl (by simp [Handle.mayAnswer])
    · rename_i hcount
      exact .inr (hok.resolve_left hcount)
  | answer h =>
    obtain ⟨i, hi, rfl⟩ := step_answer.mp hs
    have hstate : Answerable (w.setState i ((w.state i).exchange h automaticResponse)) := by
      refine hw.setState fun hr => ?_
      unfold ResponseState.exchange at hr
      split at hr <;> simp_all
    refine hstate.setHandle hi fun j hj => ?_
    obtain rfl : i = j := by simpa [Handle.mayAnswer] using hj
    refine .inr (.inl ?_)
    simp only [Responses.setState, Function.update_self, ResponseState.exchange]
    split <;> simp_all
  | release h =>
    obtain ⟨rfl, i, hi⟩ := step_release.mp hs
    rcases hi with hi | ⟨hi, -⟩ <;> exact hw.setHandle hi (by simp [Handle.mayAnswer])

theorem answerable_of_reachable (hr : responseSystem.ReachableBy Careful w) : Answerable w :=
  ReachableBy.invariant (fun _ hi => absurd hi (Nat.not_lt_zero _))
    (fun _ _ _ _ hw hok hs => hw.step hok hs) hr

/-- Where no unanswered state loses its last handle that may answer, every state whose
handles are all gone has been answered once, with the first response asked for or the
automatic one; and no state is ever answered twice. -/
theorem exactly_one_response (hr : responseSystem.ReachableBy Careful w) (hi : i < w.states) :
    (w.state i).written.length ≤ 1 ∧
      ((∀ x ∈ w.handles, x.refersTo i = false) →
        (w.state i).written = [(w.state i).asked.head?.getD automaticResponse]) := by
  have hs := sound_of_reachable hr
  refine ⟨(hs.consistent i).written_length, fun hgone => ?_⟩
  have hresponded : (w.state i).responded = true := by
    by_contra hopen
    have hpos := answerable_of_reachable hr i hi (by simpa using hopen)
    obtain ⟨x, hx, hm⟩ := List.countP_pos_iff.mp hpos
    simpa [hgone x hx] using Handle.refersTo_of_mayAnswer hm
  have hpending : (w.state i).pending = none := by
    rcases hp : (w.state i).pending with _ | ⟨h, v⟩
    · rfl
    · rcases hs.owner hp with ho | ho
      · simpa [Handle.refersTo] using hgone _ (mem_of_getElem? ho)
      · simpa [Handle.refersTo] using hgone _ (mem_of_getElem? ho)
  simpa [hpending, ResponseState.answer] using (hs.consistent i).answered hresponded

/-- A copy writes, the original tries again, and both are destroyed. -/
theorem exactly_one_response_copied :
    let w := responseSystem.after Careful {} [.make, .copyConstruct 0,
      .write 1 (.redirect "/" 302), .write 0 (.writeBody "late"), .callWriter 0,
      .destroy 0, .release 0, .destroy 1, .release 1]
    (w.state 0).written = [⟨302, "", [⟨"Location", "/"⟩]⟩] ∧
      ((w.state 0).written.length ≤ 1 ∧ ((∀ x ∈ w.handles, x.refersTo 0 = false) →
        (w.state 0).written = [(w.state 0).asked.head?.getD automaticResponse])) :=
  ⟨by decide, exactly_one_response (reaches_after (by decide)) (by decide)⟩

/-- A handle that was moved from is copied over the handle that took its place: the
state is gone and nobody has answered. -/
theorem assignment_drops_request :
    ¬ ∀ (w : Responses) (i : Nat), responseSystem.Reachable w → i < w.states →
      (∀ x ∈ w.handles, x.refersTo i = false) → (w.state i).written.length = 1 := by
  intro hclaim
  have h := hclaim (responseSystem.after Free {} [.make, .moveConstruct 0, .copyAssign 1 0]) 0
    (reaches_after (by decide)) (by decide) (by decide)
  revert h
  decide

/-- The other way to lose a request: two destructors read `use_count()` before either
lets go of the state. -/
example : let w := responseSystem.after Free {} [.make, .copyConstruct 0, .destroy 0,
      .destroy 1, .useCount 0, .useCount 1, .release 0, .release 1]
    w.handles = [.gone, .gone] ∧ (w.state 0).written = [] := by decide

end Responses

end ThreadComponent
