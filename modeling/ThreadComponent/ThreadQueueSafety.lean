import ThreadComponent.ThreadQueue

/-!
# What cThreadQueue_V2 keeps

Without exceptions the queue is a FIFO that loses nothing. With them the cached size and the
content survive a call exactly when no element operation of it but the first one throws.
-/

set_option autoImplicit false
set_option linter.unusedSectionVars false

namespace ThreadComponent

open Transitions System

namespace ThreadQueue
variable {T : Type} {x : ThreadQueue T}

/-! ## The loops -/

theorem pushLoop_none (elements queue : List T) :
    pushLoop elements none queue = (queue ++ elements, true) := by
  induction elements generalizing queue with
  | nil => simp [pushLoop]
  | cons element elements ih => simp [pushLoop, Fault.next, ih]

theorem pushLoop_some (elements queue : List T) (n : Nat) :
    pushLoop elements (some n) queue =
      (queue ++ elements.take n, decide (elements.length ≤ n)) := by
  induction elements generalizing queue n with
  | nil => simp [pushLoop]
  | cons element elements ih =>
    cases n with
    | zero => simp [pushLoop, Fault.next]
    | succ n => simp [pushLoop, Fault.next, ih]

theorem getFrontLoop_none (elementCount : Nat) (queue elements : List T) :
    getFrontLoop elementCount none queue elements =
      (queue.drop elementCount, some (elements ++ queue.take elementCount)) := by
  induction elementCount generalizing queue elements with
  | zero => simp [getFrontLoop]
  | succ elementCount ih =>
    cases queue with
    | nil => simp [getFrontLoop]
    | cons element queue => simp [getFrontLoop, Fault.next, ih]

theorem getFrontLoop_some (elementCount n : Nat) (queue elements : List T) :
    getFrontLoop elementCount (some n) queue elements =
      if min elementCount queue.length ≤ n then
        (queue.drop elementCount, some (elements ++ queue.take elementCount))
      else (queue.drop n, none) := by
  induction elementCount generalizing queue elements n with
  | zero => simp [getFrontLoop]
  | succ elementCount ih =>
    cases queue with
    | nil => simp [getFrontLoop]
    | cons element queue =>
      cases n with
      | zero => simp [getFrontLoop, Fault.next]
      | succ n =>
        simp only [getFrontLoop, Fault.next, ih, List.length_cons, List.drop_succ_cons,
          List.take_succ_cons, List.append_assoc, List.singleton_append,
          Nat.add_min_add_right, Nat.add_le_add_iff_right]

/-! ## The operations that loop -/

@[simp] theorem sync_mQueue : x.syncCachedSizeLocked.mQueue = x.mQueue := rfl

theorem pushAll_none (elements : List T) :
    x.pushAll elements none =
      ({ x with mQueue := x.mQueue ++ elements }.syncCachedSizeLocked, .done) := by
  simp [pushAll, pushLoop_none]

/-- A batch push that an exception leaves has pushed what stands before the element that
could not be moved. -/
theorem pushAll_some (elements : List T) (n : Nat) :
    x.pushAll elements (some n) =
      if elements.length ≤ n then
        ({ x with mQueue := x.mQueue ++ elements }.syncCachedSizeLocked, .done)
      else ({ x with mQueue := x.mQueue ++ elements.take n }, .threw) := by
  rw [pushAll, pushLoop_some]
  by_cases h : elements.length ≤ n
  · simp [h, List.take_of_length_le h]
  · simp [h]

theorem getFrontCount_none (elementCount : Nat) :
    x.getFrontCount elementCount none =
      ({ x with mQueue := x.mQueue.drop elementCount }.syncCachedSizeLocked,
        .queue (x.mQueue.take elementCount)) := by
  simp [getFrontCount, getFrontLoop_none]

theorem getFrontCount_some (elementCount n : Nat) :
    x.getFrontCount elementCount (some n) =
      if min elementCount x.mQueue.length ≤ n then
        ({ x with mQueue := x.mQueue.drop elementCount }.syncCachedSizeLocked,
          .queue (x.mQueue.take elementCount))
      else ({ x with mQueue := x.mQueue.drop n }, .threw) := by
  rw [getFrontCount, getFrontLoop_some]
  by_cases h : min elementCount x.mQueue.length ≤ n
  · simp only [if_pos h, List.nil_append]
  · simp only [if_neg h]

/-! ## No element operation throws -/

/-- The queue as a FIFO: what stands in it before a call and what the call pushes is what the
call hands out and what stands in the queue behind it. -/
theorem locked_fifo {op : QueueOp T} (hop : op.transfers = true) :
    x.mQueue ++ op.given = (x.locked none op).2.elements ++ (x.locked none op).1.mQueue := by
  cases op with
  | clear => cases hop
  | assign => cases hop
  | push element => rfl
  | emplace element => rfl
  | pushAll elements =>
    simp [locked, pushAll_none, QueueOp.given, QueueResult.elements]
  | tryGetFront =>
    cases hq : x.mQueue <;> simp [locked, tryGetFront, hq, Fault.next, QueueOp.given,
      QueueResult.elements]
  | tryGetFrontInto =>
    cases hq : x.mQueue <;> simp [locked, tryGetFrontInto, moveFront, tryGetFront, hq,
      Fault.next, QueueOp.given, QueueResult.elements]
  | getFront =>
    cases hq : x.mQueue <;> simp [locked, getFront, moveFront, tryGetFront, hq, Fault.next,
      QueueOp.given, QueueResult.elements, syncCachedSizeLocked]
  | getFrontCount elementCount =>
    simp [locked, getFrontCount_none, QueueOp.given, QueueResult.elements]
  | getAll => simp [locked, getAll, QueueOp.given, QueueResult.elements]

theorem locked_getFrontCount (elementCount : Nat) :
    (x.locked none (.getFrontCount elementCount)).2 =
      .queue (x.mQueue.take elementCount) := by
  simp [locked, getFrontCount_none]

/-! ## Element operations that throw -/

def Agrees (x : ThreadQueue T) : Prop := x.mQueueSize = x.mQueue.length

/-- The number of element operations of a call, when none of them throws. -/
def elementOps (x : ThreadQueue T) : QueueOp T → Nat
  | .push _ | .emplace _ => 1
  | .pushAll elements => elements.length
  | .tryGetFront => if x.mQueue.isEmpty then 0 else 2
  | .tryGetFrontInto | .getFront => if x.mQueue.isEmpty then 0 else 3
  | .getFrontCount elementCount => min elementCount x.mQueue.length
  | .clear | .getAll | .assign _ => 0

/-- No element operation of the call but its first one throws. -/
def FirstOnly (x : ThreadQueue T) (f : Fault) (op : QueueOp T) : Prop :=
  ∀ n, f = some n → n = 0 ∨ x.elementOps op ≤ n

instance (f : Fault) (op : QueueOp T) : Decidable (x.FirstOnly f op) :=
  match f with
  | none => isTrue fun _ h => nomatch h
  | some n => decidable_of_iff (n = 0 ∨ x.elementOps op ≤ n) (by simp [FirstOnly])

/-- The cached size is right behind the call, and where an exception leaves the call the
content is what it was. -/
def Keeps (x : ThreadQueue T) (f : Fault) (op : QueueOp T) : Prop :=
  (x.call f op).1.Agrees ∧
    ((x.call f op).2.exceptional = true → (x.call f op).1.mQueue = x.mQueue)

@[simp] theorem agrees_sync : x.syncCachedSizeLocked.Agrees := rfl

theorem keeps_of_unlocked {op : QueueOp T} {f : Fault} {result : QueueResult T}
    (hx : x.Agrees) (h : op.unlocked = some result) : x.Keeps f op := by
  simp [Keeps, call, h, hx]

theorem keeps_pushAll {elements : List T} {f : Fault} (hx : x.Agrees) :
    x.Keeps f (.pushAll elements) ↔ x.FirstOnly f (.pushAll elements) := by
  have hsize : x.mQueueSize = x.mQueue.length := hx
  rcases elements with _ | ⟨element, elements⟩
  · exact iff_of_true (keeps_of_unlocked hx rfl) fun n _ => .inr (Nat.zero_le n)
  · have hcall : x.call f (.pushAll (element :: elements)) =
        x.pushAll (element :: elements) f := rfl
    cases f with
    | none =>
      refine iff_of_true ?_ fun _ h => nomatch h
      simp [Keeps, hcall, pushAll_none, QueueResult.exceptional]
    | some n =>
      simp only [Keeps, hcall, pushAll_some, FirstOnly, Option.some.injEq, forall_eq', elementOps]
      by_cases hn : (element :: elements).length ≤ n
      · rw [if_pos hn]
        exact iff_of_true ⟨rfl, fun h => nomatch h⟩ (.inr hn)
      · -- what has been pushed stays, and its cached size is missing
        rw [if_neg hn]
        simp only [Agrees, List.length_append, List.length_take]
        constructor
        · rintro ⟨hagree, -⟩
          omega
        · rintro (rfl | h)
          · simpa using hsize
          · exact absurd h hn

theorem keeps_getFrontCount {elementCount : Nat} {f : Fault} (hx : x.Agrees) :
    x.Keeps f (.getFrontCount elementCount) ↔ x.FirstOnly f (.getFrontCount elementCount) := by
  have hsize : x.mQueueSize = x.mQueue.length := hx
  rcases elementCount with _ | elementCount
  · exact iff_of_true (keeps_of_unlocked hx rfl) fun n _ => .inr (by simp [elementOps])
  · have hcall : x.call f (.getFrontCount (elementCount + 1)) =
        x.getFrontCount (elementCount + 1) f := rfl
    cases f with
    | none =>
      refine iff_of_true ?_ fun _ h => nomatch h
      simp [Keeps, hcall, getFrontCount_none, QueueResult.exceptional]
    | some n =>
      simp only [Keeps, hcall, getFrontCount_some, FirstOnly, Option.some.injEq, forall_eq',
        elementOps]
      by_cases hn : min (elementCount + 1) x.mQueue.length ≤ n
      · rw [if_pos hn]
        exact iff_of_true ⟨rfl, fun h => nomatch h⟩ (.inr hn)
      · -- what has been taken out is lost, and the cached size still counts it
        rw [if_neg hn]
        simp only [Agrees, List.length_drop]
        constructor
        · rintro ⟨hagree, -⟩
          omega
        · rintro (rfl | h)
          · simpa using hsize
          · exact absurd h hn

/-- An element that `tryGetFront()` has taken out is lost where moving it on throws. -/
theorem keeps_moveFront {absent : QueueResult T} {f : Fault} (hx : x.Agrees) :
    ((x.moveFront absent f).1.Agrees ∧ ((x.moveFront absent f).2.exceptional = true →
      (x.moveFront absent f).1.mQueue = x.mQueue)) ↔
      ∀ n, f = some n → n = 0 ∨ (if x.mQueue.isEmpty then 0 else 3) ≤ n := by
  cases hq : x.mQueue with
  | nil => simp [moveFront, tryGetFront, hq, hx]
  | cons element queue =>
    rcases f with _ | _ | _ | _ | n <;>
      simp [moveFront, tryGetFront, hq, hx, Fault.next, QueueResult.exceptional]

theorem keeps_tryGetFront {f : Fault} (hx : x.Agrees) :
    x.Keeps f .tryGetFront ↔ x.FirstOnly f .tryGetFront := by
  cases hq : x.mQueue with
  | nil => simp [Keeps, call, QueueOp.unlocked, locked, tryGetFront, hq, hx, FirstOnly, elementOps]
  | cons element queue =>
    rcases f with _ | _ | _ | n <;>
      simp [Keeps, call, QueueOp.unlocked, locked, tryGetFront, hq, hx, Fault.next, FirstOnly,
        elementOps, QueueResult.exceptional]

theorem keeps_push {element : T} {f : Fault} (hx : x.Agrees) :
    (x.push element f).1.Agrees ∧
      ((x.push element f).2.exceptional = true → (x.push element f).1.mQueue = x.mQueue) := by
  rcases f with _ | _ | n <;> simp [push, Fault.next, hx, QueueResult.exceptional]

/-- A call keeps the cached size right, and the content where an exception leaves it, exactly
when no element operation of it but the first one throws. -/
theorem keeps_iff {op : QueueOp T} {f : Fault} (hx : x.Agrees) :
    x.Keeps f op ↔ x.FirstOnly f op := by
  cases op with
  | push element =>
    exact iff_of_true (keeps_push hx) fun n _ => by simp only [elementOps]; omega
  | emplace element =>
    exact iff_of_true (keeps_push hx) fun n _ => by simp only [elementOps]; omega
  | pushAll elements => exact keeps_pushAll hx
  | tryGetFront => exact keeps_tryGetFront hx
  | tryGetFrontInto => exact keeps_moveFront hx
  | getFront => exact keeps_moveFront hx
  | getFrontCount elementCount => exact keeps_getFrontCount hx
  | clear => exact iff_of_true ⟨rfl, fun h => nomatch h⟩ fun n _ => .inr (Nat.zero_le n)
  | getAll => exact iff_of_true ⟨rfl, fun h => nomatch h⟩ fun n _ => .inr (Nat.zero_le n)
  | assign queue => exact iff_of_true ⟨rfl, fun h => nomatch h⟩ fun n _ => .inr (Nat.zero_le n)

end ThreadQueue

/-! ## One queue, used by any number of threads -/

namespace SharedQueue
variable {C T : Type} [DecidableEq C] {s t : SharedQueue C T}

/-- Only the operations that push and hand out are called. -/
def Transfers (_ : SharedQueue C T) : QueueAction C T → Prop
  | .call _ op => op.transfers = true
  | .locked _ => True

instance (s : SharedQueue C T) (a : QueueAction C T) : Decidable (Transfers s a) := by
  cases a <;> unfold Transfers <;> infer_instance

theorem step_call {c : C} {op : QueueOp T} (h : s.step (.call c op) = some t) :
    t = { s with caller := t.caller } ∧ ∀ d op', t.caller d = .locking op' →
      s.caller d = .locking op' ∨ (d = c ∧ op' = op) := by
  simp only [step] at h
  split at h
  · cases h
  · obtain rfl := Option.some.inj h
    refine ⟨rfl, fun d op' hd => ?_⟩
    dsimp only at hd
    by_cases hdc : d = c
    · subst hdc
      rw [Function.update_self] at hd
      split at hd
      · cases hd
      · cases hd
        exact .inr ⟨rfl, rfl⟩
    · rw [Function.update_of_ne hdc] at hd
      exact .inl hd

theorem step_locked {c : C} :
    s.step (.locked c) = some t ↔ ∃ op, s.caller c = .locking op ∧ t =
      { queue := (s.queue.locked none op).1
        caller := Function.update s.caller c (.returned (s.queue.locked none op).2)
        pushed := s.pushed ++ op.given
        handedOut := s.handedOut ++ (s.queue.locked none op).2.elements } := by
  simp only [step]
  split <;> grind -linarith

/-- The order in which elements were pushed is the order in which they leave. -/
structure Fifo (s : SharedQueue C T) : Prop where
  transfers : ∀ c op, s.caller c = .locking op → op.transfers = true
  order : s.pushed = s.handedOut ++ s.queue.mQueue

theorem Fifo.step {a : QueueAction C T} (hx : Fifo s) (hok : Transfers s a)
    (h : s.step a = some t) : Fifo t := by
  cases a with
  | call c op =>
    obtain ⟨hsame, hcaller⟩ := step_call h
    refine ⟨fun d op' hd => ?_, by rw [hsame]; exact hx.order⟩
    rcases hcaller d op' hd with hold | ⟨-, rfl⟩
    · exact hx.transfers d op' hold
    · exact hok
  | locked c =>
    obtain ⟨op, hc, rfl⟩ := step_locked.mp h
    refine ⟨fun d op' hd => ?_, ?_⟩
    · by_cases hdc : d = c
      · subst hdc
        simp at hd
      · exact hx.transfers d op' (by simpa [Function.update_of_ne hdc] using hd)
    · have hlocked := ThreadQueue.locked_fifo (x := s.queue) (hx.transfers c op hc)
      calc s.pushed ++ op.given
          = s.handedOut ++ (s.queue.mQueue ++ op.given) := by rw [hx.order, List.append_assoc]
        _ = _ := by rw [hlocked, List.append_assoc]

theorem fifo_of_reachable (h : (sharedQueueSystem C T).ReachableBy Transfers s) : Fifo s :=
  ReachableBy.invariant { transfers := fun _ _ h => (nomatch h), order := rfl }
    (fun _ _ _ _ hx hok hs => hx.step hok hs) h

/-- What was pushed is what has been handed out and what is still there, in this order. A
batch is pushed as a whole by one locked section, every result is handed out as a whole by
one, and `getFront(n)` hands out `n` elements, or all where there are less. -/
theorem queue_is_fifo (h : (sharedQueueSystem C T).ReachableBy Transfers s) :
    s.pushed = s.handedOut ++ s.queue.mQueue ∧
    ∀ c t, s.step (.locked c) = some t → ∃ op result,
      s.caller c = .locking op ∧ t.caller c = .returned result ∧
      t.pushed = s.pushed ++ op.given ∧ t.handedOut = s.handedOut ++ result.elements ∧
      ∀ n, op = .getFrontCount n → result.elements.length = min n s.queue.mQueue.length := by
  refine ⟨(fifo_of_reachable h).order, fun c t hs => ?_⟩
  obtain ⟨op, hc, rfl⟩ := step_locked.mp hs
  refine ⟨op, (s.queue.locked none op).2, hc, by simp, rfl, rfl, ?_⟩
  rintro n rfl
  simp [ThreadQueue.locked_getFrontCount, QueueResult.elements]

/-- Thread 0 pushes a batch, and thread 1 takes two elements of it. -/
def batchSchedule : List (QueueAction Nat Nat) :=
  [.call 0 (.pushAll [1, 2, 3]), .call 1 (.getFrontCount 2), .locked 0, .locked 1]

theorem queue_is_fifo_batch :
    let s := (sharedQueueSystem Nat Nat).after Transfers {} batchSchedule
    s.handedOut = [1, 2] ∧ s.pushed = s.handedOut ++ s.queue.mQueue := by
  intro s
  exact ⟨by decide, (queue_is_fifo (s := s) (reaches_after (by decide))).1⟩

end SharedQueue

/-! ## Any number of queues, with element operations that throw -/

namespace Queues
variable {Q T : Type} [DecidableEq Q]

/-- In each call no element operation but the first one throws. -/
def FirstOnly (s : Q → ThreadQueue T) : QueuesAction Q T → Prop
  | .call q op fault => (s q).FirstOnly fault op
  | _ => True

instance (s : Q → ThreadQueue T) (a : QueuesAction Q T) : Decidable (FirstOnly s a) := by
  cases a <;> unfold FirstOnly <;> infer_instance

def Agree (s : Q → ThreadQueue T) : Prop := ∀ q, (s q).Agrees

theorem agree_update {s : Q → ThreadQueue T} {q : Q} {x : ThreadQueue T} (hs : Agree s)
    (hx : x.Agrees) : Agree (Function.update s q x) := by
  intro q'
  by_cases h : q' = q
  · subst h
    rwa [Function.update_self]
  · rw [Function.update_of_ne h]
    exact hs q'

theorem Agree.step {s t : Q → ThreadQueue T} {a : QueuesAction Q T} (hx : Agree s)
    (hok : FirstOnly s a) (h : Queues.step s a = some t) : Agree t := by
  cases a with
  | call q op fault =>
    obtain rfl := Option.some.inj h
    exact agree_update hx ((ThreadQueue.keeps_iff (hx q)).mpr hok).1
  | moveConstruct q other =>
    simp only [Queues.step, Option.ite_none_left_eq_some, Option.some.injEq] at h
    obtain ⟨-, rfl⟩ := h
    exact agree_update (agree_update hx rfl) rfl
  | moveAssign q other =>
    simp only [Queues.step] at h
    split at h
    · obtain rfl := Option.some.inj h
      exact hx
    · obtain rfl := Option.some.inj h
      exact agree_update (agree_update hx rfl) rfl

theorem agree_of_reachable {s : Q → ThreadQueue T}
    (h : (queuesSystem Q T).ReachableBy FirstOnly s) : Agree s :=
  ReachableBy.invariant (fun _ => rfl) (fun _ _ _ _ hx hok hs => hx.step hok hs) h

theorem empty_iff {x : ThreadQueue T} (hx : x.Agrees) (useCached : Bool) :
    x.empty useCached = true ↔ x.mQueue = [] := by
  have hsize : x.mQueueSize = x.mQueue.length := hx
  cases useCached <;> simp [ThreadQueue.empty, ThreadQueue.size, hsize]

/-- Where no element operation of a call but its first one throws, both sizes agree in every
queue and a call that an exception leaves changes no content. On a queue whose sizes agree
these are exactly the calls that leave it so. -/
theorem cached_size_is_right :
    (∀ s : Q → ThreadQueue T, (queuesSystem Q T).ReachableBy FirstOnly s →
      ∀ q, (s q).size true = (s q).size false ∧
        ((s q).empty true = true ↔ (s q).mQueue = []) ∧
        ∀ op fault, (s q).FirstOnly fault op → ((s q).call fault op).2.exceptional = true →
          ((s q).call fault op).1.mQueue = (s q).mQueue) ∧
    ∀ (x : ThreadQueue T) (op : QueueOp T) (fault : Fault), x.size true = x.size false →
      (((x.call fault op).1.size true = (x.call fault op).1.size false ∧
        ((x.call fault op).2.exceptional = true → (x.call fault op).1.mQueue = x.mQueue)) ↔
        x.FirstOnly fault op) := by
  refine ⟨fun s h q => ?_, fun x op fault hx => ThreadQueue.keeps_iff hx⟩
  have hq := agree_of_reachable h q
  exact ⟨hq, empty_iff hq true, fun op fault hok => ((ThreadQueue.keeps_iff hq).mpr hok).2⟩

/-- A batch push of one element that fails, and one that succeeds. -/
theorem cached_size_is_right_batch :
    let s := (queuesSystem Nat Nat).after FirstOnly (fun _ => {})
      [.call 0 (.pushAll [1]) (some 0), .call 0 (.pushAll [1, 2]) none]
    (s 0).size true = 2 ∧ (s 0).size true = (s 0).size false := by
  intro s
  exact ⟨by decide, (cached_size_is_right.1 s (reaches_after (by decide)) 0).1⟩

/-- A batch push that fails at its second element keeps the first one, which the cached size
does not count. -/
theorem failed_batch_leaves_stale_size :
    ¬ ∀ (s : Nat → ThreadQueue Nat), (queuesSystem Nat Nat).Reachable s → ∀ q,
      (s q).size true = (s q).size false := by
  intro hclaim
  let S := queuesSystem Nat Nat
  have h := hclaim (S.after Free S.init [.call 0 (.pushAll [1, 2]) (some 1)])
    (reaches_after (by decide)) 0
  revert h
  decide

end Queues

end ThreadComponent
