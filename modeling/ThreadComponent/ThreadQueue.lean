import ThreadComponent.Transitions

/-!
# cThreadQueue_V2

Every operation has one section of `m_mutex`, so it acts on the queue in one step. The
insertion or the move of an element may throw; it then leaves its operands as they were.
The moves of whole containers do not throw.
-/

set_option autoImplicit false

namespace ThreadComponent

open Transitions System

/-- The element operations of one call: `some n` when `n` of them succeed and the next one
throws, `none` when all succeed. -/
abbrev Fault := Option Nat

/-- What is left for the element operations behind the next one; `none` where that throws. -/
def Fault.next : Fault → Option Fault
  | none => some none
  | some 0 => none
  | some (n + 1) => some (some n)

structure ThreadQueue (T : Type) where
  mQueue : List T := []
  mQueueSize : Nat := 0

/-- How a call ends: `done` where nothing is handed out by design, `underflow` with the
`underflow_error` of `getFront`, `threw` with the exception of an element operation. -/
inductive QueueResult (T : Type) where
  | done
  | front (element : Option T)
  | queue (elements : List T)
  | underflow
  | threw
  deriving DecidableEq, Repr

def QueueResult.elements {T : Type} : QueueResult T → List T
  | .front element => element.toList
  | .queue elements => elements
  | _ => []

def QueueResult.exceptional {T : Type} : QueueResult T → Bool
  | .underflow | .threw => true
  | _ => false

/-- The operations on one queue. `pushAll` is `push(std::queue<Type>)`, `tryGetFrontInto` is
`tryGetFront(Type &)`, `getFrontCount` is `getFront(std::size_t)` and `assign` is the
assignment from a `std::queue`. -/
inductive QueueOp (T : Type) where
  | clear
  | push (element : T)
  | pushAll (elements : List T)
  | emplace (element : T)
  | tryGetFront
  | tryGetFrontInto
  | getFront
  | getFrontCount (elementCount : Nat)
  | getAll
  | assign (queue : List T)
  deriving DecidableEq, Repr

/-- The operations that only push elements and hand them out. -/
def QueueOp.transfers {T : Type} : QueueOp T → Bool
  | .clear | .assign _ => false
  | _ => true

/-- The calls that return before they take the mutex. -/
def QueueOp.unlocked {T : Type} : QueueOp T → Option (QueueResult T)
  | .pushAll [] => some .done
  | .getFrontCount 0 => some (.queue [])
  | _ => none

namespace ThreadQueue
variable {T : Type}

def size (x : ThreadQueue T) (useCached : Bool) : Nat :=
  if useCached then x.mQueueSize else x.mQueue.length

def empty (x : ThreadQueue T) (useCached : Bool) : Bool := x.size useCached = 0

def syncCachedSizeLocked (x : ThreadQueue T) : ThreadQueue T :=
  { x with mQueueSize := x.mQueue.length }

def clear (_ : ThreadQueue T) : ThreadQueue T := {}

def assign (x : ThreadQueue T) (queue : List T) : ThreadQueue T :=
  { x with mQueue := queue }.syncCachedSizeLocked

/-- `push` of one element, and `emplace`. -/
def push (x : ThreadQueue T) (element : T) (f : Fault) : ThreadQueue T × QueueResult T :=
  match f.next with
  | some _ => ({ x with mQueue := x.mQueue ++ [element] }.syncCachedSizeLocked, .done)
  | none => (x, .threw)

/-- The loop of `push(std::queue<Type>)` with the content of the queue; `false` where an
exception leaves it. -/
def pushLoop : List T → Fault → List T → List T × Bool
  | [], _, queue => (queue, true)
  | element :: elements, f, queue =>
    match f.next with
    | some f => pushLoop elements f (queue ++ [element])
    | none => (queue, false)

def pushAll (x : ThreadQueue T) (elements : List T) (f : Fault) :
    ThreadQueue T × QueueResult T :=
  match pushLoop elements f x.mQueue with
  | (queue, true) => ({ x with mQueue := queue }.syncCachedSizeLocked, .done)
  | (queue, false) => ({ x with mQueue := queue }, .threw)

/-- `tryGetFront()`: the element is moved out of the queue and then into the result. With the
result goes what is left for the element operations of the caller. -/
def tryGetFront (x : ThreadQueue T) (f : Fault) : ThreadQueue T × Option (Option T × Fault) :=
  match x.mQueue with
  | [] => (x, some (none, f))
  | element :: queue =>
    match f.next with
    | none => (x, none)
    | some f =>
      ({ x with mQueue := queue }.syncCachedSizeLocked, f.next.map fun f => (some element, f))

/-- A member function that moves the result of `tryGetFront()` on; `absent` is what it gives
where there is no element. -/
def moveFront (x : ThreadQueue T) (absent : QueueResult T) (f : Fault) :
    ThreadQueue T × QueueResult T :=
  match x.tryGetFront f with
  | (y, none) => (y, .threw)
  | (y, some (none, _)) => (y, absent)
  | (y, some (some element, f)) =>
    (y, match f.next with
      | some _ => .front (some element)
      | none => .threw)

def tryGetFrontInto (x : ThreadQueue T) (f : Fault) : ThreadQueue T × QueueResult T :=
  x.moveFront (.front none) f

def getFront (x : ThreadQueue T) (f : Fault) : ThreadQueue T × QueueResult T :=
  x.moveFront .underflow f

/-- The loop of `getFront(std::size_t)`: the content of the queue, and the elements taken
unless an exception leaves the loop. -/
def getFrontLoop : Nat → Fault → List T → List T → List T × Option (List T)
  | 0, _, queue, elements => (queue, some elements)
  | _ + 1, _, [], elements => ([], some elements)
  | elementCount + 1, f, element :: queue, elements =>
    match f.next with
    | some f => getFrontLoop elementCount f queue (elements ++ [element])
    | none => (element :: queue, none)

def getFrontCount (x : ThreadQueue T) (elementCount : Nat) (f : Fault) :
    ThreadQueue T × QueueResult T :=
  match getFrontLoop elementCount f x.mQueue [] with
  | (queue, some elements) =>
    ({ x with mQueue := queue }.syncCachedSizeLocked, .queue elements)
  | (queue, none) => ({ x with mQueue := queue }, .threw)

def getAll (x : ThreadQueue T) : ThreadQueue T × QueueResult T := ({}, .queue x.mQueue)

/-- What a call does once it has the mutex. -/
def locked (x : ThreadQueue T) (f : Fault) : QueueOp T → ThreadQueue T × QueueResult T
  | .clear => (x.clear, .done)
  | .push element | .emplace element => x.push element f
  | .pushAll elements => x.pushAll elements f
  | .tryGetFront =>
    match x.tryGetFront f with
    | (y, some (element, _)) => (y, .front element)
    | (y, none) => (y, .threw)
  | .tryGetFrontInto => x.tryGetFrontInto f
  | .getFront => x.getFront f
  | .getFrontCount elementCount => x.getFrontCount elementCount f
  | .getAll => x.getAll
  | .assign queue => (x.assign queue, .done)

def call (x : ThreadQueue T) (f : Fault) (op : QueueOp T) : ThreadQueue T × QueueResult T :=
  match op.unlocked with
  | some result => (x, result)
  | none => x.locked f op

/-- `moveFrom`, with what it leaves of `other`. -/
def moveFrom (x other : ThreadQueue T) : ThreadQueue T × ThreadQueue T :=
  ({ x with mQueue := other.mQueue }.syncCachedSizeLocked, {})

end ThreadQueue

/-! ## One queue, used by any number of threads -/

inductive QueueCaller (T : Type) where
  | idle
  | locking (op : QueueOp T)
  | returned (result : QueueResult T)
  deriving DecidableEq, Repr

structure SharedQueue (C T : Type) where
  queue : ThreadQueue T := {}
  caller : C → QueueCaller T := fun _ => .idle
  /-- The elements pushed, in the order of the locked sections. -/
  pushed : List T := []
  /-- The elements handed out, in the order of the locked sections. -/
  handedOut : List T := []

def QueueOp.given {T : Type} : QueueOp T → List T
  | .push element | .emplace element => [element]
  | .pushAll elements => elements
  | _ => []

inductive QueueAction (C T : Type) where
  | call (c : C) (op : QueueOp T)
  | locked (c : C)
  deriving DecidableEq, Repr

namespace SharedQueue
variable {C T : Type} [DecidableEq C]

/-- The calls from outside: no element operation throws. -/
def step (s : SharedQueue C T) : QueueAction C T → Option (SharedQueue C T)
  | .call c op =>
    match s.caller c with
    | .locking _ => none
    | _ => some { s with
        caller := Function.update s.caller c (match op.unlocked with
          | some result => .returned result
          | none => .locking op) }
  | .locked c =>
    match s.caller c with
    | .locking op =>
      let (queue, result) := s.queue.locked none op
      some {
        queue := queue
        caller := Function.update s.caller c (.returned result)
        pushed := s.pushed ++ op.given
        handedOut := s.handedOut ++ result.elements }
    | _ => none

end SharedQueue

def sharedQueueSystem (C T : Type) [DecidableEq C] :
    System (SharedQueue C T) (QueueAction C T) where
  init := {}
  step := SharedQueue.step

/-! ## Any number of queues, with element operations that throw -/

inductive QueuesAction (Q T : Type) where
  | call (q : Q) (op : QueueOp T) (fault : Fault)
  | moveConstruct (q other : Q)
  | moveAssign (q other : Q)
  deriving DecidableEq, Repr

namespace Queues
variable {Q T : Type} [DecidableEq Q]

def step (s : Q → ThreadQueue T) : QueuesAction Q T → Option (Q → ThreadQueue T)
  | .call q op fault => some (Function.update s q ((s q).call fault op).1)
  | .moveConstruct q other =>
    -- `q` is a new object, so it is not the one it is made of
    if q = other then none
    else some (Function.update (Function.update s q (ThreadQueue.moveFrom {} (s other)).1) other
      (ThreadQueue.moveFrom {} (s other)).2)
  | .moveAssign q other =>
    if q = other then some s
    else
      some (Function.update (Function.update s q ((s q).moveFrom (s other)).1) other
        ((s q).moveFrom (s other)).2)

end Queues

def queuesSystem (Q T : Type) [DecidableEq Q] :
    System (Q → ThreadQueue T) (QueuesAction Q T) where
  init := fun _ => {}
  step := Queues.step

end ThreadComponent
