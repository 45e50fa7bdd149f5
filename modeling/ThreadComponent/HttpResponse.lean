import ThreadComponent.Transitions

/-!
# cResponse: handles that share one writer

The handle class is the same text in cHTTPServer and cHTTPSServer. Handles are numbered
in the order of their construction and may be used on different threads. One step is one
shared_ptr operation, one atomic access to `responded`, one reading of `use_count()` or
one call of the writer.
-/

set_option autoImplicit false

namespace ThreadComponent

open Transitions

structure Field where
  name : String
  value : String
  deriving DecidableEq, Repr

abbrev Fields := List Field

structure Written where
  statusCode : Nat
  body : String
  headers : Fields
  deriving DecidableEq, Repr

inductive WriteCall where
  | writeBody (body : String)
  | write (statusCode : Nat) (body : String) (headers : Fields)
  | writeHeaders (statusCode : Nat) (headers : Fields)
  | redirect (location : String) (statusCode : Nat)
  deriving DecidableEq, Repr

/-- Every overload ends in `write(statusCode, body, headers)`. -/
def WriteCall.written : WriteCall → Written
  | .writeBody body => ⟨200, body, []⟩
  | .write statusCode body headers => ⟨statusCode, body, headers⟩
  | .writeHeaders statusCode headers => ⟨statusCode, "", headers⟩
  | .redirect location statusCode => ⟨statusCode, "", [⟨"Location", location⟩]⟩

/-- What the destructor writes when nobody has responded. -/
def automaticResponse : Written := (WriteCall.writeHeaders 204 []).written

/-- A handle. In its destructor it has read `responded` (`testing`), then `use_count()`
(`answering` if it was 1, `leaving` otherwise); `releasing` is left with dropping
`m_state` of an answered request. -/
inductive Handle where
  | live (mState : Option Nat)
  | testing (i : Nat)
  | answering (i : Nat)
  | leaving (i : Nat)
  | releasing (i : Nat)
  | gone
  deriving DecidableEq, Repr

def Handle.refersTo (i : Nat) : Handle → Bool
  | .live m => m = some i
  | .testing j | .answering j | .leaving j | .releasing j => j = i
  | .gone => false

/-- `st_State`, with the calls of its writer and, as a record of what was asked for,
the explicit responses in the order in which they reached `responded`. -/
structure ResponseState where
  responded : Bool := false
  /-- A call that has won the exchange on this handle and not yet called the writer. -/
  pending : Option (Nat × Written) := none
  written : List Written := []
  asked : List Written := []
  deriving DecidableEq, Repr

structure Responses where
  handles : List Handle := []
  /-- Number of states made so far. -/
  states : Nat := 0
  state : Nat → ResponseState := fun _ => {}

inductive ResponseAction where
  | make
  | defaultConstruct
  | copyConstruct (h : Nat)
  | moveConstruct (h : Nat)
  | copyAssign (h source : Nat)
  | moveAssign (h source : Nat)
  | write (h : Nat) (w : WriteCall)
  | callWriter (i : Nat)
  | destroy (h : Nat)
  | useCount (h : Nat)
  | answer (h : Nat)
  | release (h : Nat)
  deriving DecidableEq, Repr

namespace ResponseState

/-- `write`: the first exchange of `responded` wins. -/
def exchange (x : ResponseState) (h : Nat) (w : Written) : ResponseState :=
  if x.responded then x else { x with responded := true, pending := some (h, w) }

def ask (x : ResponseState) (h : Nat) (w : Written) : ResponseState :=
  { x.exchange h w with asked := x.asked ++ [w] }

def call (x : ResponseState) (w : Written) : ResponseState :=
  { x with pending := none, written := x.written ++ [w] }

/-- Is a `write` on handle `h` still on its way to the writer? -/
def busy (x : ResponseState) (h : Nat) : Bool := (x.pending.map Prod.fst) = some h

end ResponseState

namespace Responses

def useCount (w : Responses) (i : Nat) : Nat := w.handles.countP (Handle.refersTo i)

/-- `m_state` of a handle that is alive and on which no `write` is in progress: C++
forbids changing or destroying an object that another thread is using. -/
def idle (w : Responses) (h : Nat) : Option (Option Nat) :=
  match w.handles[h]? with
  | some (.live none) => some none
  | some (.live (some i)) => if (w.state i).busy h then none else some (some i)
  | _ => none

/-- `m_state` of a handle that is alive. -/
def mState (w : Responses) (h : Nat) : Option (Option Nat) :=
  match w.handles[h]? with
  | some (.live m) => some m
  | _ => none

def setHandle (w : Responses) (h : Nat) (x : Handle) : Responses :=
  { w with handles := w.handles.set h x }

def setState (w : Responses) (i : Nat) (x : ResponseState) : Responses :=
  { w with state := Function.update w.state i x }

def addHandle (w : Responses) (m : Option Nat) : Responses :=
  { w with handles := w.handles ++ [.live m] }

def step (w : Responses) : ResponseAction → Option Responses
  | .make =>
    some ({ w with states := w.states + 1 }.setState w.states {} |>.addHandle (some w.states))
  | .defaultConstruct => some (w.addHandle none)
  | .copyConstruct h => (w.mState h).map fun m => w.addHandle m
  | .moveConstruct h => (w.idle h).map fun m => (w.setHandle h (.live none)).addHandle m
  | .copyAssign h source =>
    (w.idle h).bind fun _ => (w.mState source).map fun m => w.setHandle h (.live m)
  | .moveAssign h source =>
    (w.idle h).bind fun _ => (w.idle source).map fun m =>
      if h = source then w else (w.setHandle source (.live none)).setHandle h (.live m)
  | .write h x =>
    match w.mState h with
    | some (some i) => some (w.setState i ((w.state i).ask h x.written))
    | some none => some w
    | none => none
  | .callWriter i =>
    match (w.state i).pending with
    | some (_, x) => some (w.setState i ((w.state i).call x))
    | none => none
  | .destroy h =>
    match w.idle h with
    | some none => some (w.setHandle h .gone)
    | some (some i) =>
      some (w.setHandle h (if (w.state i).responded then .releasing i else .testing i))
    | none => none
  | .useCount h =>
    match w.handles[h]? with
    | some (.testing i) =>
      some (w.setHandle h (if w.useCount i = 1 then .answering i else .leaving i))
    | _ => none
  | .answer h =>
    match w.handles[h]? with
    | some (.answering i) =>
      some ((w.setState i ((w.state i).exchange h automaticResponse)).setHandle h (.releasing i))
    | _ => none
  | .release h =>
    match w.handles[h]? with
    | some (.leaving _) => some (w.setHandle h .gone)
    | some (.releasing i) => if (w.state i).busy h then none else some (w.setHandle h .gone)
    | _ => none

end Responses

def responseSystem : System Responses ResponseAction where
  init := {}
  step := Responses.step

end ThreadComponent
