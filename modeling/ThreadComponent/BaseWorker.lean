import ThreadComponent.Transitions

/-!
# cBaseWorker_V2 as a guarded step function

One step is one `m_stateMutex` section, one atomic access or one boundary of a hook.
Any number of threads, named by `C`, are inside the public member functions; each
launched run has its own thread in `threadRunner`. What the hooks `preRun`, `run`
and `stopTriggered` do in between is left open here: they may last any time and
end in any way.
-/

set_option autoImplicit false

namespace ThreadComponent

inductive EnmState where
  | unknown
  | starting
  | running
  | stopping
  | stopped
  deriving DecidableEq, Repr

/-- The public calls that take part in the lifecycle. `wait` tells whether the
timeout argument is non-zero. -/
inductive Call where
  | startThread (wait : Bool)
  | stopThread (wait : Bool)
  | stopThreadAndJoin (wait : Bool)
  | requestStop
  | destructor
  deriving DecidableEq, Repr

inductive CallerPc where
  | idle
  | joinFinished (k : Call)
  | startSection (wait : Bool)
  | startCatch (wait : Bool) (r : Nat)
  | waitForStart (wait : Bool)
  | stopSection (k : Call)
  | stopTriggered (k : Call)
  | waitForStopped (k : Call)
  | joinThread (k : Call)
  | joining (k : Call) (r : Nat)
  | returned (k : Call) (result : Bool)
  deriving DecidableEq, Repr

inductive RunnerPc where
  | absent
  | entry
  | preRun
  | checkStop
  | setRunning
  | run
  | catching (e : Nat)
  | setStopped
  | exited
  deriving DecidableEq, Repr

/-- How a hook ends: with a value (`run` has none to give) or by an exception. -/
inductive HookEnd where
  | value (b : Bool)
  | threw (e : Nat)
  deriving DecidableEq, Repr

def RunnerPc.live (p : RunnerPc) : Prop := p ≠ .absent ∧ p ≠ .exited

instance (p : RunnerPc) : Decidable p.live := inferInstanceAs (Decidable (_ ∧ _))

def CallerPc.free : CallerPc → Bool
  | .idle | .returned _ _ => true
  | _ => false

/-- Where a call begins: `startThread` with `joinFinishedThread`, all others with
the locked section of `requestStop`. -/
def Call.entry : Call → CallerPc
  | .startThread wait => .joinFinished (.startThread wait)
  | k => .stopSection k

/-- What follows `requestStop()` inside each call. -/
def Call.afterRequestStop : Call → CallerPc
  | .stopThread true => .waitForStopped (.stopThread true)
  | .stopThread false => .joinFinished (.stopThread false)
  | .stopThreadAndJoin true => .waitForStopped (.stopThreadAndJoin true)
  | .stopThreadAndJoin false => .joinFinished (.stopThreadAndJoin false)
  | .destructor => .joinThread .destructor
  | k => .returned k true

/-- What follows a join helper inside each call. -/
def Call.afterJoin : Call → CallerPc
  | .startThread wait => .startSection wait
  | k => .returned k true

/-- What follows a `waitForStopped` that gave up: `stopThread` returns false and
only `stopThreadAndJoin` goes on to `joinThread`. -/
def Call.afterTimeout : Call → CallerPc
  | .stopThreadAndJoin wait => .joinThread (.stopThreadAndJoin wait)
  | k => .returned k false

structure BaseWorker (C : Type) where
  mState : EnmState := .stopped
  mStopRequested : Bool := false
  /-- The run whose thread the joinable `m_thread` stands for. -/
  mThread : Option Nat := none
  mLastUnhandledException : Option Nat := none
  /-- Number of runs begun so far; the next run gets this number. -/
  runs : Nat := 0
  thread : Nat → RunnerPc := fun _ => .absent
  caller : C → CallerPc := fun _ => .idle
  /-- `std::terminate` was called: a joinable `m_thread` was assigned to. -/
  terminated : Bool := false

inductive BaseAction (C : Type) where
  | call (c : C) (k : Call)
  | joinFinished (c : C)
  | startSection (c : C) (created : Bool)
  | startCatch (c : C)
  | waitForStart (c : C)
  | stopSection (c : C)
  | stopTriggeredEnd (c : C)
  | waitForStopped (c : C)
  | joinThread (c : C)
  | joined (c : C)
  | preRunBegin (r : Nat)
  | preRunEnd (r : Nat) (e : HookEnd)
  | checkStop (r : Nat)
  | setRunning (r : Nat)
  | runEnd (r : Nat) (e : HookEnd)
  | catchException (r : Nat)
  | setStopped (r : Nat)
  deriving DecidableEq, Repr

def EnmState.onRequestStop : EnmState → EnmState
  | .starting | .running => .stopping
  | m => m

/-- `shouldTriggerStop`, as the locked section of `requestStop` computes it. -/
def EnmState.shouldTriggerStop : EnmState → Bool
  | .starting | .running | .stopping => true
  | _ => false

namespace BaseWorker
variable {C : Type} [DecidableEq C]

def setCaller (s : BaseWorker C) (c : C) (p : CallerPc) : BaseWorker C :=
  { s with caller := Function.update s.caller c p }

def setThread (s : BaseWorker C) (r : Nat) (p : RunnerPc) : BaseWorker C :=
  { s with thread := Function.update s.thread r p }

def isRunning (s : BaseWorker C) : Bool :=
  s.mState = .starting ∨ s.mState = .running

def stopRequested (s : BaseWorker C) : Bool := s.mStopRequested

/-- `m_thread = std::thread(...)`: assigning to a joinable thread terminates. -/
def assignThread (s : BaseWorker C) (r : Nat) : BaseWorker C :=
  match s.mThread with
  | some _ => { s with terminated := true }
  | none => { s with mThread := some r }

/-- The guarded part of the locked section of `startThread`, before the thread
is created. -/
def beginRun (s : BaseWorker C) : BaseWorker C :=
  { s with
    mStopRequested := false
    mLastUnhandledException := none
    mState := .starting
    runs := s.runs + 1 }

def mayStart (s : BaseWorker C) : Bool := s.mState = .stopped ∧ s.mThread = none

/-- The try block of `startThread`. When creating the thread fails the lock is
released before the handler runs `setState(Stopped)`. -/
def startSection (s : BaseWorker C) (c : C) (wait created : Bool) : BaseWorker C :=
  if s.mayStart then
    if created then
      ((s.beginRun.assignThread s.runs).setThread s.runs .entry).setCaller c
        (if wait then .waitForStart wait else .returned (.startThread wait) true)
    else s.beginRun.setCaller c (.startCatch wait s.runs)
  else s.setCaller c (.returned (.startThread wait) false)

def setState (s : BaseWorker C) (m : EnmState) : BaseWorker C := { s with mState := m }

/-- The locked section of `requestStop`. -/
def requestStopSection (s : BaseWorker C) (c : C) (k : Call) : BaseWorker C :=
  { s with mStopRequested := true, mState := s.mState.onRequestStop }.setCaller c
    (if s.mState.shouldTriggerStop then .stopTriggered k else k.afterRequestStop)

/-- The locked section of `joinFinishedThread`: take the thread of an ended run. -/
def joinFinishedThread (s : BaseWorker C) (c : C) (k : Call) : BaseWorker C :=
  match s.mThread with
  | some r =>
    if s.mState = .stopped then { s with mThread := none }.setCaller c (.joining k r)
    else s.setCaller c k.afterJoin
  | none => s.setCaller c k.afterJoin

/-- The locked section of `joinThread`: take the thread whatever the state is. -/
def joinThread (s : BaseWorker C) (c : C) (k : Call) : BaseWorker C :=
  match s.mThread with
  | some r => { s with mThread := none }.setCaller c (.joining k r)
  | none => s.setCaller c k.afterJoin

def step (s : BaseWorker C) : BaseAction C → Option (BaseWorker C)
  | .call c k => if (s.caller c).free then some (s.setCaller c k.entry) else none
  | .joinFinished c =>
    match s.caller c with
    | .joinFinished k => some (s.joinFinishedThread c k)
    | _ => none
  | .startSection c created =>
    match s.caller c with
    | .startSection wait => some (s.startSection c wait created)
    | _ => none
  | .startCatch c =>
    match s.caller c with
    | .startCatch wait _ =>
      some ((s.setState .stopped).setCaller c (.returned (.startThread wait) false))
    | _ => none
  | .waitForStart c =>
    -- wait_for returns at any time; its predicate decides the result
    match s.caller c with
    | .waitForStart wait =>
      some (s.setCaller c (.returned (.startThread wait) (s.mState = .running)))
    | _ => none
  | .stopSection c =>
    match s.caller c with
    | .stopSection k => some (s.requestStopSection c k)
    | _ => none
  | .stopTriggeredEnd c =>
    match s.caller c with
    | .stopTriggered k => some (s.setCaller c k.afterRequestStop)
    | _ => none
  | .waitForStopped c =>
    match s.caller c with
    | .waitForStopped k =>
      some (s.setCaller c (if s.mState = .stopped then .joinFinished k else k.afterTimeout))
    | _ => none
  | .joinThread c =>
    match s.caller c with
    | .joinThread k => some (s.joinThread c k)
    | _ => none
  | .joined c =>
    match s.caller c with
    | .joining k r => if s.thread r = .exited then some (s.setCaller c k.afterJoin) else none
    | _ => none
  | .preRunBegin r => if s.thread r = .entry then some (s.setThread r .preRun) else none
  | .preRunEnd r e =>
    if s.thread r = .preRun then
      match e with
      | .value true => some (s.setThread r .checkStop)
      | .value false => some (s.setThread r .setStopped)
      | .threw e => some (s.setThread r (.catching e))
    else none
  | .checkStop r =>
    if s.thread r = .checkStop then
      some (s.setThread r (if s.stopRequested then .setStopped else .setRunning))
    else none
  | .setRunning r =>
    if s.thread r = .setRunning then some ((s.setState .running).setThread r .run) else none
  | .runEnd r e =>
    if s.thread r = .run then
      match e with
      | .value _ => some (s.setThread r .setStopped)
      | .threw e => some (s.setThread r (.catching e))
    else none
  | .catchException r =>
    match s.thread r with
    | .catching e =>
      some ({ s with mLastUnhandledException := some e }.setThread r .setStopped)
    | _ => none
  | .setStopped r =>
    if s.thread r = .setStopped then some ((s.setState .stopped).setThread r .exited) else none

end BaseWorker

open Transitions

def baseSystem (C : Type) [DecidableEq C] : System (BaseWorker C) (BaseAction C) where
  init := {}
  step := BaseWorker.step

end ThreadComponent
