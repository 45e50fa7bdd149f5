import ThreadComponent.DerivedWorker

/-!
# The start state of the HTTP servers

cHTTPServer, cHTTPSServer, cHTTPServer_V2 and cHTTPSServer_V2 report how a start went
through the same four fields and the same functions on them, each one locked section
of the server's own mutex. `startThread` resets the fields before it asks
cBaseWorker_V2 to start. What the hooks do is left to each class: a step of theirs
contributes at most one locked section that resolves the start or records an error.
-/

set_option autoImplicit false
set_option linter.unusedSectionVars false

namespace ThreadComponent

open Transitions System

structure StartState where
  startResolved : Bool := false
  startSucceeded : Bool := false
  listeningPort : Nat := 0
  lastError : String := ""
  deriving DecidableEq, Repr

inductive StartEvent where
  | resolveStartIfPending (success : Bool) (port : Nat) (errorMessage : String)
  | setLastError (errorMessage : String)
  deriving DecidableEq, Repr

namespace StartState

def resetStartState (_ : StartState) : StartState := {}

def resolveStartIfPending (x : StartState) (success : Bool) (port : Nat)
    (errorMessage : String) : StartState :=
  if x.startResolved then
    if errorMessage.isEmpty then x else { x with lastError := errorMessage }
  else
    { startResolved := true
      startSucceeded := success
      listeningPort := if success then port else 0
      lastError := errorMessage }

def setLastError (x : StartState) (errorMessage : String) : StartState :=
  { x with lastError := errorMessage }

def apply (x : StartState) : Option StartEvent → StartState
  | some (.resolveStartIfPending success port errorMessage) =>
    x.resolveStartIfPending success port errorMessage
  | some (.setLastError errorMessage) => x.setLastError errorMessage
  | none => x

end StartState

inductive StartPc where
  | idle
  | reset (wait : Bool)
  | inBase (wait : Bool)
  | waitUntilListening
  | returned (result : Bool)
  deriving DecidableEq, Repr

def StartPc.free : StartPc → Bool
  | .idle | .returned _ => true
  | _ => false

/-- What a server class adds: its own members, how they follow the steps of the worker,
and the steps of its hooks and of the threads it runs. -/
structure HttpBody (C X A : Type) where
  init : X
  sync : BaseWorker C → BaseAction C → X → Option X
  own : BaseWorker C → X → A → Option (X × Option StartEvent)

structure HttpServer (C X : Type) where
  start : StartState := {}
  /-- The port with which the latest run has resolved its start. -/
  reported : Option Nat := none
  starter : C → StartPc := fun _ => .idle
  body : X

inductive HttpAction (C A : Type) where
  | startThread (c : C) (wait : Bool)
  | startReturned (c : C)
  | waitUntilListening (c : C)
  | body (a : A)
  deriving DecidableEq, Repr

namespace HttpServer
variable {C X : Type} [DecidableEq C]

def setStarter (o : HttpServer C X) (c : C) (p : StartPc) : HttpServer C X :=
  { o with starter := Function.update o.starter c p }

/-- Pass on a report of the hooks. -/
def apply (o : HttpServer C X) (e : Option StartEvent) : HttpServer C X :=
  { o with
    start := o.start.apply e
    reported := match e with
      | some (.resolveStartIfPending true port _) =>
        if o.start.startResolved then o.reported else some port
      | _ => o.reported }

/-- A thread that is in `startThread` makes no other call, and cBaseWorker_V2 is asked
to start from there only, with a timeout of zero. -/
def calls (o : HttpServer C X) (c : C) : Call → Option (HttpServer C X)
  | .startThread false =>
    match o.starter c with
    | .reset wait => some (o.setStarter c (.inBase wait))
    | _ => none
  | .startThread true => none
  | _ => if (o.starter c).free then some o else none

end HttpServer

namespace HttpBody
variable {C X A : Type} [DecidableEq C] (B : HttpBody C X A)

def syncStart (s : BaseWorker C) (a : BaseAction C) (o : HttpServer C X) :
    Option (HttpServer C X) :=
  match a with
  | .call c k => o.calls c k
  | .startSection _ _ => some (if s.mayStart then { o with reported := none } else o)
  | _ => some o

def derived : Derived C (HttpServer C X) (HttpAction C A) where
  init := { body := B.init }
  sync s a o := (syncStart s a o).bind fun o' =>
    (B.sync s a o.body).map fun x => { o' with body := x }
  own s o
    | .startThread c wait =>
      if (s.caller c).free && (o.starter c).free then
        some ({ o with start := o.start.resetStartState }.setStarter c (.reset wait))
      else none
    | .startReturned c =>
      match o.starter c, s.caller c with
      | .inBase wait, .returned _ started =>
        some (o.setStarter c
          (if started && wait then .waitUntilListening else .returned started))
      | _, _ => none
    | .waitUntilListening c =>
      -- wait_for returns at any time; its predicate decides the result
      match o.starter c with
      | .waitUntilListening =>
        some (o.setStarter c (.returned (o.start.startResolved && o.start.startSucceeded)))
      | _ => none
    | .body a => (B.own s o.body a).map fun (x, e) => { o with body := x }.apply e

variable {B}

theorem syncStart_frame {s : BaseWorker C} {a : BaseAction C} {o o' : HttpServer C X}
    (h : syncStart s a o = some o') : o'.body = o.body ∧ o'.start = o.start := by
  cases a <;> simp only [syncStart, HttpServer.calls] at h <;>
    grind -linarith [HttpServer.setStarter]

/-- Only a launch forgets what the run before it has reported. -/
theorem syncStart_reported {s : BaseWorker C} {a : BaseAction C} {o o' : HttpServer C X}
    (h : syncStart s a o = some o') :
    (∃ c created, a = .startSection c created ∧ s.mayStart = true ∧ o'.reported = none) ∨
      ((∀ c created, a = .startSection c created → s.mayStart = false) ∧
        o'.reported = o.reported) := by
  cases a <;> simp only [syncStart, HttpServer.calls] at h <;>
    grind -linarith [HttpServer.setStarter]

/-- What a step of the server does to the start state and to the members of the class. -/
inductive BodyStep (B : HttpBody C X A) (s t : Object C (HttpServer C X)) :
    ObjectAction C (HttpAction C A) → Prop where
  | base {a : BaseAction C} (hs : s.base.step a = some t.base)
      (hx : B.sync s.base a s.ext.body = some t.ext.body) (hstart : t.ext.start = s.ext.start)
      (hreported : (∃ c created, a = .startSection c created ∧ s.base.mayStart = true ∧
          t.ext.reported = none) ∨
        ((∀ c created, a = .startSection c created → s.base.mayStart = false) ∧
          t.ext.reported = s.ext.reported)) : BodyStep B s t (.base a)
  | own {a : A} {e : Option StartEvent} (hbase : t.base = s.base)
      (hx : B.own s.base s.ext.body a = some (t.ext.body, e))
      (hext : t.ext = { s.ext with body := t.ext.body }.apply e) :
      BodyStep B s t (.own (.body a))
  | caller {a : HttpAction C A} (hbase : t.base = s.base) (hx : t.ext.body = s.ext.body)
      (ha : ∀ b, a ≠ .body b) (hreported : t.ext.reported = s.ext.reported)
      (hstart : ((∀ c wait, a ≠ .startThread c wait) ∧ t.ext.start = s.ext.start) ∨
        ∃ c wait, a = .startThread c wait ∧ t.ext.start = s.ext.start.resetStartState) :
      BodyStep B s t (.own a)

theorem bodyStep_of_step {s t : Object C (HttpServer C X)}
    {a : ObjectAction C (HttpAction C A)} (h : B.derived.step s a = some t) :
    BodyStep B s t a := by
  cases a with
  | base a =>
    obtain ⟨hs, hx⟩ := Derived.step_base.mp h
    simp only [derived, Option.bind_eq_some_iff, Option.map_eq_some_iff] at hx
    obtain ⟨o, ho, x, hx, he⟩ := hx
    have hstart := (syncStart_frame ho).2
    have hreported := syncStart_reported ho
    exact .base hs (by simpa [← he] using hx) (by simpa [← he] using hstart)
      (by simpa [← he] using hreported)
  | own a =>
    obtain ⟨hs, hx⟩ := Derived.step_own.mp h
    cases a with
    | body a =>
      simp only [derived, Option.map_eq_some_iff] at hx
      obtain ⟨⟨x, e⟩, hx, he⟩ := hx
      exact .own (e := e) hs (by simpa [← he, HttpServer.apply] using hx)
        (by simp [← he, HttpServer.apply])
    | startThread c wait =>
      simp only [derived, Option.ite_none_right_eq_some, Option.some.injEq] at hx
      obtain ⟨-, he⟩ := hx
      exact .caller hs (by simp [← he, HttpServer.setStarter]) (by simp)
        (by simp [← he, HttpServer.setStarter])
        (.inr ⟨c, wait, rfl, by simp [← he, HttpServer.setStarter]⟩)
    | startReturned c =>
      simp only [derived] at hx
      refine .caller hs ?_ (by simp) ?_ (.inl ⟨by simp, ?_⟩) <;>
        grind -linarith [HttpServer.setStarter]
    | waitUntilListening c =>
      simp only [derived] at hx
      refine .caller hs ?_ (by simp) ?_ (.inl ⟨by simp, ?_⟩) <;>
        grind -linarith [HttpServer.setStarter]

end HttpBody

end ThreadComponent
