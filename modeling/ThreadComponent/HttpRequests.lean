import ThreadComponent.HttpResponseSafety
import ThreadComponent.HttpServerV1

/-!
# The request wrappers of cHTTPServer and cHTTPSServer

`preRun` installs one closure for each route. It makes the response handle, runs the handler
of the route on it, and responds itself if the handler throws; leaving the closure, by an
exception too, destroys the handle. A handler is modelled by what it does with the handle that
it is given: it writes, keeps no copy, and returns or throws.
-/

set_option autoImplicit false

namespace ThreadComponent

open Transitions System

structure HandlerRun where
  writes : List WriteCall := []
  thrown : Option Failure := none
  deriving DecidableEq, Repr

section Wrapper
variable {Request : Type}

abbrev RequestHandler (Request : Type) := Request → HandlerRun

/-- The call gets the request, a code and a message, and returns or throws. -/
abbrev RequestErrorHandler (Request : Type) := Request → Int → String → Option Failure

/-- What a wrapper leaves: the state of the response, `lastError`, the calls of the error
handler, and the exception that goes on to the library. -/
structure Handled where
  response : ResponseState
  lastError : String
  reported : List (Int × String) := []
  escaped : Option Failure := none
  deriving DecidableEq, Repr

namespace ResponseState

/-- `write` on the thread of the request: the call of the writer is over when it returns. -/
def write (x : ResponseState) (c : WriteCall) : ResponseState :=
  if x.responded then { x with asked := x.asked ++ [c.written] }
  else
    { x with
      responded := true
      written := x.written ++ [c.written]
      asked := x.asked ++ [c.written] }

/-- The destructor of the only handle: `use_count()` is 1. -/
def destroy (x : ResponseState) : ResponseState :=
  if x.responded then x
  else { x with responded := true, written := x.written ++ [automaticResponse] }

end ResponseState

/-- What the catch clauses write. -/
def internalError (message : String) : WriteCall :=
  .write 500 message [⟨"Content-Type", "text/plain; charset=utf-8"⟩]

/-- `unhandled` is the message for an exception that is no `std::exception`. -/
def requestWrapper (unhandled : String) (handler : RequestHandler Request)
    (errorHandler : Option (RequestErrorHandler Request)) (request : Request)
    (lastError : String) : Handled :=
  let wrappedResponse := (handler request).writes.foldl ResponseState.write {}
  match (handler request).thrown with
  | none => { response := wrappedResponse.destroy, lastError }
  | some error =>
    let message := error.message unhandled
    match errorHandler with
    | none =>
      { response := (wrappedResponse.write (internalError message)).destroy
        lastError := message }
    | some errorHandler =>
      match errorHandler request (-1) message with
      | none =>
        { response := (wrappedResponse.write (internalError message)).destroy
          lastError := message, reported := [(-1, message)] }
      -- out of the catch clause, so that nothing comes behind but the destructor
      | some error =>
        { response := wrappedResponse.destroy
          lastError := message, reported := [(-1, message)], escaped := some error }

inductive RouteTable where
  | resource
  | defaultResource
  deriving DecidableEq, Repr

def unhandledMessage : HttpKind → RouteTable → String
  | .http, .resource => "Unhandled request handler exception"
  | .http, .defaultResource => "Unhandled default handler exception"
  | .https, .resource => "Unhandled HTTPS request handler exception"
  | .https, .defaultResource => "Unhandled HTTPS default handler exception"

/-- The closure that `preRun` installs for a route of one of its two tables. -/
def preRunWrapper (kind : HttpKind) (table : RouteTable) :
    RequestHandler Request → Option (RequestErrorHandler Request) → Request → String → Handled :=
  requestWrapper (unhandledMessage kind table)

/-! ## What the client is sent -/

/-- The response that the outcome of a handler asks for. -/
def expectedResponse (unhandled : String) (run : HandlerRun) : Written :=
  match run.writes, run.thrown with
  | c :: _, _ => c.written
  | [], some error => (internalError (error.message unhandled)).written
  | [], none => (WriteCall.writeHeaders 204 []).written

/-- If the handler throws and has not responded, the error handler returns. -/
def ErrorHandlerReturns (unhandled : String) (run : HandlerRun)
    (errorHandler : Option (RequestErrorHandler Request)) (request : Request) : Prop :=
  run.writes = [] → ∀ error, run.thrown = some error →
    ∀ f, errorHandler = some f → f request (-1) (error.message unhandled) = none

namespace ResponseState
variable {x : ResponseState} {c : WriteCall}

theorem write_pending : (x.write c).pending = x.pending := by
  unfold write
  split <;> rfl

theorem write_of_responded (hx : x.responded = true) :
    x.write c = { x with asked := x.asked ++ [c.written] } := if_pos hx

theorem foldl_write_of_responded (hx : x.responded = true) (cs : List WriteCall) :
    cs.foldl write x = { x with asked := x.asked ++ cs.map WriteCall.written } := by
  induction cs generalizing x with
  | nil => simp
  | cons c cs ih =>
    rw [List.foldl_cons, ih (x := x.write c) (by rw [write_of_responded hx]; exact hx),
      write_of_responded hx]
    simp

/-- The first write is the response; the others are asked for in vain. -/
theorem foldl_write_cons (c : WriteCall) (cs : List WriteCall) :
    (c :: cs).foldl write {} =
      { responded := true, written := [c.written]
        asked := c.written :: cs.map WriteCall.written } :=
  foldl_write_of_responded (x := write {} c) rfl cs

theorem destroy_of_responded (hx : x.responded = true) : x.destroy = x := if_pos hx

theorem destroy_write_of_responded (hx : x.responded = true) :
    (x.write c).destroy.written = x.written := by
  rw [destroy_of_responded (by rw [write_of_responded hx]; exact hx), write_of_responded hx]

end ResponseState

section Outcome
variable {unhandled lastError : String} {handler : RequestHandler Request}
  {errorHandler : Option (RequestErrorHandler Request)} {request : Request}

theorem requestWrapper_of_writes (hwrites : (handler request).writes ≠ []) :
    (requestWrapper unhandled handler errorHandler request lastError).response.written =
      [expectedResponse unhandled (handler request)] := by
  obtain ⟨c, cs, hcs⟩ := List.exists_cons_of_ne_nil hwrites
  have hexpected : expectedResponse unhandled (handler request) = c.written := by
    rw [expectedResponse, hcs]
  obtain ⟨hresponded, hwritten⟩ :
      ((handler request).writes.foldl ResponseState.write {}).responded = true ∧
        ((handler request).writes.foldl ResponseState.write {}).written = [c.written] := by
    rw [hcs, ResponseState.foldl_write_cons]
    exact ⟨rfl, rfl⟩
  have hdestroyed := congrArg ResponseState.written
    (ResponseState.destroy_of_responded hresponded)
  rw [hexpected, ← hwritten]
  unfold requestWrapper
  cases (handler request).thrown with
  | none => exact hdestroyed
  | some error =>
    cases errorHandler with
    | none => exact ResponseState.destroy_write_of_responded hresponded
    | some f =>
      cases hf : f request (-1) (error.message unhandled) with
      | none =>
        simp only [hf]
        exact ResponseState.destroy_write_of_responded hresponded
      | some error' =>
        simp only [hf]
        exact hdestroyed

theorem requestWrapper_of_returns (hwrites : (handler request).writes = [])
    (hreturns : ErrorHandlerReturns unhandled (handler request) errorHandler request) :
    (requestWrapper unhandled handler errorHandler request lastError).response.written =
      [expectedResponse unhandled (handler request)] := by
  unfold requestWrapper expectedResponse
  rw [hwrites]
  cases ht : (handler request).thrown with
  | none => rfl
  | some error =>
    cases errorHandler with
    | none => rfl
    | some f =>
      simp only [hreturns hwrites error ht f rfl]
      rfl

/-- An error handler that throws takes the response of the catch clause away, and the
destructor answers as if nothing had failed. -/
theorem requestWrapper_of_throws {error error' : Failure} {f : RequestErrorHandler Request}
    (hwrites : (handler request).writes = []) (hthrown : (handler request).thrown = some error)
    (hf : f request (-1) (error.message unhandled) = some error') :
    (requestWrapper unhandled handler (some f) request lastError).response.written =
      [automaticResponse] := by
  unfold requestWrapper
  rw [hwrites, hthrown]
  simp only [hf]
  rfl

theorem requestWrapper_answers_iff :
    (requestWrapper unhandled handler errorHandler request lastError).response.written =
        [expectedResponse unhandled (handler request)] ↔
      ErrorHandlerReturns unhandled (handler request) errorHandler request := by
  constructor
  · intro hwritten hwrites error hthrown f hf
    subst hf
    cases hthrows : f request (-1) (error.message unhandled) with
    | none => rfl
    | some error' =>
      rw [requestWrapper_of_throws hwrites hthrown hthrows, expectedResponse, hwrites,
        hthrown] at hwritten
      -- 204 is not 500
      have hstatus := congrArg Written.statusCode (List.cons.inj hwritten).1
      cases hstatus
  · intro hreturns
    by_cases hwrites : (handler request).writes = []
    · exact requestWrapper_of_returns hwrites hreturns
    · exact requestWrapper_of_writes hwrites

end Outcome

end Wrapper

/-! ## A wrapper among the handles of the other requests

The wrapper's calls are steps of the handles, so that what holds over all runs of the handles
holds of the wrappers. -/

namespace Responses
variable {w : Responses} {h i : Nat}

theorem setState_setState (w : Responses) (i : Nat) (x y : ResponseState) :
    (w.setState i x).setState i y = w.setState i y := by
  simp [setState]

theorem setState_state (w : Responses) (i : Nat) (x : ResponseState) :
    (w.setState i x).state i = x := Function.update_self ..

theorem write_reaches (c : WriteCall) (hh : w.handles[h]? = some (.live (some i)))
    (hp : (w.state i).pending = none) :
    responseSystem.Reaches Free w (w.setState i ((w.state i).write c)) := by
  have hask : responseSystem.step w (.write h c) =
      some (w.setState i ((w.state i).ask h c.written)) := step_write.mpr (.inr ⟨i, hh, rfl⟩)
  cases hr : (w.state i).responded with
  | true =>
    have heq : (w.state i).ask h c.written = (w.state i).write c := by
      simp [ResponseState.ask, ResponseState.exchange, ResponseState.write, hr]
    rw [heq] at hask
    exact .single trivial hask
  | false =>
    have hcall : responseSystem.step (w.setState i ((w.state i).ask h c.written))
        (.callWriter i) = some (w.setState i ((w.state i).write c)) := by
      refine step_callWriter.mpr ⟨h, c.written, ?_, ?_⟩
      · simp [setState_state, ResponseState.ask, ResponseState.exchange, hr]
      · rw [setState_setState, setState_state]
        simp [ResponseState.ask, ResponseState.exchange, ResponseState.write,
          ResponseState.call, hr, hp]
    exact (Reaches.single trivial hask).tail trivial hcall

theorem writes_reach (cs : List WriteCall) (hh : w.handles[h]? = some (.live (some i)))
    (hp : (w.state i).pending = none) :
    responseSystem.Reaches Free w (w.setState i (cs.foldl ResponseState.write (w.state i))) ∧
      (cs.foldl ResponseState.write (w.state i)).pending = none := by
  induction cs generalizing w with
  | nil =>
    have heq : w.setState i (w.state i) = w := by simp [setState]
    refine ⟨?_, hp⟩
    rw [List.foldl_nil, heq]
    exact .refl w
  | cons c cs ih =>
    have hpending : ((w.state i).write c).pending = none := ResponseState.write_pending.trans hp
    obtain ⟨hrest, hnone⟩ := ih (w := w.setState i ((w.state i).write c)) hh
      (by rwa [setState_state])
    rw [setState_state] at hrest hnone
    rw [setState_setState] at hrest
    exact ⟨(write_reaches c hh hp).trans hrest, hnone⟩

theorem setHandle_setHandle (w : Responses) (h : Nat) (x y : Handle) :
    (w.setHandle h x).setHandle h y = w.setHandle h y := by
  simp [setHandle]

theorem setHandle_handles {x y : Handle} (hx : w.handles[h]? = some x) :
    (w.setHandle h y).handles[h]? = some y :=
  List.getElem?_set_self (List.getElem?_eq_some_iff.mp hx).1

theorem useCount_setHandle {x y : Handle} (hx : w.handles[h]? = some x)
    (hsame : y.refersTo i = x.refersTo i) : (w.setHandle h y).useCount i = w.useCount i := by
  obtain ⟨hlt, hget⟩ := List.getElem?_eq_some_iff.mp hx
  simp only [useCount, setHandle, List.countP_set hlt, hget, hsame]
  cases hm : x.refersTo i with
  | false => simp
  | true =>
    have hpos : 0 < w.handles.countP (Handle.refersTo i) :=
      List.countP_pos_iff.mpr ⟨x, mem_of_getElem? hx, hm⟩
    simp only [if_true]
    omega

theorem destroy_reaches (hh : w.handles[h]? = some (.live (some i)))
    (hp : (w.state i).pending = none) (hcount : w.useCount i = 1) :
    responseSystem.Reaches Free w ((w.setState i (w.state i).destroy).setHandle h .gone) := by
  have hidle : w.idle h = some (some i) := by
    refine idle_eq_some.mpr ⟨hh, fun j hj => ?_⟩
    obtain rfl := Option.some.inj hj
    simp [ResponseState.busy, hp]
  have hdestroy : responseSystem.step w (.destroy h) = some (w.setHandle h
      (if (w.state i).responded then .releasing i else .testing i)) :=
    step_destroy.mpr (.inr ⟨i, hidle, rfl⟩)
  cases hr : (w.state i).responded with
  | true =>
    rw [hr, if_pos rfl] at hdestroy
    have hrelease : responseSystem.step (w.setHandle h (.releasing i)) (.release h) =
        some (w.setHandle h .gone) := by
      refine step_release.mpr ⟨(setHandle_setHandle ..).symm, i, .inr ⟨setHandle_handles hh, ?_⟩⟩
      simp [setHandle, ResponseState.busy, hp]
    have hsame : w.setState i (w.state i).destroy = w := by
      rw [ResponseState.destroy_of_responded hr]
      simp [setState]
    rw [hsame]
    exact (Reaches.single trivial hdestroy).tail trivial hrelease
  | false =>
    rw [hr, if_neg Bool.false_ne_true] at hdestroy
    have hcount' : (w.setHandle h (.testing i)).useCount i = 1 :=
      (useCount_setHandle hh (by simp [Handle.refersTo])).trans hcount
    have huse : responseSystem.step (w.setHandle h (.testing i)) (.useCount h) =
        some (w.setHandle h (.answering i)) := by
      refine step_useCount.mpr ⟨i, setHandle_handles hh, ?_⟩
      rw [if_pos hcount', setHandle_setHandle]
    -- the automatic response has won the exchange, and its writer has not been called yet
    let asking := (w.setState i ((w.state i).exchange h automaticResponse)).setHandle h
      (.releasing i)
    have hanswer : responseSystem.step (w.setHandle h (.answering i)) (.answer h) =
        some asking := by
      refine step_answer.mpr ⟨i, setHandle_handles hh, ?_⟩
      simp [asking, setHandle, setState]
    have hcall : responseSystem.step asking (.callWriter i) =
        some ((w.setState i (w.state i).destroy).setHandle h (.releasing i)) := by
      refine step_callWriter.mpr ⟨h, automaticResponse, ?_, ?_⟩
      · simp [asking, setHandle, setState, ResponseState.exchange, hr]
      · simp [asking, setHandle, setState, ResponseState.exchange, ResponseState.destroy,
          ResponseState.call, hr, hp]
    have hrelease : responseSystem.step
        ((w.setState i (w.state i).destroy).setHandle h (.releasing i)) (.release h) =
        some ((w.setState i (w.state i).destroy).setHandle h .gone) := by
      refine step_release.mpr ⟨(setHandle_setHandle ..).symm, i,
        .inr ⟨setHandle_handles (w := w.setState i _) hh, ?_⟩⟩
      simp [setHandle, setState, ResponseState.destroy, ResponseState.busy, hr, hp]
    exact ((((Reaches.single trivial hdestroy).tail trivial huse).tail trivial hanswer).tail
      trivial hcall).tail trivial hrelease

/-- A new handle, some writes on it, and its destructor. -/
theorem request_reaches (hw : Sound w) (cs : List WriteCall) :
    ∃ t, responseSystem.Reaches Free w t ∧ t.handles = w.handles ++ [.gone] ∧
      t.state w.states = (cs.foldl ResponseState.write {}).destroy ∧
      ∀ i, i ≠ w.states → t.state i = w.state i := by
  let made := ({ w with states := w.states + 1 }.setState w.states {}).addHandle (some w.states)
  have hmake : responseSystem.step w .make = some made := rfl
  have hh : made.handles[w.handles.length]? = some (.live (some w.states)) := by
    simp [made, addHandle, setState]
  have hstate : made.state w.states = {} := by simp [made, addHandle, setState]
  have hcount : made.useCount w.states = 1 := by
    -- no handle of an earlier request refers to the new state
    have hfresh : w.handles.countP (Handle.refersTo w.states) = 0 :=
      List.countP_eq_zero.mpr fun x hx hrefers =>
        absurd (hw.bounded hx hrefers) (Nat.lt_irrefl _)
    simp [made, useCount, addHandle, setState, hfresh, Handle.refersTo]
  obtain ⟨hwrites, hpending⟩ := writes_reach cs hh (by rw [hstate])
  rw [hstate] at hwrites hpending
  have hdestroy := destroy_reaches
    (w := made.setState w.states (cs.foldl ResponseState.write {})) hh
    (by rwa [setState_state]) hcount
  rw [setState_state, setState_setState] at hdestroy
  refine ⟨_, ((Reaches.single trivial hmake).trans hwrites).trans hdestroy, ?_, ?_, ?_⟩
  · simp [made, setHandle, setState, addHandle]
  · simp [setHandle, setState]
  · intro i hi
    simp [made, setHandle, setState, addHandle, Function.update_of_ne hi]

end Responses

/-- Every path through a wrapper is some writes and the destructor. -/
theorem requestWrapper_writes {Request : Type} (unhandled lastError : String)
    (handler : RequestHandler Request) (errorHandler : Option (RequestErrorHandler Request))
    (request : Request) :
    ∃ cs : List WriteCall,
      (requestWrapper unhandled handler errorHandler request lastError).response =
        (cs.foldl ResponseState.write {}).destroy := by
  have happend (c : WriteCall) : ((handler request).writes ++ [c]).foldl ResponseState.write {} =
      ((handler request).writes.foldl ResponseState.write {}).write c := List.foldl_append ..
  unfold requestWrapper
  cases (handler request).thrown with
  | none => exact ⟨_, rfl⟩
  | some error =>
    cases errorHandler with
    | none =>
      refine ⟨(handler request).writes ++ [internalError (error.message unhandled)], ?_⟩
      rw [happend]
    | some f =>
      cases hf : f request (-1) (error.message unhandled) with
      | none =>
        refine ⟨(handler request).writes ++ [internalError (error.message unhandled)], ?_⟩
        rw [happend]
        simp only [hf]
      | some error' =>
        simp only [hf]
        exact ⟨_, rfl⟩

/-- Behind any run of the other handles, a wrapper leaves its response there, its handle is
gone and nothing else has changed. -/
theorem requestWrapper_reaches {Request : Type} (unhandled : String)
    (handler : RequestHandler Request) (errorHandler : Option (RequestErrorHandler Request))
    (request : Request) (lastError : String) {w : Responses} (hw : responseSystem.Reachable w) :
    ∃ t, responseSystem.Reachable t ∧ t.handles = w.handles ++ [.gone] ∧
      t.state w.states =
        (requestWrapper unhandled handler errorHandler request lastError).response ∧
      ∀ i, i ≠ w.states → t.state i = w.state i := by
  obtain ⟨cs, hcs⟩ :=
    requestWrapper_writes unhandled lastError handler errorHandler request
  obtain ⟨t, ht, hhandles, hstate, hothers⟩ :=
    Responses.request_reaches (Responses.sound_of_reachable hw) cs
  exact ⟨t, Reaches.trans hw ht, hhandles, hstate.trans hcs.symm, hothers⟩

/-- In all four wrappers, for any handler and any error handler: the client is sent the first
write of the handler, or else 500 with the error's text if it has thrown, or else 204, if and
only if no error handler throws behind a handler that has thrown without a response. -/
theorem handler_outcome_is_sent_iff {Request : Type} (kind : HttpKind) (table : RouteTable)
    (handler : RequestHandler Request) (errorHandler : Option (RequestErrorHandler Request))
    (request : Request) (lastError : String) :
    (preRunWrapper kind table handler errorHandler request lastError).response.written =
        [expectedResponse (unhandledMessage kind table) (handler request)] ↔
      ErrorHandlerReturns (unhandledMessage kind table) (handler request) errorHandler request :=
  requestWrapper_answers_iff

def failingHandler : RequestHandler Unit := fun _ => { thrown := some ⟨0, some "out of stock"⟩ }

/-- An error handler that throws: the client is told that all is well. -/
theorem failed_request_is_answered_204 :
    ¬ ∀ (kind : HttpKind) (table : RouteTable) (handler : RequestHandler Unit)
        (errorHandler : Option (RequestErrorHandler Unit)) (lastError : String),
      (preRunWrapper kind table handler errorHandler () lastError).response.written =
        [expectedResponse (unhandledMessage kind table) (handler ())] := by
  intro hclaim
  have h := hclaim .http .resource failingHandler (some fun _ _ _ => some ⟨1, some "disk full"⟩) ""
  revert h
  decide

end ThreadComponent
