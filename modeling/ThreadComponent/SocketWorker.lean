import ThreadComponent.DerivedHooks
import ThreadComponent.TcpSocket

/-!
# Workers that own one socket

What TCPClient_V2 and TCPServer_V2 have in common: `preRun` opens a descriptor, stores it
in the atomic member and takes it back where it fails; `run` or a stop hook empties the
member again. A class of this kind is mapped to this view step by step, and the view is
all that the accounts of its descriptors need.

The stop hook closes what the member holds when it runs. A stop request that comes before
`preRun` has stored its descriptor therefore closes nothing, and `threadRunner` then leaves
without `run`; a `run` that is left by an exception does not close the socket either.
-/

set_option autoImplicit false
set_option linter.unusedSectionVars false

namespace ThreadComponent

open Transitions System

inductive SocketHook where
  | idle
  | before
  | storing
  | stored
  | takingBack
  | failed
  | serving
  | stopping
  | finishing
  | finished
  | thrown
  deriving DecidableEq, Repr

def SocketHook.home : SocketHook → Option RunnerPc
  | .idle => none
  | .before | .storing | .stored | .takingBack | .failed => some .preRun
  | .serving | .stopping | .finishing | .finished | .thrown => some .run

def SocketHook.holds : SocketHook → Bool
  | .storing | .takingBack | .finishing => true
  | _ => false

inductive SocketStop where
  | idle
  | exchange
  | close
  | closed
  deriving DecidableEq, Repr

structure SocketView (T : Type) where
  socket : TcpSocket T := {}
  hook : SocketHook := .idle
  stop : T → SocketStop := fun _ => .idle
  /-- The destructor is between its exchange and its `::close`. -/
  destructing : Bool := false

namespace SocketView
variable {T : Type} [DecidableEq T]

/-- A step within the hooks that leaves the descriptor where it is; `run` may take its own
`requestStop` as the end of its service. -/
inductive Quiet (run : T) (s : BaseWorker T) : SocketHook → SocketHook → Prop where
  | refl (p : SocketHook) : Quiet run s p p
  | notOpened : Quiet run s .before .failed
  | threw : Quiet run s .serving .thrown
  | stopped {k : Call} {b : Bool} (h : s.caller run = .returned k b) :
      Quiet run s .stopping .finished

inductive Takes : SocketHook → SocketHook → Prop where
  | takeBack : Takes .stored .takingBack
  | finish : Takes .serving .finishing

inductive Closes : SocketHook → SocketHook → Prop where
  | giveUp : Closes .takingBack .failed
  | finish : Closes .finishing .finished

inductive Step (v : SocketView T) (run : T) (s : BaseWorker T) (w : SocketView T) : Prop where
  | hook (h : Quiet run s v.hook w.hook) (hsocket : w.socket = v.socket)
      (hstop : w.stop = v.stop) (hdtor : w.destructing = v.destructing)
  | openSocket (hfrom : v.hook = .before) (hto : w.hook = .storing)
      (hsocket : w.socket = v.socket.openSocket .worker) (hstop : w.stop = v.stop)
      (hdtor : w.destructing = v.destructing)
  | storeSocket (hfrom : v.hook = .storing) (hto : w.hook = .stored)
      (hsocket : w.socket = v.socket.store .worker) (hstop : w.stop = v.stop)
      (hdtor : w.destructing = v.destructing)
  | exchange (h : Takes v.hook w.hook) (hsocket : w.socket = v.socket.exchange .worker)
      (hstop : w.stop = v.stop) (hdtor : w.destructing = v.destructing)
  | close (h : Closes v.hook w.hook) (hsocket : w.socket = v.socket.close .worker)
      (hstop : w.stop = v.stop) (hdtor : w.destructing = v.destructing)
  | stopExchange (c : T) (hfrom : v.stop c = .exchange)
      (hstop : w.stop = Function.update v.stop c .close)
      (hsocket : w.socket = v.socket.exchange (.stopper c)) (hhook : w.hook = v.hook)
      (hdtor : w.destructing = v.destructing)
  | stopClose (c : T) (hfrom : v.stop c = .close)
      (hstop : w.stop = Function.update v.stop c .closed)
      (hsocket : w.socket = v.socket.close (.stopper c)) (hhook : w.hook = v.hook)
      (hdtor : w.destructing = v.destructing)
  | destructorExchange (hfrom : v.destructing = false) (hto : w.destructing = true)
      (hsocket : w.socket = v.socket.exchange .destructor) (hhook : w.hook = v.hook)
      (hstop : w.stop = v.stop)
  | destructorClose (hfrom : v.destructing = true) (hto : w.destructing = false)
      (hsocket : w.socket = v.socket.close .destructor) (hhook : w.hook = v.hook)
      (hstop : w.stop = v.stop)

/-- What the worker's steps do to the place of its thread. -/
def HookSync (run : T) (p q : SocketHook) : BaseAction T → Prop
  | .preRunBegin _ => q = .before
  | .preRunEnd _ (.value true) => p = .stored ∧ q = .idle
  | .preRunEnd _ (.value false) => p = .failed ∧ q = .idle
  | .preRunEnd _ (.threw _) => p = .thrown ∧ q = .idle
  | .setRunning _ => q = .serving
  | .runEnd _ (.value _) => p = .finished ∧ q = .idle
  | .runEnd _ (.threw _) => p = .thrown ∧ q = .idle
  | .call c k => q = p ∨ (c = run ∧ k = .requestStop ∧ p = .serving ∧ q = .stopping)
  | _ => q = p

inductive StopSync (run : T) (s : BaseWorker T) (a : BaseAction T) (c : T) :
    SocketStop → SocketStop → Prop where
  | same (p : SocketStop) (hend : a ≠ .stopTriggeredEnd c)
      (hbegin : a = .stopSection c → s.mState.shouldTriggerStop = false) :
      StopSync run s a c p p
  | begin {p q : SocketStop} (ha : a = .stopSection c)
      (htrigger : s.mState.shouldTriggerStop = true)
      (hq : q = .exchange ∨ (q = .closed ∧ c ≠ run)) : StopSync run s a c p q
  | finish (ha : a = .stopTriggeredEnd c) : StopSync run s a c .closed .idle

/-- The steps of the worker. -/
structure Sync (v : SocketView T) (run : T) (s : BaseWorker T) (a : BaseAction T)
    (w : SocketView T) : Prop where
  socket : w.socket = v.socket
  destructing : w.destructing = v.destructing
  hook : HookSync run v.hook w.hook a
  stop : ∀ c, StopSync run s a c (v.stop c) (w.stop c)

variable {run : T} {s t : BaseWorker T} {a : BaseAction T} {v w : SocketView T}

theorem Quiet.home {p q : SocketHook} (h : Quiet run s p q) : q.home = p.home := by
  cases h <;> rfl

theorem Takes.home {p q : SocketHook} (h : Takes p q) : q.home = p.home := by
  cases h <;> rfl

theorem Closes.home {p q : SocketHook} (h : Closes p q) : q.home = p.home := by
  cases h <;> rfl

theorem Step.home (h : v.Step run s w) : w.hook.home = v.hook.home := by
  cases h with
  | hook h => exact h.home
  | openSocket hfrom hto => rw [hfrom, hto]; rfl
  | storeSocket hfrom hto => rw [hfrom, hto]; rfl
  | exchange h => exact h.home
  | close h => exact h.home
  | stopExchange _ _ _ _ hhook => rw [hhook]
  | stopClose _ _ _ _ hhook => rw [hhook]
  | destructorExchange _ _ _ hhook => rw [hhook]
  | destructorClose _ _ _ hhook => rw [hhook]

theorem HookSync.home {p q : SocketHook} (h : HookSync run p q a) :
    q.home = a.hookHome p.home := by
  cases a with
  | preRunEnd r e => rcases e with ⟨_ | _⟩ | _ <;> simp [h.2, SocketHook.home, BaseAction.hookHome]
  | runEnd r e => rcases e with _ | _ <;> simp [h.2, SocketHook.home, BaseAction.hookHome]
  | preRunBegin r => rw [show q = .before from h]; rfl
  | setRunning r => rw [show q = .serving from h]; rfl
  | call c k =>
    rcases h with rfl | ⟨-, -, rfl, rfl⟩ <;> rfl
  | _ => rw [show q = p from h]; rfl

/-! ## Steps by kind -/

/-- A stop hook goes on after its work on the socket. -/
theorem Step.moveStop {c : T} {q : SocketStop} (hold : v.stop c = .closed) (hnew : q = .closed)
    (hsocket : w.socket = v.socket) (hhook : w.hook = v.hook)
    (hdtor : w.destructing = v.destructing) (hstop : w.stop = Function.update v.stop c q) :
    v.Step run s w := by
  refine .hook (hhook ▸ .refl _) hsocket ?_ hdtor
  rw [hstop, hnew, ← hold]
  exact Function.update_eq_self ..

/-- A step of the worker that is no boundary of a stop hook. -/
theorem Sync.moveHook (hstopped : ∀ c, a ≠ .stopSection c ∧ a ≠ .stopTriggeredEnd c)
    (hhook : HookSync run v.hook w.hook a) (hsocket : w.socket = v.socket)
    (hstop : w.stop = v.stop) (hdtor : w.destructing = v.destructing) : v.Sync run s a w where
  socket := hsocket
  destructing := hdtor
  hook := hhook
  stop c := by
    rw [hstop]
    exact .same _ (hstopped c).2 fun ha => absurd ha (hstopped c).1

theorem Sync.beginStop {c : T} {q : SocketStop} (htrigger : s.mState.shouldTriggerStop = true)
    (hq : q = .exchange ∨ (q = .closed ∧ c ≠ run)) (hsocket : w.socket = v.socket)
    (hhook : w.hook = v.hook) (hdtor : w.destructing = v.destructing)
    (hstop : w.stop = Function.update v.stop c q) : v.Sync run s (.stopSection c) w where
  socket := hsocket
  destructing := hdtor
  hook := hhook
  stop d := by
    rw [hstop]
    by_cases hd : d = c
    · subst hd
      rw [Function.update_self]
      exact .begin rfl htrigger hq
    · rw [Function.update_of_ne hd]
      exact .same _ (by simp) (by simp [Ne.symm hd])

theorem Sync.noStop {c : T} (htrigger : s.mState.shouldTriggerStop = false) :
    v.Sync run s (.stopSection c) v :=
  ⟨rfl, rfl, rfl, fun _ => .same _ (by simp) fun _ => htrigger⟩

theorem Sync.endStop {c : T} (hclosed : v.stop c = .closed) (hsocket : w.socket = v.socket)
    (hhook : w.hook = v.hook) (hdtor : w.destructing = v.destructing)
    (hstop : w.stop = Function.update v.stop c .idle) :
    v.Sync run s (.stopTriggeredEnd c) w where
  socket := hsocket
  destructing := hdtor
  hook := hhook
  stop d := by
    rw [hstop]
    by_cases hd : d = c
    · subst hd
      rw [Function.update_self, hclosed]
      exact .finish rfl
    · rw [Function.update_of_ne hd]
      exact .same _ (by simp [Ne.symm hd]) (by simp)

end SocketView

structure SocketWorker (T O A : Type) [DecidableEq T] where
  derived : Derived T O A
  view : O → SocketView T
  /-- The name of the worker's thread as a caller. -/
  run : T
  init : view derived.init = {}
  own : ∀ {s o a o'}, derived.own s o a = some o' → (view o).Step run s (view o')
  sync : ∀ {s a o o'}, derived.sync s a o = some o' → (view o).Sync run s a (view o')

end ThreadComponent
