import ThreadComponent.History
import ThreadComponent.Ownership
import ThreadComponent.TcpClientHooks

/-!
# The helper threads of TCPClient_V2

`run` has its reader and its writer in two locals and joins them one after the other. The history
of a run says which threads were created and how often each of them was joined.
-/

set_option autoImplicit false
set_option linter.unusedSectionVars false

namespace ThreadComponent

open Transitions System Ownership

/-- No thread object was destroyed, cleared or overwritten while joinable, no thread was joined
twice, and each created one has been joined where `run` is left. -/
structure HelpersJoined {I : Type} (terminated : Bool) (left : Prop) (threads : Ledger I) :
    Prop where
  safe : terminated = false
  once : ∀ i, threads.released i ≤ 1
  joined : left → ∀ i ∈ threads.acquired, threads.released i = 1

theorem HelpersJoined.of_balanced {I : Type} [DecidableEq I] {terminated : Bool} {left : Prop}
    {threads : Ledger I} {held : List I} (hsafe : terminated = false)
    (hbalanced : threads.Balanced held) (hsettled : left → held = []) :
    HelpersJoined terminated left threads := by
  refine ⟨hsafe, hbalanced.released_le_one, fun hleft i hi => ?_⟩
  rw [hsettled hleft] at hbalanced
  exact hbalanced.released_of_settled hi

inductive ClientHelper where
  | reader
  | writer
  deriving DecidableEq, Repr

/-- The helper threads of all runs; `run` numbers the runs that have created a reader. -/
structure ClientThreads where
  run : Nat := 0
  ledger : Ledger (Nat × ClientHelper) := {}

namespace ClientThreads

def create (x : ClientThreads) (helper : ClientHelper) : ClientThreads :=
  { x with ledger := x.ledger.acquire [(x.run, helper)] }

def join (x : ClientThreads) (helper : ClientHelper) : ClientThreads :=
  { x with ledger := x.ledger.release (x.run, helper) }

theorem mem_create {x : ClientThreads} {helper : ClientHelper} {i : Nat × ClientHelper} :
    i ∈ (x.create helper).ledger.acquired ↔ i ∈ x.ledger.acquired ∨ i = (x.run, helper) :=
  Ledger.mem_acquire.trans (or_congr_right List.mem_singleton)

end ClientThreads

namespace TcpClient
variable {C : Type} [DecidableEq C] {s : BaseWorker (ClientCaller C)} {o o' : TcpClient C}
  {x : ClientThreads}

def noteThreads : ClientAction C → ClientThreads → ClientThreads
  | .createReader none, x => { x with run := x.run + 1 }.create .reader
  | .createWriter none, x => x.create .writer
  | .joinReader, x => x.join .reader
  | .joinWriter, x => x.join .writer
  | _, x => x

def noteHelper (_ : Object (ClientCaller C) (TcpClient C)) :
    ObjectAction (ClientCaller C) (ClientAction C) → ClientThreads → ClientThreads
  | .own a, x => noteThreads a x
  | .base _, x => x

variable (C) in
def helperHistory : System (Object (ClientCaller C) (TcpClient C) × ClientThreads)
    (ObjectAction (ClientCaller C) (ClientAction C)) :=
  (TCPClient_V2 C).system.withHistory {} noteHelper

def CreatesWriter (_ : Object (ClientCaller C) (TcpClient C)) :
    ObjectAction (ClientCaller C) (ClientAction C) → Prop
  | .own (.createWriter failure) => failure = none
  | _ => True

def RunLeft (s : Object (ClientCaller C) (TcpClient C)) : Prop :=
  s.base.current ≠ .run ∨ ∃ e, s.ext.hook = .runDone e

def locals (hook : ClientHook) (run : Nat) : List (Nat × ClientHelper) :=
  match hook with
  | .createWriter => [(run, .reader)]
  | .joinReader => [(run, .reader), (run, .writer)]
  | .requestStop | .stopping | .notify | .joinWriter => [(run, .writer)]
  | _ => []

structure Threads (o : TcpClient C) (x : ClientThreads) : Prop where
  safe : o.terminated = false
  balanced : x.ledger.Balanced (locals o.hook x.run)
  runs : ∀ i ∈ x.ledger.acquired, i.1 ≤ x.run
  noWriter : o.hook = .createWriter → (x.run, .writer) ∉ x.ledger.acquired

theorem Threads.of_same (hx : Threads o x) (hterminated : o'.terminated = o.terminated)
    (hlocals : locals o'.hook x.run = locals o.hook x.run)
    (hhook : o'.hook = .createWriter → o.hook = .createWriter) : Threads o' x :=
  ⟨hterminated ▸ hx.safe, hlocals ▸ hx.balanced, hx.runs, fun h => hx.noWriter (hhook h)⟩

theorem Threads.balanced_at (hx : Threads o x) {hook : ClientHook} (hhook : o.hook = hook) :
    x.ledger.Balanced (locals hook x.run) := hhook ▸ hx.balanced

/-! ## The steps of run -/

theorem Threads.createReader (hx : Threads o x) (hhook : o.hook = .createReader)
    (ho : o'.hook = .createWriter ∧ o'.terminated = o.terminated) :
    Threads o' ({ x with run := x.run + 1 }.create .reader) := by
  have hnew : ∀ helper, (x.run + 1, helper) ∉ x.ledger.acquired := by
    intro helper hmem
    exact absurd (hx.runs _ hmem) (Nat.not_succ_le_self x.run)
  refine ⟨ho.2 ▸ hx.safe, ?_, fun i hi => ?_, fun _ hmem => ?_⟩
  · rw [ho.1]
    exact (hx.balanced_at hhook).acquire_one (hnew .reader)
  · rcases ClientThreads.mem_create.mp hi with hi | rfl
    · exact Nat.le_succ_of_le (hx.runs i hi)
    · exact Nat.le_refl _
  · rcases ClientThreads.mem_create.mp hmem with hmem | heq
    · exact hnew .writer hmem
    · cases heq

theorem Threads.createWriter (hx : Threads o x) (hhook : o.hook = .createWriter)
    (ho : o'.hook = .joinReader ∧ o'.terminated = o.terminated) :
    Threads o' (x.create .writer) := by
  refine ⟨ho.2 ▸ hx.safe, ?_, fun i hi => ?_, fun h => ?_⟩
  · rw [ho.1]
    exact (hx.balanced_at hhook).acquire_one (hx.noWriter hhook)
  · rcases ClientThreads.mem_create.mp hi with hi | rfl
    · exact hx.runs i hi
    · exact Nat.le_refl _
  · rw [ho.1] at h
    cases h

theorem Threads.join (hx : Threads o x) {helper : ClientHelper}
    (hlocals : locals o.hook x.run = (x.run, helper) :: locals o'.hook x.run)
    (hhook : o'.hook ≠ .createWriter) (hterminated : o'.terminated = o.terminated) :
    Threads o' (x.join helper) := by
  have hbalanced := hx.balanced
  rw [hlocals] at hbalanced
  exact ⟨hterminated ▸ hx.safe, hbalanced.release, hx.runs, fun h => absurd h hhook⟩

def Notable : ClientAction C → Prop
  | .createReader _ | .createWriter _ | .joinReader | .joinWriter => True
  | _ => False

theorem noteThreads_of_not_notable {a : ClientAction C} (ha : ¬ Notable a) :
    noteThreads a x = x := by
  cases a <;> first | rfl | exact absurd trivial ha

theorem Threads.worker {a : ClientAction C} (hx : Threads o x)
    (hok : ∀ failure, a = .createWriter failure → failure = none)
    (h : worker s o a = some o') : Threads o' (noteThreads a x) := by
  cases workerStep_of_worker h with
  | createReader hhook => exact hx.createReader hhook ⟨rfl, rfl⟩
  | createWriter hhook => exact hx.createWriter hhook ⟨rfl, rfl⟩
  | writerNotCreated => cases hok _ rfl
  | joinReader hhook | joinWriter hhook =>
    refine hx.join ?_ nofun rfl
    rw [hhook]
    rfl
  | connect hhook =>
    refine hx.of_same rfl ?_ fun hnew => ?_
    · rw [hhook]
      change locals (if _ then _ else _) _ = _
      split <;> rfl
    · change (if _ then _ else _) = ClientHook.createWriter at hnew
      split at hnew <;> cases hnew
  | runNotify hhook =>
    refine hx.of_same ?_ ?_ nofun
    · rcases notify_cases o with hsame | ⟨-, hsame⟩
      · rw [hsame]
        rfl
      · rw [hsame]
        rfl
    · rw [hhook]
      rfl
  | clearQueue hhook | openSocket hhook | notOpened hhook | storeSocket hhook | exchange hhook
  | close hhook | readerNotCreated hhook | runStopped hhook =>
    refine hx.of_same rfl ?_ nofun
    rw [hhook]
    rfl

/-! ## All steps -/

theorem own_of_not_worker {a : ClientAction C} (h : own s o a = some o')
    (hworker : worker s o a ≠ some o') :
    o'.terminated = o.terminated ∧ o'.hook = o.hook ∧ ¬ Notable a := by
  obtain ⟨-, h | h | h | h | h | h⟩ := own_cases h
  · exact absurd h hworker
  · cases a <;> simp only [readLoop] at h <;> grind -linarith [Notable]
  · cases a <;> simp only [writeLoop, writerLoad, writerSend] at h <;> grind -linarith [Notable]
  · cases a <;> simp only [TcpClient.stopTriggered, clearOutboundQueue, notify] at h <;>
      grind -linarith [setStop, Notable]
  · cases a <;> simp only [send, notify] at h <;> grind -linarith [setSender, Notable]
  · cases a <;> simp only [destroy, clearOutboundQueue] at h <;> grind -linarith [Notable]

theorem Threads.own {a : ClientAction C} (hx : Threads o x)
    (hok : ∀ failure, a = .createWriter failure → failure = none)
    (h : own s o a = some o') : Threads o' (noteThreads a x) := by
  by_cases hworker : TcpClient.worker s o a = some o'
  · exact hx.worker hok hworker
  · obtain ⟨hterminated, hhook, ha⟩ := own_of_not_worker h hworker
    rw [noteThreads_of_not_notable ha]
    exact hx.of_same hterminated (by rw [hhook]) fun hnew => hhook ▸ hnew

/-- A hook is entered from outside of `run`, where nothing is held. -/
theorem Threads.sync {t : BaseWorker (ClientCaller C)} {a : BaseAction (ClientCaller C)}
    (hat : HookAt s.current o.hook) (hmoves : BaseWorker.Moves s a t) (hx : Threads o x)
    (h : sync s a o = some o') : Threads o' x := by
  have h := syncHooks_of_sync h
  have hentered : (∃ r, a = .preRunBegin r ∨ a = .setRunning r) → o.hook = .idle := by
    rintro ⟨r, rfl | rfl⟩
    · cases hmoves with
      | rest hact => cases hact
      | preRunBegin _ hfrom => exact hat.idle (by rw [hfrom]; rfl)
    · cases hmoves with
      | rest hact => cases hact
      | setRunning _ hfrom => exact hat.idle (by rw [hfrom]; rfl)
  have hsame : o'.terminated = o.terminated ∧ locals o'.hook x.run = locals o.hook x.run ∧
      (o'.hook = .createWriter → o.hook = .createWriter) := by
    cases a with
    | call c k =>
      cases c <;> simp only [syncHooks, calls] at h <;> grind -linarith [setHook, locals]
    | preRunBegin r =>
      obtain rfl := Option.some.inj h
      rw [hentered ⟨r, .inl rfl⟩]
      exact ⟨rfl, rfl, fun hnot => by cases hnot⟩
    | setRunning r =>
      obtain rfl := Option.some.inj h
      rw [hentered ⟨r, .inr rfl⟩]
      exact ⟨rfl, rfl, fun hnot => by cases hnot⟩
    | _ =>
      simp only [syncHooks] at h
      grind -linarith [setHook, setStop, launch, locals]
  exact hx.of_same hsame.1 hsame.2.1 hsame.2.2

theorem threads_of_reachable {y : Object (ClientCaller C) (TcpClient C) × ClientThreads}
    (hr : (helperHistory C).ReachableBy (Present CreatesWriter) y) : Threads y.1.ext y.2 := by
  refine ReachableBy.related (R := fun s x => Threads s.ext x) ?_ ?_ hr
  · refine ⟨rfl, Ledger.balanced_empty, fun i hi => ?_, fun hhook => ?_⟩
    · cases hi
    · cases hhook
  · intro s a t x hr hx hok hs
    cases a with
    | base a =>
      obtain ⟨hb, hy⟩ := Derived.step_base.mp hs
      obtain ⟨hi, hu⟩ := Derived.inherits hr
      exact hx.sync (hookAt_of_reachable hr) (BaseWorker.moves_of_step hi hu hb) hy
    | own a =>
      refine hx.own (fun failure he => ?_) (Derived.step_own.mp hs).2
      subst he
      exact hok

theorem locals_of_runLeft {s : Object (ClientCaller C) (TcpClient C)}
    (hat : HookAt s.base.current s.ext.hook) (hleft : RunLeft s) (run : Nat) :
    locals s.ext.hook run = [] := by
  rcases hleft with hrun | ⟨e, hdone⟩
  · cases hhook : s.ext.hook <;> first
      | rfl
      | exact absurd (hat.of_run (by rw [hhook]; rfl)) hrun
  · rw [hdone]
    rfl

theorem helpersJoined_of_reachable {y : Object (ClientCaller C) (TcpClient C) × ClientThreads}
    (hr : (helperHistory C).ReachableBy (Present CreatesWriter) y) :
    HelpersJoined y.1.ext.terminated (RunLeft y.1) y.2.ledger :=
  .of_balanced (threads_of_reachable hr).safe (threads_of_reachable hr).balanced fun hleft =>
    locals_of_runLeft (hookAt_of_reachable hr.present) hleft y.2.run

end TcpClient

end ThreadComponent
