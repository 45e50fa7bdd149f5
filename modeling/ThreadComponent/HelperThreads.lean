import ThreadComponent.HttpHelpers
import ThreadComponent.TcpWorkerSockets

/-!
# Helper threads are always joined

A failure to create a helper thread behind one that is there is not made good: `run` of the client
destroys its reader while joinable, and the servers leave theirs in the member.
-/

set_option autoImplicit false
set_option linter.unusedSectionVars false

namespace ThreadComponent

open Transitions System Ownership

/-- If no helper thread fails to be created behind another one that was, and the destructor does
not give up on a run, every created helper thread is joined once before `run` is left, and none is
lost while joinable. -/
theorem helpers_are_joined (C H : Type) [DecidableEq C] :
    (∀ y, (TcpClient.helperHistory C).ReachableBy (Present TcpClient.CreatesWriter) y →
      HelpersJoined y.1.ext.terminated (TcpClient.RunLeft y.1) y.2.ledger) ∧
    ∀ (kind : HttpKind) (h : Option H) (y : ServerV2.ServerObject C H × Ledger Nat),
      (ServerV2.helperHistory C kind h).ReachableBy (Present ServerV2.CreatesAllOrNone) y →
        HelpersJoined y.1.ext.server.body.terminated (ServerV2.RunLeft y.1) y.2 :=
  ⟨fun _ hr => TcpClient.helpersJoined_of_reachable hr,
    fun _ _ _ hr => ServerV2.helpersJoined_of_reachable hr⟩

instance {C : Type} [DecidableEq C] (s : Object (ClientCaller C) (TcpClient C))
    (a : ObjectAction (ClientCaller C) (ClientAction C)) :
    Decidable (TcpClient.CreatesWriter s a) := by
  induction a using ObjectAction.casesOn with
  | base a => exact inferInstanceAs (Decidable True)
  | own a =>
    induction a using ClientAction.casesOn <;> (unfold TcpClient.CreatesWriter; infer_instance)

instance {C H : Type} [DecidableEq C] (s : ServerV2.ServerObject C H)
    (a : ServerV2.ServerObjectAction C) : Decidable (ServerV2.CreatesAllOrNone s a) := by
  induction a using ObjectAction.casesOn with
  | base a => exact inferInstanceAs (Decidable True)
  | own a =>
    induction a using DestructorAction.casesOn with
    | destroyMembers c => exact inferInstanceAs (Decidable (s.base.current ≠ .run))
    | member a =>
      induction a using HttpAction.casesOn with
      | body a =>
        induction a using ServerActionV2.casesOn <;>
          (unfold ServerV2.CreatesAllOrNone; infer_instance)
      | _ => exact inferInstanceAs (Decidable True)

namespace ServerV2

/-- A schedule of the server, for the server with its destructor. -/
def members (schedule : Schedule) : List (ServerObjectAction Nat) :=
  schedule.map fun
    | .base a => .base a
    | .own a => .own (.member a)

def poolSchedule : Schedule :=
  .own (.body (.setIOThreadCount 3)) :: startedSchedule 0 0 ++
    [.base (.checkStop 0), .base (.setRunning 0), .own (.body (.serverStarts 8080)),
      .own (.body .getIo)]

def joinedPoolSchedule : Schedule :=
  [.own (.body .createThreads), .own (.body (.ioReturns 0)), .own (.body (.ioReturns 1)),
    .own (.body (.ioReturns 2)), .own (.body .swapThreads), .own (.body .joinThread),
    .own (.body .joinThread), .own (.body .joinThread), .own (.body .resolveExited),
    .own (.body .cleanUp)]

def brokenPoolSchedule : Schedule :=
  [.own (.body (.createThreadsFails 1 ⟨11, none⟩))]

end ServerV2

theorem helpers_are_joined_served :
    let S := TcpClient.helperHistory Bool
    let T := ServerV2.helperHistory Nat .http (none : Option Nat)
    let x := S.after (Present TcpClient.CreatesWriter) S.init (TcpClient.openedSchedule ++
      TcpClient.connectedSchedule ++ TcpClient.servedSchedule)
    let y := T.after (Present ServerV2.CreatesAllOrNone) T.init
      (ServerV2.members (ServerV2.poolSchedule ++ ServerV2.joinedPoolSchedule))
    (x.2.ledger.released (1, .reader) = 1 ∧ x.2.ledger.released (1, .writer) = 1) ∧
      y.2.released 0 = 1 ∧ y.2.released 1 = 1 := by
  intro S T x y
  have hclient := (helpers_are_joined Bool Nat).1 x (reaches_after (by decide))
  have hserver := (helpers_are_joined Nat Nat).2 .http none y (reaches_after (by decide))
  have hleft : TcpClient.RunLeft x.1 := .inl (by decide)
  have hdone : ServerV2.RunLeft y.1 := .inr ⟨.value true, by decide⟩
  exact ⟨⟨hclient.joined hleft _ (by decide), hclient.joined hleft _ (by decide)⟩,
    hserver.joined hdone _ (by decide), hserver.joined hdone _ (by decide)⟩

/-- Creating the writer of the client fails, and creating the second helper thread of a server. -/
theorem failed_creation_leaves_threads :
    (¬ ∀ y, (TcpClient.helperHistory Bool).Reachable y →
      HelpersJoined y.1.ext.terminated (TcpClient.RunLeft y.1) y.2.ledger) ∧
    ∀ kind, ¬ ∀ y, (ServerV2.helperHistory Nat kind (none : Option Nat)).Reachable y →
      HelpersJoined y.1.ext.server.body.terminated (ServerV2.RunLeft y.1) y.2 := by
  constructor
  · intro h
    let S := TcpClient.helperHistory Bool
    have hsafe := (h (S.after Free S.init (TcpClient.openedSchedule ++
      TcpClient.connectedSchedule ++ [.base (.setRunning 0), .own (.createReader none),
        .own (.createWriter (some 11))])) (reaches_after (by decide))).safe
    revert hsafe
    decide
  · intro kind h
    let T := ServerV2.helperHistory Nat kind (none : Option Nat)
    have hjoined := (h (T.after Free T.init
      (ServerV2.members (ServerV2.poolSchedule ++ ServerV2.brokenPoolSchedule)))
      (reaches_after (by cases kind <;> decide))).joined
        (.inr ⟨.threw 11, by cases kind <;> decide⟩) 0 (by cases kind <;> decide)
    revert hjoined
    cases kind <;> decide

end ThreadComponent
