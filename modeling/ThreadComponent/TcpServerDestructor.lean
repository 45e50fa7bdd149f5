import ThreadComponent.Destructor
import ThreadComponent.TcpServerClientsSafety

/-!
# The destructor of TCPServer_V2

A session whose handler runs is in `m_clients` or in the local list of a joiner. Behind a
worker that is out of its hooks the destructor body finds all that are left and joins them.
-/

set_option autoImplicit false
set_option linter.unusedSectionVars false

namespace ThreadComponent

open Transitions System

/-- How far the destructor has come with the `stopThread` of its body. -/
def TcpServerDestructor.stage : TcpServerDestructor → DestructorStage
  | .idle => .idle
  | .stopThread => .stopThread
  | _ => .behind

/-- From the section of the destructor's `joinAndClearAllClients` on. -/
def TcpServerDestructor.cleared : TcpServerDestructor → Bool
  | .joining | .base | .inBase => true
  | _ => false

namespace TcpServer
variable {C : Type} [DecidableEq C] {s t : BaseWorker (TcpServerCaller C)} {o o' : TcpServer C}

/-- Every running handler is found by a list, and its thread is joinable. -/
structure Tracked (o : TcpServer C) : Prop where
  running : ∀ i, (o.session i).handler.running = true → Listed o i
  worker : ∀ i, (o.session i).worker = false → (o.session i).handler.running = false
  runLoop : o.hook ≠ .reaping → o.hook ≠ .joining → (o.loop .run).todo = []
  destructorLoop : o.destructor ≠ .joining → (o.loop .destructor).todo = []

/-- The lists are the same, and no handler has begun to run. -/
def SameSessions (o o' : TcpServer C) : Prop :=
  (∀ i, ((o'.session i).handler.running = true → (o.session i).handler.running = true) ∧
    (o'.session i).worker = (o.session i).worker) ∧
  o'.mClients = o.mClients ∧ ∀ j, (o'.loop j).todo = (o.loop j).todo

theorem SameSessions.of_eq
    (h : o'.session = o.session ∧ o'.mClients = o.mClients ∧ o'.loop = o.loop) :
    SameSessions o o' := by
  obtain ⟨hsession, hclients, hloop⟩ := h
  exact ⟨fun i => by rw [hsession]; exact ⟨id, rfl⟩, hclients, fun j => by rw [hloop]⟩

theorem SameClients.sameSessions (h : SameClients o o') : SameSessions o o' :=
  .of_eq ⟨h.session, h.mClients, h.loop⟩

theorem Tracked.of_same (hx : Tracked o) (h : SameSessions o o')
    (hrun : o'.hook ≠ .reaping → o'.hook ≠ .joining → (o.loop .run).todo = [])
    (hdtor : o'.destructor ≠ .joining → (o.loop .destructor).todo = []) : Tracked o' := by
  obtain ⟨hsession, hclients, hloop⟩ := h
  refine ⟨fun i hi => ?_, fun i hi => ?_, ?_, ?_⟩
  · refine (hx.running i ((hsession i).1 hi)).mono (by rw [hclients]; exact List.Subset.refl _)
      fun j => by rw [hloop]; exact List.Subset.refl _
  · have hold := hx.worker i ((hsession i).2 ▸ hi)
    by_contra hne
    rw [(hsession i).1 (by simpa using hne)] at hold
    cases hold
  · rw [hloop]
    exact hrun
  · rw [hloop]
    exact hdtor

/-- A step that leaves the sessions and the places of the joiners alone. -/
theorem Tracked.move (hx : Tracked o) (h : SameSessions o o') (hhook : o'.hook = o.hook)
    (hdtor : o'.destructor = o.destructor) : Tracked o' :=
  hx.of_same h (hhook ▸ hx.runLoop) (hdtor ▸ hx.destructorLoop)

theorem Tracked.splice (hx : Tracked o) (j : Joiner) (kept taken : List Nat)
    (hook : TcpServerHook) (destructor : TcpServerDestructor) (htodo : (o.loop j).todo = [])
    (hall : ∀ i, i ∈ o.mClients → i ∈ kept ∨ i ∈ taken)
    (hrun : hook ≠ .reaping → hook ≠ .joining → j ≠ .run ∧ (o.loop .run).todo = [])
    (hdtor : destructor ≠ .joining → j ≠ .destructor ∧ (o.loop .destructor).todo = []) :
    Tracked { o.setLoop j { todo := taken } with
      mClients := kept, hook := hook, destructor := destructor } where
  running i hi := by
    rcases hx.running i hi with hm | ⟨k, hk⟩
    · rcases hall i hm with h | h
      · exact .inl h
      · exact .inr ⟨j, by simpa [setLoop] using h⟩
    · have hkj : k ≠ j := by
        rintro rfl
        rw [htodo] at hk
        cases hk
      exact .inr ⟨k, by simpa [setLoop, hkj] using hk⟩
  worker := hx.worker
  runLoop h1 h2 := by
    obtain ⟨hj, hnil⟩ := hrun h1 h2
    simpa [setLoop, hj.symm] using hnil
  destructorLoop hd := by
    obtain ⟨hj, hnil⟩ := hdtor hd
    simpa [setLoop, hj.symm] using hnil

theorem endLoop_same {j : Joiner} (htodo : (o.loop j).todo = []) :
    SameSessions o (o.endLoop j) := by
  refine ⟨fun i => ?_, rfl, fun k => ?_⟩
  · simp only [endLoop, destroyAll, setLoop]
    split <;> exact ⟨id, rfl⟩
  · by_cases hkj : k = j
    · subst hkj
      simp [endLoop, setLoop, htodo]
    · simp [endLoop, setLoop, destroyAll, hkj]

theorem Tracked.startClientSession {i : Nat} {r : SessionStart} (hx : Tracked o)
    (hloop : (o.loop .run).todo = []) : Tracked (o.startClientSession i r) := by
  cases r with
  | notAdded =>
    exact hx.of_same ⟨fun _ => ⟨id, rfl⟩, rfl, fun _ => rfl⟩ (fun _ _ => hloop)
      hx.destructorLoop
  | created =>
    have hsame : ∀ d, d ≠ i →
        (o.startClientSession i .created).session d = o.session d := fun d hd => by
      simp [TcpServer.startClientSession, setSession, hd]
    have hnew : (o.startClientSession i .created).session i =
        { worker := true, handler := .entry } := by
      simp [TcpServer.startClientSession, setSession]
    refine ⟨fun d hd => ?_, fun d hd => ?_, fun _ _ => hloop, hx.destructorLoop⟩
    · by_cases hdi : d = i
      · subst hdi
        exact .inl (List.mem_append_right _ (List.mem_singleton_self _))
      · rw [hsame d hdi] at hd
        exact (hx.running d hd).mono (List.subset_append_left _ _) fun _ => List.Subset.refl _
    · by_cases hdi : d = i
      · subst hdi
        rw [hnew] at hd
        cases hd
      · rw [hsame d hdi] at hd ⊢
        exact hx.worker d hd
  | notCreated =>
    have hsame : ∀ d, d ≠ i →
        (o.startClientSession i .notCreated).session d = o.session d := fun d hd => by
      simp [TcpServer.startClientSession, setSession, hd]
    have hnew : (o.startClientSession i .notCreated).session i = { destroyed := true } := by
      simp [TcpServer.startClientSession, setSession]
    refine ⟨fun d hd => ?_, fun d hd => ?_, fun _ _ => hloop, hx.destructorLoop⟩
    · by_cases hdi : d = i
      · subst hdi
        rw [hnew] at hd
        cases hd
      · rw [hsame d hdi] at hd
        exact hx.running d hd
    · by_cases hdi : d = i
      · subst hdi
        rw [hnew]
        rfl
      · rw [hsame d hdi] at hd ⊢
        exact hx.worker d hd

theorem Tracked.loopJoin {j : Joiner} {joined todo : List Nat} {i : Nat} (hx : Tracked o)
    (hj : o.loop j = ⟨joined, i :: todo, .join⟩)
    (hexited : (o.session i).worker = true → (o.session i).handler = .exited) :
    Tracked ((o.setSession i { o.session i with worker := false }).setLoop j
      ⟨joined ++ [i], todo, .exchange⟩) := by
  have hdone : (o.session i).handler.running = false := by
    cases hw : (o.session i).worker with
    | false => exact hx.worker i hw
    | true => rw [hexited hw]; rfl
  have hsession : ∀ d, (Function.update o.session i
      { o.session i with worker := false } d).handler = (o.session d).handler := fun d => by
    by_cases hdi : d = i
    · subst hdi
      simp
    · simp [hdi]
  have hsub : ∀ k, (Function.update o.loop j ⟨joined ++ [i], todo, .exchange⟩ k).todo ⊆
      (o.loop k).todo := fun k => by
    by_cases hkj : k = j
    · subst hkj
      simp [hj]
    · simp [hkj]
  refine ⟨fun d hd => ?_, fun d hd => ?_, fun h1 h2 => ?_, fun hd => ?_⟩
  · have hlive : (o.session d).handler.running = true := hsession d ▸ hd
    rcases hx.running d hlive with hm | ⟨k, hk⟩
    · exact .inl hm
    · refine .inr ⟨k, ?_⟩
      by_cases hkj : k = j
      · subst hkj
        rw [hj] at hk
        rcases List.mem_cons.mp hk with rfl | hk
        · rw [hdone] at hlive
          cases hlive
        · simpa [setLoop] using hk
      · simpa [setLoop, setSession, hkj] using hk
  · change (Function.update o.session i _ d).handler.running = false
    rw [hsession d]
    by_cases hdi : d = i
    · subst hdi
      exact hdone
    · exact hx.worker d (by simpa [setLoop, setSession, hdi] using hd)
  · exact List.subset_nil.mp (hx.runLoop h1 h2 ▸ hsub .run)
  · exact List.subset_nil.mp (hx.destructorLoop hd ▸ hsub .destructor)

theorem Tracked.joinLoop {a : TcpServerAction C} (hx : Tracked o) (h : o.joinLoop a = some o') :
    Tracked o' := by
  have htodo : ∀ (j : Joiner) (l : ClientLoop), l.todo = (o.loop j).todo →
      ∀ k, (Function.update o.loop j l k).todo = (o.loop k).todo := fun j l hl k => by
    by_cases hkj : k = j
    · subst hkj
      simpa using hl
    · simp [hkj]
  cases loopStep_of_joinLoop h with
  | @exchange j _ _ _ hj | @close j _ _ hj =>
    exact hx.move ⟨fun _ => ⟨id, rfl⟩, rfl, htodo j _ (by rw [hj])⟩ rfl rfl
  | join hj hexited => exact hx.loopJoin hj hexited

theorem handleClient_sameSessions {a : TcpServerAction C} (h : handleClient s o a = some o') :
    SameSessions o o' := by
  have hset : ∀ (x : TcpServer C) (i : Nat) (p : HandlerPc) (completed : Bool),
      (o.session i).handler.running = true → x.session = o.session → x.mClients = o.mClients →
      x.loop = o.loop →
      SameSessions o (x.setSession i { x.session i with completed := completed, handler := p }) :=
    fun x i p completed hrun hsession hclients hloop => by
      refine ⟨fun d => ?_, hclients, fun _ => by simp [setSession, hloop]⟩
      by_cases hdi : d = i
      · subst hdi
        simp [setSession, hsession, hrun]
      · simp [setSession, hsession, hdi]
  cases handlerStep_of_handleClient h with
  | @move _ i _ hmove => exact hset o i _ _ hmove.holds.1.1 rfl rfl rfl
  | @exchange i hpc | @close i hpc | @complete i hpc | @returns i hpc =>
    exact hset _ i _ _ (by rw [hpc]; rfl) rfl rfl rfl

theorem Tracked.preRun {a : TcpServerAction C} (hx : Tracked o) (h : o.preRun a = some o') :
    Tracked o' := by
  have hsame := preRun_same h
  have hne := TcpServerHook.ne_of_run (preRun_home h).1
  exact hx.of_same hsame.sameSessions (fun _ _ => hx.runLoop (hne _ rfl) (hne _ rfl))
    (hsame.destructor ▸ hx.destructorLoop)

theorem Tracked.run {a : TcpServerAction C} (hx : Tracked o) (h : run s o a = some o') :
    Tracked o' := by
  cases runStep_of_run h with
  | move hmove =>
    obtain ⟨⟨-, hreap, hjoin⟩, -⟩ := hmove.accepting
    exact hx.of_same (.of_eq ⟨rfl, rfl, rfl⟩) (fun _ _ => hx.runLoop hreap hjoin)
      hx.destructorLoop
  | reapCompletedClients hhook =>
    refine hx.splice .run _ _ _ o.destructor (hx.runLoop (by simp [hhook]) (by simp [hhook]))
      (fun i hi => ?_) (fun hne => absurd rfl hne) (fun hd => ⟨by simp, hx.destructorLoop hd⟩)
    cases hc : (o.session i).completed
    · exact .inl (List.mem_filter.mpr ⟨hi, by simp [hc]⟩)
    · exact .inr (List.mem_filter.mpr ⟨hi, hc⟩)
  | joinAndClearAllClients hhook =>
    exact hx.splice .run [] o.mClients .joining o.destructor
      (hx.runLoop (by simp [hhook]) (by simp [hhook])) (fun i hi => .inr hi)
      (fun _ hne => absurd rfl hne) (fun hd => ⟨by simp, hx.destructorLoop hd⟩)
  | reaped _ htodo | joined _ htodo =>
    exact hx.of_same (endLoop_same htodo) (fun _ _ => htodo) hx.destructorLoop
  | startClientSession hhook =>
    exact hx.startClientSession (hx.runLoop (by simp [hhook]) (by simp [hhook]))
  | accepted hhook | makeClientInfo hhook | makeClientInfoThrows hhook | closeSocketValue hhook
  | exchangeServer hhook | closeServer hhook =>
    exact hx.of_same (.of_eq ⟨rfl, rfl, rfl⟩)
      (fun _ _ => hx.runLoop (by simp [hhook]) (by simp [hhook])) hx.destructorLoop

theorem Tracked.destroy {a : TcpServerAction C} (hx : Tracked o)
    (h : destroy s o a = some o') : Tracked o' := by
  cases a with
  | destructorJoinAndClear =>
    simp only [TcpServer.destroy, Option.ite_none_right_eq_some, Option.some.injEq] at h
    obtain ⟨⟨hdtor, -⟩, rfl⟩ := h
    exact hx.splice .destructor [] o.mClients o.hook .joining
      (hx.destructorLoop (by simp [hdtor])) (fun i hi => .inr hi)
      (fun h1 h2 => ⟨by simp, hx.runLoop h1 h2⟩) (fun hne => absurd rfl hne)
  | destructorJoined =>
    simp only [TcpServer.destroy, Option.ite_none_right_eq_some, Option.some.injEq] at h
    obtain ⟨⟨-, htodo⟩, rfl⟩ := h
    exact hx.of_same (endLoop_same htodo) hx.runLoop (fun _ => htodo)
  | _ =>
    have hframe : (o'.session = o.session ∧ o'.mClients = o.mClients ∧ o'.loop = o.loop) ∧
        o'.hook = o.hook ∧ o.destructor ≠ .joining := by
      simp only [TcpServer.destroy] at h
      grind -linarith
    obtain ⟨hsame, hhook, hdtor⟩ := hframe
    exact hx.of_same (.of_eq hsame) (hhook ▸ hx.runLoop) (fun _ => hx.destructorLoop hdtor)

theorem Tracked.own {a : TcpServerAction C} (hx : Tracked o) (h : own s o a = some o') :
    Tracked o' := by
  obtain ⟨-, h | h | h | h | h | h⟩ := own_cases h
  · exact hx.preRun h
  · exact hx.run h
  · exact hx.joinLoop h
  · have hsame := handleClient_same h
    exact hx.move (handleClient_sameSessions h) hsame.2.1 hsame.2.2.2
  · obtain ⟨hsame, hhook⟩ := stopTriggered_same h
    exact hx.move hsame.sameSessions hhook hsame.destructor
  · exact hx.destroy h

theorem Tracked.calls {c : TcpServerCaller C} {k : Call} (hx : Tracked o)
    (h : o.calls c k = some o') : Tracked o' := by
  cases c with
  | user d =>
    simp only [TcpServer.calls, Option.ite_none_right_eq_some, Option.some.injEq] at h
    obtain ⟨-, rfl⟩ := h
    exact hx
  | run =>
    simp only [TcpServer.calls, Option.ite_none_right_eq_some, Option.some.injEq] at h
    obtain ⟨⟨hhook, -⟩, rfl⟩ := h
    exact hx.of_same (.of_eq ⟨rfl, rfl, rfl⟩)
      (fun _ _ => hx.runLoop (by simp [hhook]) (by simp [hhook])) hx.destructorLoop
  | destructor =>
    simp only [TcpServer.calls] at h
    split at h
    · rename_i hdtor
      simp only [Option.ite_none_right_eq_some, Option.some.injEq] at h
      obtain ⟨-, rfl⟩ := h
      exact hx.of_same (.of_eq ⟨rfl, rfl, rfl⟩) hx.runLoop
        (fun _ => hx.destructorLoop (by simp [hdtor]))
    · rename_i hdtor
      simp only [Option.ite_none_right_eq_some, Option.some.injEq] at h
      obtain ⟨-, rfl⟩ := h
      refine hx.of_same ⟨fun i => ?_, rfl, fun _ => rfl⟩ hx.runLoop
        (fun _ => hx.destructorLoop (by simp [hdtor]))
      simp only [destroyAll]
      split <;> exact ⟨id, rfl⟩
    · cases h

theorem Tracked.sync {a : BaseAction (TcpServerCaller C)} (hx : Tracked o)
    (hat : HookAt s.current o.hook) (hm : BaseWorker.Moves s a t) (hy : sync s a o = some o') :
    Tracked o' := by
  have hy := syncHooks_of_sync hy
  have hmove : ∀ hook : TcpServerHook, (o.loop .run).todo = [] → Tracked (o.setHook hook) :=
    fun hook hnil =>
      hx.of_same (.of_eq ⟨rfl, rfl, rfl⟩) (fun _ _ => hnil) hx.destructorLoop
  have hbegin : s.current.hookHome = none → (o.loop .run).todo = [] := fun hcur =>
    hx.runLoop (by simp [hat.idle hcur]) (by simp [hat.idle hcur])
  cases a with
  | call c k => exact hx.calls hy
  | startSection c created =>
    obtain rfl := Option.some.inj hy
    split
    · exact hx.move (.of_eq ⟨rfl, rfl, rfl⟩) rfl rfl
    · exact hx
  | preRunBegin r =>
    obtain rfl := Option.some.inj hy
    cases hm with
    | rest hact => cases hact
    | preRunBegin _ hfrom _ => exact hmove _ (hbegin (by rw [hfrom]; rfl))
  | setRunning r =>
    obtain rfl := Option.some.inj hy
    cases hm with
    | rest hact => cases hact
    | setRunning _ hfrom _ => exact hmove _ (hbegin (by rw [hfrom]; rfl))
  | preRunEnd r e | runEnd r e =>
    simp only [syncHooks, Option.ite_none_right_eq_some, Option.some.injEq] at hy
    obtain ⟨hdone, rfl⟩ := hy
    exact hmove _ (hx.runLoop (by simp [hdone]) (by simp [hdone]))
  | stopSection c =>
    obtain rfl := Option.some.inj hy
    split
    · exact hx.move (.of_eq ⟨rfl, rfl, rfl⟩) rfl rfl
    · exact hx
  | stopTriggeredEnd c =>
    simp only [syncHooks, Option.ite_none_right_eq_some, Option.some.injEq] at hy
    obtain ⟨-, rfl⟩ := hy
    exact hx.move (.of_eq ⟨rfl, rfl, rfl⟩) rfl rfl
  | _ =>
    obtain rfl := Option.some.inj hy
    exact hx

theorem tracked_init : Tracked ({} : TcpServer C) where
  running _ h := by cases h
  worker _ _ := rfl
  runLoop _ _ := rfl
  destructorLoop _ := rfl

theorem tracked_of_reachable {ok : Object (TcpServerCaller C) (TcpServer C) →
      ObjectAction (TcpServerCaller C) (TcpServerAction C) → Prop}
    {s : Object (TcpServerCaller C) (TcpServer C)}
    (hr : (TCPServer_V2 C).system.ReachableBy ok s) : Tracked s.ext := by
  refine ReachableBy.invariant (P := fun s => Tracked s.ext) tracked_init
    (fun s a t hr hx _ hs => ?_) hr
  cases a with
  | base a =>
    obtain ⟨hb, hy⟩ := Derived.step_base.mp hs
    obtain ⟨hi, hu⟩ := Derived.inherits hr
    exact hx.sync (hookAt_of_reachable hr) (BaseWorker.moves_of_step hi hu hb) hy
  | own a => exact hx.own (Derived.step_own.mp hs).2

/-! ## The destructor -/

theorem calls_stage {c : TcpServerCaller C} {k : Call} (h : o.calls c k = some o') :
    o'.destructor.stage = o.destructor.stage ∨
      (o.destructor.stage = .idle ∧ c = .destructor ∧ k = .stopThread true ∧
        o'.destructor.stage = .stopThread) := by
  cases c <;> simp only [calls] at h <;>
    grind -linarith [setHook, destroyAll, TcpServerDestructor.stage]

theorem sync_stage {a : BaseAction (TcpServerCaller C)} (h : sync s a o = some o') :
    o'.destructor.stage = o.destructor.stage ∨ (o.destructor.stage = .idle ∧
      a = .call .destructor (.stopThread true) ∧ o'.destructor.stage = .stopThread) := by
  have h := syncHooks_of_sync h
  cases a with
  | call c k =>
    rcases calls_stage h with hsame | ⟨hidle, rfl, rfl, hstop⟩
    · exact .inl hsame
    · exact .inr ⟨hidle, rfl, hstop⟩
  | _ =>
    simp only [syncHooks] at h
    grind -linarith [setHook, setStop]

theorem run_destructor {a : TcpServerAction C} (h : run s o a = some o') :
    o'.destructor = o.destructor := by
  cases runStep_of_run h with
  | @startClientSession r => cases r <;> rfl
  | _ => rfl

theorem own_stage {a : TcpServerAction C} (h : own s o a = some o') :
    o'.destructor.stage = o.destructor.stage ∨ (o.destructor.stage = .stopThread ∧
      (∃ k b, s.caller .destructor = .returned k b) ∧ o'.destructor.stage = .behind) := by
  obtain ⟨-, h | h | h | h | h | h⟩ := own_cases h
  · exact .inl (by rw [(preRun_same h).destructor])
  · exact .inl (congrArg _ (run_destructor h))
  · exact .inl (by rw [(joinLoop_same h).2.2.2])
  · exact .inl (by rw [(handleClient_same h).2.2.2])
  · exact .inl (by rw [(stopTriggered_same h).1.destructor])
  · cases a <;> simp only [destroy] at h <;>
      grind -linarith [spliceAll, endLoop, destroyAll, setLoop, TcpServerDestructor.stage]

variable (C) in
def destroyed : Destroyed (TcpServerCaller C) (TcpServer C) (TcpServerAction C) where
  derived := TCPServer_V2 C
  destructor := .destructor
  stage o := o.destructor.stage
  init := rfl
  sync := sync_stage
  called {s o o' k} h hstage := by
    have h := syncHooks_of_sync h
    cases hd : o.destructor <;> simp_all [syncHooks, calls, TcpServerDestructor.stage]
  own := own_stage

/-- Behind the section of the destructor's `joinAndClearAllClients` no session is listed. -/
def Cleared (o : TcpServer C) : Prop := o.destructor.cleared = true → o.mClients = []

/-- No step of the worker reaches that section or adds a session. -/
theorem sync_cleared {a : BaseAction (TcpServerCaller C)} (h : sync s a o = some o') :
    o'.mClients = o.mClients ∧
      (o'.destructor.cleared = true → o.destructor.cleared = true) := by
  have h := syncHooks_of_sync h
  cases a with
  | call c k =>
    simp only [syncHooks] at h
    cases c <;> simp only [calls] at h <;>
      grind -linarith [setHook, destroyAll, TcpServerDestructor.cleared]
  | _ =>
    simp only [syncHooks] at h
    grind -linarith [setHook, setStop]

theorem joinLoop_mClients {a : TcpServerAction C} (h : o.joinLoop a = some o') :
    o'.mClients = o.mClients := by
  cases loopStep_of_joinLoop h <;> rfl

theorem Cleared.destroy {a : TcpServerAction C} (hx : Cleared o)
    (h : destroy s o a = some o') : Cleared o' := by
  unfold Cleared at hx ⊢
  cases a <;> simp only [TcpServer.destroy] at h <;>
    grind -linarith [spliceAll, endLoop, destroyAll, setLoop, TcpServerDestructor.cleared]

theorem stage_of_cleared (h : o.destructor.cleared = true) :
    o.destructor.stage = .behind := by
  revert h
  cases o.destructor <;> simp [TcpServerDestructor.cleared, TcpServerDestructor.stage]

theorem cleared_of_reachable {s : Object (TcpServerCaller C) (TcpServer C)}
    (hr : (TCPServer_V2 C).system.ReachableBy (destroyed C).WaitsForWorker s) :
    Cleared s.ext := by
  refine ReachableBy.invariant (P := fun s => Cleared s.ext) (fun _ => rfl)
    (fun s a t hr hx _ hs => ?_) hr
  cases a with
  | base a =>
    obtain ⟨hclients, hdtor⟩ := sync_cleared (Derived.step_base.mp hs).2
    exact fun hc => hclients.trans (hx (hdtor hc))
  | own a =>
    obtain ⟨-, h | h | h | h | h | h⟩ := own_cases (Derived.step_own.mp hs).2
    · unfold Cleared
      rwa [(preRun_same h).mClients, (preRun_same h).destructor]
    · -- `run` may add a session, but it has ended
      intro hc
      rw [run_destructor h] at hc
      have hpast := Destroyed.pastHooks_of_behind (V := destroyed C) hr (stage_of_cleared hc)
      have hidle := (hookAt_of_reachable hr).idle (RunnerPc.hookHome_of_pastHooks hpast)
      have hhome := (run_home h).1
      rw [hidle] at hhome
      cases hhome
    · unfold Cleared
      rwa [(joinLoop_same h).2.2.2, joinLoop_mClients h]
    · unfold Cleared
      rwa [(handleClient_same h).2.2.2, (handleClient_sameSessions h).2.1]
    · unfold Cleared
      rwa [(stopTriggered_same h).1.mClients, (stopTriggered_same h).1.destructor]
    · exact hx.destroy h

/-- When the destructor body has completed no hook and no handler runs. -/
theorem quiet_of_destroyed {s : Object (TcpServerCaller C) (TcpServer C)}
    (hr : (TCPServer_V2 C).system.ReachableBy (destroyed C).WaitsForWorker s)
    (hbase : s.ext.destructor = .base) :
    s.base.current.inHook = false ∧ ∀ i, (s.ext.session i).handler.running = false := by
  have hpast := Destroyed.pastHooks_of_behind (V := destroyed C) hr
    (show s.ext.destructor.stage = .behind by rw [hbase]; rfl)
  have hidle := (hookAt_of_reachable hr).idle (RunnerPc.hookHome_of_pastHooks hpast)
  have hx := tracked_of_reachable hr
  refine ⟨RunnerPc.inHook_of_pastHooks hpast, fun i => ?_⟩
  by_contra hne
  rcases hx.running i (by simpa using hne) with hi | ⟨j, hi⟩
  · rw [cleared_of_reachable hr (by rw [hbase]; rfl)] at hi
    cases hi
  · cases j with
    | run =>
      rw [hx.runLoop (by simp [hidle]) (by simp [hidle])] at hi
      cases hi
    | destructor =>
      rw [hx.destructorLoop (by simp [hbase])] at hi
      cases hi

end TcpServer

end ThreadComponent
