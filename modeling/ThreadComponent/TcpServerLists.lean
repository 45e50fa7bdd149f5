import ThreadComponent.TcpServerWaits

/-!
# The lists of TCPServer_V2 and their mutex

`closeAllClientSockets` goes over `m_clients` with the mutex in hand, so that no session comes or
leaves meanwhile, and a session is with one joiner or in `m_clients`, never in two places.
-/

set_option autoImplicit false
set_option linter.unusedSectionVars false

namespace ThreadComponent

open Transitions System

/-- The sessions that the loop of `closeAllClientSockets` has yet to come to. -/
def TcpServerStop.todo : TcpServerStop → List Nat
  | .clients todo | .closeClient todo => todo
  | _ => []

namespace TcpServer
variable {C : Type} [DecidableEq C] {s t : BaseWorker (TcpServerCaller C)} {o o' : TcpServer C}

/-! ## The mutex -/

/-- Who is in the loop of `closeAllClientSockets` has the mutex, and the sessions that it has yet
to come to are in `m_clients`. -/
def Locked (o : TcpServer C) : Prop :=
  ∀ c, (o.stop c).locks = true → o.mClientsMutex = some c ∧ (o.stop c).todo ⊆ o.mClients

theorem Locked.not_locks (hx : Locked o) (hfree : o.mClientsMutex = none)
    (c : TcpServerCaller C) : (o.stop c).locks = false := by
  cases hlocks : (o.stop c).locks with
  | false => rfl
  | true =>
    have hmutex := (hx c hlocks).1
    rw [hfree] at hmutex
    cases hmutex

theorem Locked.of_same (hx : Locked o)
    (hstop : o'.stop = o.stop ∧ o'.mClientsMutex = o.mClientsMutex)
    (hclients : o'.mClients = o.mClients ∨ o.mClientsMutex = none) : Locked o' := by
  intro c hc
  rw [hstop.1] at hc ⊢
  rw [hstop.2]
  rcases hclients with hsame | hfree
  · rw [hsame]
    exact hx c hc
  · rw [hx.not_locks hfree c] at hc
    cases hc

/-- One stop hook goes on, and takes the mutex from nobody. -/
theorem Locked.setStop {c : TcpServerCaller C} {p : TcpServerStop} (hx : Locked o)
    (hstop : o'.stop = Function.update o.stop c p) (hclients : o'.mClients = o.mClients)
    (hself : p.locks = true → o'.mClientsMutex = some c ∧ p.todo ⊆ o.mClients)
    (hothers : ∀ d, d ≠ c → o.mClientsMutex = some d → o'.mClientsMutex = some d) :
    Locked o' := by
  intro d hd
  rw [hstop] at hd ⊢
  rw [hclients]
  by_cases hdc : d = c
  · subst hdc
    rw [Function.update_self] at hd ⊢
    exact hself hd
  · rw [Function.update_of_ne hdc] at hd ⊢
    obtain ⟨hmutex, htodo⟩ := hx d hd
    exact ⟨hothers d hdc hmutex, htodo⟩

theorem run_mClients {a : TcpServerAction C} (h : run s o a = some o') :
    o'.mClients = o.mClients ∨ o.mClientsMutex = none := by
  cases runStep_of_run h with
  | reapCompletedClients _ hfree | joinAndClearAllClients _ hfree
  | startClientSession _ _ hfree => exact .inr hfree
  | _ => exact .inl rfl

theorem destroy_mClients {a : TcpServerAction C} (h : destroy s o a = some o') :
    o'.mClients = o.mClients ∨ o.mClientsMutex = none := by
  cases a with
  | destructorJoinAndClear =>
    simp only [destroy, Option.ite_none_right_eq_some] at h
    exact .inr h.1.2
  | _ =>
    simp only [destroy] at h
    grind -linarith [endLoop, destroyAll, setLoop]

theorem Locked.stopTriggered {a : TcpServerAction C} (hx : Locked o)
    (h : o.stopTriggered a = some o') : Locked o' := by
  cases a with
  | stopExchange c | stopClose c =>
    simp only [TcpServer.stopTriggered, Option.ite_none_right_eq_some, Option.some.injEq] at h
    obtain ⟨-, rfl⟩ := h
    exact hx.setStop rfl rfl (fun hp => by cases hp) fun _ _ => id
  | stopLock c =>
    simp only [TcpServer.stopTriggered, Option.ite_none_right_eq_some, Option.some.injEq] at h
    obtain ⟨⟨-, hfree⟩, rfl⟩ := h
    refine hx.setStop rfl rfl (fun _ => ⟨rfl, List.Subset.refl _⟩) fun d _ hd => ?_
    rw [hfree] at hd
    cases hd
  | stopClientExchange c | stopClientClose c =>
    simp only [TcpServer.stopTriggered] at h
    split at h
    · rename_i hat
      obtain rfl := Option.some.inj h
      obtain ⟨hmutex, htodo⟩ := hx c (by rw [hat]; rfl)
      rw [hat] at htodo
      refine hx.setStop rfl rfl (fun _ => ⟨hmutex, fun i hi => htodo ?_⟩) fun _ _ => id
      first | exact hi | exact List.mem_cons_of_mem _ hi
    · cases h
  | stopUnlock c =>
    simp only [TcpServer.stopTriggered, Option.ite_none_right_eq_some, Option.some.injEq] at h
    obtain ⟨hat, rfl⟩ := h
    obtain ⟨hmutex, -⟩ := hx c (by rw [hat]; rfl)
    refine hx.setStop rfl rfl (fun hp => by cases hp) fun d hdc hd => ?_
    exact absurd (Option.some.inj (hd.symm.trans hmutex)) hdc
  | _ => cases h

theorem Locked.own {a : TcpServerAction C} (hx : Locked o) (h : own s o a = some o') :
    Locked o' := by
  obtain ⟨-, h | h | h | h | h | h⟩ := own_cases h
  · exact hx.of_same (preRun_clients h).2 (.inl (preRun_same h).mClients)
  · exact hx.of_same (run_stop h) (run_mClients h)
  · have hmutex : o'.mClientsMutex = o.mClientsMutex := by
      cases loopStep_of_joinLoop h <;> rfl
    exact hx.of_same ⟨(joinLoop_same h).2.2.1, hmutex⟩ (.inl (joinLoop_mClients h))
  · have hmutex : o'.mClientsMutex = o.mClientsMutex := by
      cases handlerStep_of_handleClient h <;> rfl
    exact hx.of_same ⟨(handleClient_same h).2.2.1, hmutex⟩
      (.inl (handleClient_sameSessions h).2.1)
  · exact hx.stopTriggered h
  · exact hx.of_same (destroy_stop h) (destroy_mClients h)

theorem Locked.sync {a : BaseAction (TcpServerCaller C)} (hx : Locked o)
    (h : sync s a o = some o') : Locked o' := by
  have h := syncHooks_of_sync h
  cases a with
  | call c k =>
    have hframe : (o'.stop = o.stop ∧ o'.mClientsMutex = o.mClientsMutex) ∧
        o'.mClients = o.mClients := by
      simp only [syncHooks] at h
      cases c <;> simp only [calls] at h <;> grind -linarith [setHook, destroyAll]
    exact hx.of_same hframe.1 (.inl hframe.2)
  | stopSection c =>
    obtain rfl := Option.some.inj h
    split
    · refine hx.setStop rfl rfl (fun hp => ?_) fun _ _ => id
      split at hp <;> cases hp
    · exact hx
  | stopTriggeredEnd c =>
    simp only [syncHooks, Option.ite_none_right_eq_some, Option.some.injEq] at h
    obtain ⟨-, rfl⟩ := h
    exact hx.setStop rfl rfl (fun hp => by cases hp) fun _ _ => id
  | _ =>
    have hframe : (o'.stop = o.stop ∧ o'.mClientsMutex = o.mClientsMutex) ∧
        o'.mClients = o.mClients := by
      simp only [syncHooks] at h
      grind -linarith [setHook]
    exact hx.of_same hframe.1 (.inl hframe.2)

theorem locked_of_reachable {ok : Object (TcpServerCaller C) (TcpServer C) →
      ObjectAction (TcpServerCaller C) (TcpServerAction C) → Prop}
    {x : Object (TcpServerCaller C) (TcpServer C)}
    (hr : (TCPServer_V2 C).system.ReachableBy ok x) : Locked x.ext := by
  refine ReachableBy.invariant (P := fun x => Locked x.ext) (fun _ hc => by cases hc)
    (fun x a y _ hx _ hs => ?_) hr
  cases a with
  | base a => exact hx.sync (Derived.step_base.mp hs).2
  | own a => exact hx.own (Derived.step_own.mp hs).2

/-! ## The lists -/

/-- No session is in two of the lists that joiners and stop hooks go over, and each has begun. -/
structure Apart (o : TcpServer C) : Prop where
  once : ∀ i, o.waiting i ≤ 1
  started : ∀ i, 0 < o.waiting i → (o.session i).handler ≠ .absent

theorem Apart.of_same (hx : Apart o) (hlists : SameLists o o')
    (hsession : ∀ i, (o'.session i).handler = .absent → (o.session i).handler = .absent) :
    Apart o' where
  once i := by
    rw [(hlists.waiting_joined i).1]
    exact hx.once i
  started i hi habsent := by
    rw [(hlists.waiting_joined i).1] at hi
    exact hx.started i hi (hsession i habsent)

theorem Apart.of_waiting (hx : Apart o) (hwaiting : ∀ i, o'.waiting i = o.waiting i)
    (hsession : ∀ i, (o'.session i).handler = (o.session i).handler) : Apart o' where
  once i := by
    rw [hwaiting]
    exact hx.once i
  started i hi := by
    rw [hsession]
    exact hx.started i (hwaiting i ▸ hi)

theorem waiting_endLoop {j : Joiner} (htodo : (o.loop j).todo = []) (i : Nat) :
    (o.endLoop j).waiting i = o.waiting i := by
  cases j <;> simp [waiting, endLoop, destroyAll, setLoop, htodo]

theorem Apart.created {i : Nat} (hx : Apart o) (habsent : (o.session i).handler = .absent) :
    Apart (o.startClientSession i .created) := by
  have hnone : o.waiting i = 0 := by
    by_contra hne
    exact hx.started i (Nat.pos_of_ne_zero hne) habsent
  have hwaiting : ∀ d, (o.startClientSession i .created).waiting d =
      o.waiting d + if d = i then 1 else 0 := by
    intro d
    simp only [waiting, startClientSession, setSession, List.count_append, List.count_singleton,
      beq_iff_eq, eq_comm (a := i)]
    omega
  have hsession : ∀ d, (o.startClientSession i .created).session d =
      Function.update o.session i { worker := true, handler := .entry } d := fun _ => rfl
  refine ⟨fun d => ?_, fun d hd => ?_⟩
  · rw [hwaiting]
    by_cases hdi : d = i
    · subst hdi
      rw [hnone, if_pos rfl]
    · rw [if_neg hdi]
      exact hx.once d
  · rw [hsession]
    rw [hwaiting] at hd
    by_cases hdi : d = i
    · subst hdi
      simp
    · rw [if_neg hdi] at hd
      rw [Function.update_of_ne hdi]
      exact hx.started d hd

theorem Apart.run {a : TcpServerAction C} (hx : Apart o) (hl : Loops o) (hu : Unstarted o)
    (h : run s o a = some o') : Apart o' := by
  cases runStep_of_run h with
  | reapCompletedClients hhook =>
    have hidle := hl.1 (by simp [hhook]) (by simp [hhook])
    have hall : ∀ d, (o.mClients.filter fun i => !(o.session i).completed).count d +
        (o.mClients.filter fun i => (o.session i).completed).count d = o.mClients.count d := by
      intro d
      rw [Nat.add_comm, ← List.count_append]
      exact (List.filter_append_perm _ _).count_eq d
    exact hx.of_waiting (waiting_splice (by rw [hidle]) hall · .reaping o.destructor) fun _ => rfl
  | joinAndClearAllClients hhook =>
    have hidle := hl.1 (by simp [hhook]) (by simp [hhook])
    exact hx.of_waiting (waiting_splice (by rw [hidle]) (fun _ => Nat.zero_add _) · .joining
      o.destructor) fun _ => rfl
  | reaped _ htodo | joined _ htodo =>
    exact hx.of_waiting (waiting_endLoop htodo) handler_destroyAll
  | @startClientSession r i hhook hi =>
    have habsent := (hu.starting (by rw [hhook]; rfl) i hi).2
    cases r with
    | notAdded => exact hx.of_same (.of_eq ⟨rfl, rfl⟩) fun _ => id
    | created => exact hx.created habsent
    | notCreated =>
      refine hx.of_same (.of_eq ⟨rfl, rfl⟩) fun d hd => ?_
      by_cases hdi : d = i
      · subst hdi
        exact habsent
      · have hsame : (o.startClientSession i .notCreated).session d = o.session d :=
          Function.update_of_ne hdi _ _
        rwa [hsame] at hd
  | _ => exact hx.of_same (.of_eq ⟨rfl, rfl⟩) fun _ => id

theorem Apart.joinLoop {a : TcpServerAction C} (hx : Apart o) (h : o.joinLoop a = some o') :
    Apart o' := by
  have hhandler := (joinLoop_handler h).1
  cases loopStep_of_joinLoop h with
  | @exchange j _ _ _ hj | @close j _ _ hj =>
    refine hx.of_waiting (fun i => ?_) fun _ => rfl
    cases j <;> simp [waiting, setLoop, hj]
  | @join j joined todo i hj =>
    have hwaiting := fun d => (joined_loopJoin hj { o.session i with worker := false } d).1
    refine ⟨fun d => ?_, fun d hd => ?_⟩
    · have hold := hx.once d
      rw [hwaiting] at hold
      omega
    · rw [hhandler]
      refine hx.started d ?_
      rw [hwaiting]
      omega

theorem Apart.own {a : TcpServerAction C} (hx : Apart o) (hl : Loops o) (hu : Unstarted o)
    (h : own s o a = some o') : Apart o' := by
  obtain ⟨-, h | h | h | h | h | h⟩ := own_cases h
  · have hsame := preRun_same h
    refine hx.of_same (.of_eq ⟨hsame.mClients, hsame.loop⟩) fun i => ?_
    rw [hsame.session]
    exact id
  · exact hx.run hl hu h
  · exact hx.joinLoop h
  · obtain ⟨i, x, hsession, -, hstarted, -, -, hclients, hloop, -⟩ := handleClient_effect h
    refine hx.of_same (.of_eq ⟨hclients, hloop⟩) fun d hd => ?_
    rw [hsession] at hd
    by_cases hdi : d = i
    · subst hdi
      rw [Function.update_self] at hd
      exact absurd hd hstarted
    · rwa [Function.update_of_ne hdi] at hd
  · have hsame := (stopTriggered_same h).1
    refine hx.of_same (.of_eq ⟨hsame.mClients, hsame.loop⟩) fun i => ?_
    rw [hsame.session]
    exact id
  · have hhandler := (destroy_handler h).1
    cases a with
    | destructorJoinAndClear =>
      simp only [TcpServer.destroy, Option.ite_none_right_eq_some, Option.some.injEq] at h
      obtain ⟨⟨hdtor, -⟩, rfl⟩ := h
      have hidle := hl.2 (by simp [hdtor])
      have hall : ∀ d, ([] : List Nat).count d + o.mClients.count d = o.mClients.count d :=
        fun _ => Nat.zero_add _
      exact hx.of_waiting (waiting_splice (j := .destructor) (by rw [hidle]) hall · o.hook
        .joining) hhandler
    | destructorJoined =>
      simp only [TcpServer.destroy, Option.ite_none_right_eq_some, Option.some.injEq] at h
      obtain ⟨⟨-, htodo⟩, rfl⟩ := h
      exact hx.of_waiting (waiting_endLoop htodo) hhandler
    | _ =>
      have hframe : o'.mClients = o.mClients ∧ o'.loop = o.loop := by
        simp only [TcpServer.destroy] at h
        grind -linarith
      exact hx.of_same (.of_eq hframe) fun i => by rw [hhandler]; exact id

theorem sync_lists {a : BaseAction (TcpServerCaller C)} (h : sync s a o = some o') :
    o'.mClients = o.mClients ∧ o'.loop = o.loop := by
  have h := syncHooks_of_sync h
  cases a with
  | call c k =>
    simp only [syncHooks] at h
    cases c <;> simp only [calls] at h <;> grind -linarith [setHook, destroyAll]
  | _ =>
    simp only [syncHooks] at h
    grind -linarith [setHook, setStop]

theorem apart_of_reachable {ok : Object (TcpServerCaller C) (TcpServer C) →
      ObjectAction (TcpServerCaller C) (TcpServerAction C) → Prop}
    {x : Object (TcpServerCaller C) (TcpServer C)}
    (hr : (TCPServer_V2 C).system.ReachableBy ok x) : Apart x.ext := by
  refine ReachableBy.invariant (P := fun x => Apart x.ext) ?_ (fun x a y hr hx _ hs => ?_) hr
  · exact ⟨fun _ => Nat.zero_le _, fun _ h => by cases h⟩
  · cases a with
    | base a =>
      have hy := (Derived.step_base.mp hs).2
      exact hx.of_same (.of_eq (sync_lists hy)) fun i => by rw [(sync_handler hy).1]; exact id
    | own a =>
      exact hx.own (loops_of_reachable hr) (unstarted_of_reachable hr) (Derived.step_own.mp hs).2

end TcpServer

end ThreadComponent
