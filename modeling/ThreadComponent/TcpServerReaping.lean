import ThreadComponent.TcpServerSystemCalls

/-!
# What the accept loop waits for when it reaps

`reapCompletedClients` closes and joins sessions on the thread that accepts. It takes those that
say that they are completed, and such a session is past its last callback and its descriptor is
closed.
-/

set_option autoImplicit false
set_option linter.unusedSectionVars false

namespace ThreadComponent

open Transitions System

namespace ClientSockets
variable {T : Type} [DecidableEq T] {x : ClientSockets T} {h k p : ClientPlace T}

/-- What is moved elsewhere is missing where it was, and nothing is added to a third place. -/
theorem move_place_or (hk : p ≠ k) :
    (x.move h k).place p = none ∨ (x.move h k).place p = x.place p := by
  by_cases hh : p = h
  · subst hh
    exact .inl (move_place_from hk)
  · exact .inr (move_place_ne hh hk)

theorem close_place_or : (x.close k).place p = none ∨ (x.close k).place p = x.place p := by
  by_cases hk : p = k
  · subst hk
    exact .inl close_place_self
  · exact .inr (close_place_ne hk)

end ClientSockets

namespace TcpServer
variable {C : Type} [DecidableEq C] {s t : BaseWorker (TcpServerCaller C)} {o o' : TcpServer C}

/-- All that the handler of a completed session has yet to do is return. -/
def Finished (o : TcpServer C) : Prop :=
  ∀ i, (o.session i).completed = true →
    (o.session i).handler = .returning ∨ (o.session i).handler = .exited

theorem Finished.of_same (hx : Finished o)
    (hsession : ∀ i, (o'.session i).completed = (o.session i).completed ∧
      (o'.session i).handler = (o.session i).handler) : Finished o' := by
  intro i hi
  rw [(hsession i).1] at hi
  rw [(hsession i).2]
  exact hx i hi

theorem Finished.handle {i : Nat} {y : Session} (hx : Finished o)
    (hsession : o'.session = Function.update o.session i y)
    (hcompleted : y.completed = true → y.handler = .returning ∨ y.handler = .exited) :
    Finished o' := by
  intro d hd
  rw [hsession] at hd ⊢
  by_cases hdi : d = i
  · subst hdi
    rw [Function.update_self] at hd ⊢
    exact hcompleted hd
  · rw [Function.update_of_ne hdi] at hd ⊢
    exact hx d hd

/-- A session that is not at its end is not completed. -/
theorem Finished.not_completed {i : Nat} (hx : Finished o)
    (hreturning : (o.session i).handler ≠ .returning)
    (hexited : (o.session i).handler ≠ .exited) : (o.session i).completed ≠ true := by
  intro hi
  rcases hx i hi with h | h
  · exact hreturning h
  · exact hexited h

theorem Finished.handleClient {a : TcpServerAction C} (hx : Finished o)
    (h : handleClient s o a = some o') : Finished o' := by
  cases handlerStep_of_handleClient h with
  | @move _ i p hmove =>
    have hnot : (o.session i).completed ≠ true := by
      apply hx.not_completed <;>
      · intro hpc
        rw [hpc] at hmove
        cases hmove
    exact hx.handle rfl fun hi => absurd hi hnot
  | @exchange i hpc | @close i hpc =>
    have hnot := hx.not_completed (i := i) (by simp [hpc]) (by simp [hpc])
    exact hx.handle rfl fun hi => absurd hi hnot
  | complete => exact hx.handle rfl fun _ => .inl rfl
  | returns => exact hx.handle rfl fun _ => .inr rfl

theorem completed_destroyAll {nodes : List Nat} (i : Nat) :
    ((o.destroyAll nodes).session i).completed = (o.session i).completed ∧
      ((o.destroyAll nodes).session i).handler = (o.session i).handler := by
  simp only [destroyAll]
  split <;> exact ⟨rfl, rfl⟩

theorem Finished.run {a : TcpServerAction C} (hx : Finished o) (h : run s o a = some o') :
    Finished o' := by
  cases runStep_of_run h with
  | reaped | joined => exact hx.of_same completed_destroyAll
  | @startClientSession r =>
    cases r with
    | notAdded => exact hx.of_same fun _ => ⟨rfl, rfl⟩
    | created | notCreated => exact hx.handle rfl fun hc => by cases hc
  | _ => exact hx.of_same fun _ => ⟨rfl, rfl⟩

theorem Finished.own {a : TcpServerAction C} (hx : Finished o) (h : own s o a = some o') :
    Finished o' := by
  obtain ⟨-, h | h | h | h | h | h⟩ := own_cases h
  · refine hx.of_same fun i => ?_
    rw [(preRun_same h).session]
    exact ⟨rfl, rfl⟩
  · exact hx.run h
  · have hhandler := (joinLoop_handler h).1
    cases loopStep_of_joinLoop h with
    | exchange | close => exact hx.of_same fun _ => ⟨rfl, rfl⟩
    | @join j joined todo i =>
      refine hx.of_same fun d => ⟨?_, hhandler d⟩
      change (Function.update o.session i { o.session i with worker := false } d).completed = _
      by_cases hdi : d = i
      · subst hdi
        rw [Function.update_self]
      · rw [Function.update_of_ne hdi]
  · exact hx.handleClient h
  · refine hx.of_same fun i => ?_
    rw [(stopTriggered_same h).1.session]
    exact ⟨rfl, rfl⟩
  · cases a with
    | destructorJoined =>
      simp only [TcpServer.destroy, Option.ite_none_right_eq_some, Option.some.injEq] at h
      obtain ⟨-, rfl⟩ := h
      exact hx.of_same completed_destroyAll
    | _ =>
      have hsession : o'.session = o.session := by
        simp only [TcpServer.destroy] at h
        grind -linarith [spliceAll, setLoop]
      exact hx.of_same fun i => by rw [hsession]; exact ⟨rfl, rfl⟩

theorem sync_completed {a : BaseAction (TcpServerCaller C)} (h : sync s a o = some o') (i : Nat) :
    (o'.session i).completed = (o.session i).completed := by
  have h := syncHooks_of_sync h
  cases a with
  | call c k =>
    simp only [syncHooks] at h
    cases c <;> simp only [calls] at h <;> grind -linarith [setHook, destroyAll]
  | _ =>
    simp only [syncHooks] at h
    grind -linarith [setHook, setStop]

theorem finished_of_reachable {ok : Object (TcpServerCaller C) (TcpServer C) →
      ObjectAction (TcpServerCaller C) (TcpServerAction C) → Prop}
    {x : Object (TcpServerCaller C) (TcpServer C)}
    (hr : (TCPServer_V2 C).system.ReachableBy ok x) : Finished x.ext := by
  refine ReachableBy.invariant (P := fun x => Finished x.ext) (fun _ h => by cases h)
    (fun x a y _ hx _ hs => ?_) hr
  cases a with
  | base a =>
    have hy := (Derived.step_base.mp hs).2
    exact hx.of_same fun i => ⟨sync_completed hy i, (sync_handler hy).1 i⟩
  | own a => exact hx.own (Derived.step_own.mp hs).2

/-! ## The list of reapCompletedClients -/

/-- What is in the local list of `reapCompletedClients` is completed, and its descriptor is not
there any more. -/
structure Reaping (o : TcpServer C) : Prop where
  completed : o.hook = .reaping → ∀ i ∈ (o.loop .run).todo, (o.session i).completed = true
  emptyHanded : o.hook = .reaping → o.clients.place (.joiner .run) = none

/-- Nothing is added to the list, no session is begun again, and no descriptor is found. -/
theorem Reaping.of_same (hx : Reaping o) (hhook : o'.hook = .reaping → o.hook = .reaping)
    (htodo : (o'.loop .run).todo ⊆ (o.loop .run).todo)
    (hcompleted : ∀ i, (o.session i).completed = true → (o'.session i).completed = true)
    (hplace : o'.clients.place (.joiner .run) = none ∨
      o'.clients.place (.joiner .run) = o.clients.place (.joiner .run)) : Reaping o' where
  completed hreap i hi := hcompleted i (hx.completed (hhook hreap) i (htodo hi))
  emptyHanded hreap := by
    rcases hplace with hnone | hsame
    · exact hnone
    · exact hsame.trans (hx.emptyHanded (hhook hreap))

theorem Reaping.of_not (hne : o.hook ≠ .reaping) : Reaping o :=
  ⟨fun hreap => absurd hreap hne, fun hreap => absurd hreap hne⟩

theorem Reaping.run {a : TcpServerAction C} (hl : Loops o) (hplaced : Placed o)
    (h : run s o a = some o') : Reaping o' := by
  cases runStep_of_run h with
  | reapCompletedClients hhook =>
    refine ⟨fun _ i hi => ?_, fun _ => hplaced.place_none ?_⟩
    · have hmem : i ∈ o.mClients.filter fun i => (o.session i).completed := hi
      exact (List.mem_filter.mp hmem).2
    · rintro d ⟨hmem, -⟩
      rw [hl.1 (by simp [hhook]) (by simp [hhook])] at hmem
      cases hmem
  | @move _ hook hmove =>
    refine .of_not ?_
    change hook ≠ .reaping
    rintro rfl
    generalize o.hook = p at hmove
    generalize hto : TcpServerHook.reaping = q at hmove
    revert hto
    cases hmove with
    | load => cases o.socket.descriptor <;> simp
    | continueRunning | interrupted | testStop => cases s.stopRequested <;> simp
    | acceptInterrupted | acceptFailed | runStopped => simp
  | @startClientSession r => cases r <;> exact .of_not nofun
  | _ => exact .of_not nofun

theorem completed_of_handleClient {a : TcpServerAction C} (h : handleClient s o a = some o')
    {i : Nat} (hi : (o.session i).completed = true) : (o'.session i).completed = true := by
  have hone : ∃ d y, o'.session = Function.update o.session d y ∧
      ((o.session d).completed = true → y.completed = true) := by
    cases handlerStep_of_handleClient h with
    | move | exchange | close | returns => exact ⟨_, _, rfl, id⟩
    | complete => exact ⟨_, _, rfl, fun _ => rfl⟩
  obtain ⟨d, y, hsession, hkeeps⟩ := hone
  rw [hsession]
  by_cases hid : i = d
  · subst hid
    rw [Function.update_self]
    exact hkeeps hi
  · rwa [Function.update_of_ne hid]

/-- The descriptor of a session that is reaped is not in its `socket` any more. -/
theorem Reaping.place_session (hx : Reaping o) (hf : Finished o) (hplaced : Placed o)
    (hreap : o.hook = .reaping) {i : Nat} (hi : i ∈ (o.loop .run).todo) :
    o.clients.place (.session i) = none := by
  refine hplaced.place_none ?_
  rintro d ⟨-, hholds⟩
  rcases hf i (hx.completed hreap i hi) with hpc | hpc <;>
  · rw [hpc] at hholds
    cases hholds

theorem Reaping.joinLoop {a : TcpServerAction C} (hx : Reaping o) (hf : Finished o)
    (hplaced : Placed o) (h : o.joinLoop a = some o') : Reaping o' := by
  have hhook := (joinLoop_same h).2.1
  cases loopStep_of_joinLoop h with
  | @exchange j joined todo i hj =>
    by_cases hjr : .run = j
    · subst hjr
      have hmem : i ∈ (o.loop .run).todo := by simp [hj]
      refine ⟨fun hreap d hd => hx.completed hreap d ?_, fun hreap => ?_⟩
      · simpa [setLoop, hj] using hd
      · exact ClientSockets.move_place_to.trans (hx.place_session hf hplaced hreap hmem)
    · exact hx.of_same (fun hreap => hhook ▸ hreap) (by simp [setLoop, hjr]) (fun _ => id)
        (ClientSockets.move_place_or (by simpa using hjr))
  | @close j _ _ hj =>
    refine hx.of_same (fun hreap => hhook ▸ hreap) ?_ (fun _ => id) ClientSockets.close_place_or
    by_cases hjr : .run = j
    · subst hjr
      simp [setLoop, hj]
    · simp [setLoop, hjr]
  | @join j joined todo i hj =>
    refine hx.of_same (fun hreap => hhook ▸ hreap) ?_ (fun d hd => ?_) (.inr rfl)
    · by_cases hjr : .run = j
      · subst hjr
        simp [setLoop, hj]
      · simp [setLoop, setSession, hjr]
    · change (Function.update o.session i { o.session i with worker := false } d).completed
        = true
      by_cases hdi : d = i
      · subst hdi
        rwa [Function.update_self]
      · rwa [Function.update_of_ne hdi]

/-- The other threads leave the accept loop's list and its hand alone. -/
theorem own_joiner {a : TcpServerAction C} (h : handleClient s o a = some o' ∨
      o.stopTriggered a = some o') :
    o'.clients.place (.joiner .run) = none ∨
      o'.clients.place (.joiner .run) = o.clients.place (.joiner .run) := by
  rcases h with h | h
  · cases handlerStep_of_handleClient h with
    | exchange => exact ClientSockets.move_place_or (by simp)
    | close => exact ClientSockets.close_place_or
    | move | complete | returns => exact .inr rfl
  · cases a with
    | stopClientExchange c =>
      simp only [TcpServer.stopTriggered] at h
      split at h
      · obtain rfl := Option.some.inj h
        exact ClientSockets.move_place_or (by simp)
      · cases h
    | stopClientClose c =>
      simp only [TcpServer.stopTriggered] at h
      split at h
      · obtain rfl := Option.some.inj h
        exact ClientSockets.close_place_or
      · cases h
    | _ =>
      have hclients : o'.clients = o.clients := by
        simp only [TcpServer.stopTriggered] at h
        grind -linarith [setStop]
      exact .inr (by rw [hclients])

theorem Reaping.own {a : TcpServerAction C} (hx : Reaping o) (hf : Finished o) (hl : Loops o)
    (hplaced : Placed o) (h : own s o a = some o') : Reaping o' := by
  obtain ⟨-, h | h | h | h | h | h⟩ := own_cases h
  · exact .of_not (TcpServerHook.ne_of_run (preRun_home h).2 _ rfl)
  · exact Reaping.run hl hplaced h
  · exact hx.joinLoop hf hplaced h
  · obtain ⟨-, -, -, -, -, -, -, -, hloop, -⟩ := handleClient_effect h
    exact hx.of_same (fun hreap => (handleClient_same h).2.1 ▸ hreap) (by rw [hloop]; simp)
      (fun i hi => completed_of_handleClient h hi) (own_joiner (.inl h))
  · obtain ⟨hsame, hhook⟩ := stopTriggered_same h
    exact hx.of_same (fun hreap => hhook ▸ hreap) (by rw [hsame.loop]; simp)
      (fun i hi => by rwa [hsame.session]) (own_joiner (s := s) (.inr h))
  · cases a with
    | destructorJoinAndClear =>
      simp only [TcpServer.destroy, Option.ite_none_right_eq_some, Option.some.injEq] at h
      obtain ⟨-, rfl⟩ := h
      exact hx.of_same id (by simp [spliceAll, setLoop]) (fun _ => id) (.inr rfl)
    | destructorJoined =>
      simp only [TcpServer.destroy, Option.ite_none_right_eq_some, Option.some.injEq] at h
      obtain ⟨-, rfl⟩ := h
      exact hx.of_same id (by simp [endLoop, setLoop, destroyAll])
        (fun i hi => (completed_destroyAll i).1.trans hi) (.inr rfl)
    | _ =>
      have hframe : o'.session = o.session ∧ o'.loop = o.loop ∧ o'.hook = o.hook ∧
          o'.clients = o.clients := by
        simp only [TcpServer.destroy] at h
        grind -linarith
      obtain ⟨hsession, hloop, hhook, hclients⟩ := hframe
      exact hx.of_same (fun hreap => hhook ▸ hreap) (by rw [hloop]; simp)
        (fun i hi => by rwa [hsession]) (.inr (by rw [hclients]))

theorem sync_reaping {a : BaseAction (TcpServerCaller C)} (h : sync s a o = some o')
    (hreap : o'.hook = .reaping) : o.hook = .reaping := by
  have h := syncHooks_of_sync h
  cases a with
  | call c k =>
    simp only [syncHooks] at h
    cases c <;> simp only [calls] at h <;> grind -linarith [setHook, destroyAll]
  | _ =>
    simp only [syncHooks] at h
    grind -linarith [setHook, setStop]

theorem reaping_of_reachable {ok : Object (TcpServerCaller C) (TcpServer C) →
      ObjectAction (TcpServerCaller C) (TcpServerAction C) → Prop}
    {x : Object (TcpServerCaller C) (TcpServer C)}
    (hr : (TCPServer_V2 C).system.ReachableBy ok x) : Reaping x.ext := by
  refine ReachableBy.invariant (P := fun x => Reaping x.ext) (.of_not fun h => by cases h)
    (fun x a y hr hx _ hs => ?_) hr
  cases a with
  | base a =>
    have hy := (Derived.step_base.mp hs).2
    exact hx.of_same (sync_reaping hy) (by rw [(sync_lists hy).2]; simp)
      (fun i hi => (sync_completed hy i).trans hi) (.inr (by rw [sync_clients hy]))
  | own a =>
    exact hx.own (finished_of_reachable hr) (loops_of_reachable hr) (placed_of_reachable hr)
      (Derived.step_own.mp hs).2

/-- Nobody has the descriptor of a session that is reaped: its own handler is past it, a stop hook
only goes over `m_clients`, and the destructor over a list of its own. -/
theorem Reaping.place_ne (hx : Reaping o) (hf : Finished o) (hplaced : Placed o)
    (happart : Apart o) (hreap : o.hook = .reaping) {i : Nat} (hi : i ∈ (o.loop .run).todo)
    (k : ClientPlace (TcpServerCaller C)) : o.clients.place k ≠ some i := by
  intro hk
  have hend := hf i (hx.completed hreap i hi)
  have hwaiting : 0 < (o.loop .run).todo.count i := List.count_pos_iff.mpr hi
  have honce := happart.once i
  unfold waiting at honce
  have hold := hplaced.places k i hk
  cases k with
  | accepted =>
    rw [show (o.session i).handler = .absent from hold] at hend
    simp at hend
  | session d =>
    obtain ⟨rfl, -⟩ := hold
    rw [hx.place_session hf hplaced hreap hi] at hk
    cases hk
  | handler d =>
    obtain ⟨rfl, hclose⟩ := hold
    rw [hclose] at hend
    simp at hend
  | joiner j =>
    cases j with
    | run =>
      rw [hx.emptyHanded hreap] at hk
      cases hk
    | destructor =>
      have htwice := List.count_pos_iff.mpr hold.1
      omega
  | stopper c =>
    have htwice := List.count_pos_iff.mpr hold.1
    omega

/-- Every session that the accept loop has in hand when it reaps is past its last callback, and
its descriptor has been closed once, by its own handler or by a stop hook. All that the loop waits
for is that the handler's thread returns. -/
theorem reaping_waits_for_no_callback {x : Object (TcpServerCaller C) (TcpServer C)}
    (hr : (TCPServer_V2 C).system.Reachable x) (hreap : x.ext.hook = .reaping) :
    ∀ i ∈ (x.ext.loop .run).todo,
      ((x.ext.session i).handler = .returning ∨ (x.ext.session i).handler = .exited) ∧
      x.ext.clients.closed i = 1 ∧ x.ext.clients.place (.session i) = none ∧
      ∀ joined todo, x.ext.loop .run = ⟨joined, i :: todo, .join⟩ →
        ((x.ext.setHandler i .exited).joinLoop (.loopJoin .run)).isSome = true := by
  intro i hi
  have hx := reaping_of_reachable hr
  have hf := finished_of_reachable hr
  have hplaced := placed_of_reachable hr
  have happart := apart_of_reachable hr
  have hend := hf i (hx.completed hreap i hi)
  have hbegun : (x.ext.session i).handler ≠ .absent := by
    rcases hend with hpc | hpc <;> simp [hpc]
  refine ⟨hend, ?_, hx.place_session hf hplaced hreap hi, fun joined todo hloop => ?_⟩
  · exact hplaced.settled.released_of_unheld hbegun (hx.place_ne hf hplaced happart hreap hi)
  · have hsame : (x.ext.setHandler i .exited).loop .run = ⟨joined, i :: todo, .join⟩ := hloop
    have hexited : ((x.ext.setHandler i .exited).session i).handler = .exited := by
      simp [setHandler, setSession]
    simp [joinLoop, hsame, hexited]

/-- The handler of the first client ends, and the accept loop comes by before it has returned. -/
def reapingSchedule : List (ObjectAction (TcpServerCaller Bool) (TcpServerAction Bool)) :=
  [.own (.handlerRecv 0 .ended), .own (.handlerExchange 0), .own (.handlerClose 0),
    .own (.handlerComplete 0), .own .continueRunning, .own .reapCompletedClients,
    .own (.loopExchange .run), .own (.loopClose .run)]

theorem reaping_waits_for_no_callback_returning :
    let S := (TCPServer_V2 Bool).system
    let x := S.after Free S.init (openedSchedule ++ listeningSchedule ++ acceptSchedule ++
      receivingSchedule ++ reapingSchedule)
    x.ext.loop .run = ⟨[], [0], .join⟩ ∧ x.ext.clients.closed 0 = 1 ∧
      x.ext.joinLoop (.loopJoin .run) = none ∧
      ((x.ext.setHandler 0 .exited).joinLoop (.loopJoin .run)).isSome = true := by
  intro S x
  have hr : S.Reachable x := reaches_after (by decide)
  have hloop : x.ext.loop .run = ⟨[], [0], .join⟩ := by decide
  have hwait : (x.ext.joinLoop (.loopJoin .run)).isNone = true := by decide
  have h := reaping_waits_for_no_callback hr (by decide) 0 (by rw [hloop]; simp)
  exact ⟨hloop, h.2.1, Option.isNone_iff_eq_none.mp hwait, h.2.2.2 [] [] hloop⟩

end TcpServer

end ThreadComponent
