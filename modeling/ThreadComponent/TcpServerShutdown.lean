import ThreadComponent.TcpServerWaits

/-!
# TCPServer_V2 comes to its end

Once a stop is requested and nobody is about to launch a run, the accept loop, the handlers,
the stop hooks, the calls and a destructor that has begun take a bounded number of steps,
however they are interleaved. None of them is stuck behind `m_clientsMutex` or a join.
-/

set_option autoImplicit false
set_option linter.unusedSectionVars false

namespace ThreadComponent

open Transitions System

/-! ## What is left to do at each place -/

/-- The most steps that a hook of the worker still takes behind a stop. `requestStop` has a
call before it. -/
def TcpServerHook.rank : TcpServerHook → Nat
  | .idle => 0
  | .preRunDone _ | .runDone _ => 1
  | .close | .closeServer => 2
  | .exchange | .exchangeServer => 3
  | .listen | .joining => 4
  | .bind | .joinAndClearAllClients => 5
  | .storeSocket | .continueRunning | .testStop | .stopping => 6
  | .openSocket | .interrupted | .closeSocketValue => 7
  | .startClientSession => 8
  | .makeClientInfo => 9
  | .accept _ => 10
  | .load => 11
  | .reaping => 12
  | .reapCompletedClients => 13
  | .requestStop => 175

/-- May the accept loop come to one more session from there, behind a stop? -/
def TcpServerHook.mayAccept : TcpServerHook → Bool
  | .reapCompletedClients | .reaping | .load | .accept _ | .makeClientInfo
  | .startClientSession => true
  | _ => false

/-- The most steps that a handler still takes behind a stop. -/
def HandlerPc.rank : HandlerPc → Nat
  | .absent | .exited => 0
  | .returning => 1
  | .complete => 2
  | .close => 3
  | .exchange => 4
  | .continueRunning => 5
  | .entry | .callback => 6
  | .recv _ => 7
  | .load => 8

def TcpServerStop.rank : TcpServerStop → Nat
  | .idle | .done => 0
  | .clients _ | .closeClient _ => 1
  | .lock => 2
  | .close => 3
  | .exchange => 4

/-- The steps of its loop that a stop hook has before it. -/
def TcpServerStop.left : TcpServerStop → Nat
  | .clients todo => 2 * todo.length
  | .closeClient todo => 2 * todo.length + 1
  | _ => 0

def TcpServerDestructor.rank : TcpServerDestructor → Nat
  | .idle | .inBase => 0
  | .base => 169
  | .joining => 170
  | .joinAndClearAllClients => 171
  | .close => 172
  | .exchange => 173
  | .stopThread => 174

def LoopPc.rank : LoopPc → Nat
  | .join => 0
  | .close => 1
  | .exchange => 2

def ClientLoop.rank (l : ClientLoop) : Nat := 3 * l.todo.length + l.pc.rank

namespace TcpServer
variable {C : Type} [DecidableEq C] {s t : BaseWorker (TcpServerCaller C)} {o o' : TcpServer C}
  {busy : Finset (TcpServerCaller C)}

/-- The most sessions that can still be in `m_clients`. -/
def room (o : TcpServer C) : Nat := o.mClients.length + if o.hook.mayAccept then 1 else 0

def handlersRank (o : TcpServer C) : Nat :=
  ∑ i ∈ Finset.range o.clients.accepted, (o.session i).handler.rank

/-- The places that the threads still come to, loops and handlers apart. -/
def stages (busy : Finset (TcpServerCaller C)) (s : BaseWorker (TcpServerCaller C))
    (o : TcpServer C) : Nat :=
  12 * s.rank busy + o.hook.rank + o.destructor.rank + ∑ c ∈ busy, (o.stop c).rank

/-- The steps of the loops and of the handlers that are under way. -/
def left (busy : Finset (TcpServerCaller C)) (o : TcpServer C) : Nat :=
  (o.loop .run).rank + (o.loop .destructor).rank + ∑ c ∈ busy, (o.stop c).left + o.handlersRank

def rank (busy : Finset (TcpServerCaller C)) (s : BaseWorker (TcpServerCaller C))
    (o : TcpServer C) : Nat :=
  stages busy s o * (3 * o.room + 7) + left busy o

/-- A step comes to another place, where a loop or a handler may begin, or it is a step of a
loop or of a handler. -/
inductive Lower (busy : Finset (TcpServerCaller C)) (s : BaseWorker (TcpServerCaller C))
    (o : TcpServer C) (t : BaseWorker (TcpServerCaller C)) (o' : TcpServer C) : Prop where
  | stage (hstages : stages busy t o' < stages busy s o) (hroom : o'.room ≤ o.room)
      (hleft : left busy o' ≤ left busy o + 3 * o.room + 6)
  | loop (hstages : stages busy t o' ≤ stages busy s o) (hroom : o'.room ≤ o.room)
      (hleft : left busy o' < left busy o)

theorem Lower.rank_lt (h : Lower busy s o t o') : rank busy t o' < rank busy s o := by
  cases h with
  | stage hstages hroom hleft => exact weighted_lt hstages (by omega) (by omega)
  | loop hstages hroom hleft =>
    have hle : stages busy t o' * (3 * o'.room + 7) ≤ stages busy s o * (3 * o.room + 7) :=
      Nat.mul_le_mul hstages (by omega)
    exact Nat.add_lt_add_of_le_of_lt hle hleft

/-! ## The accept loop -/

theorem handlersRank_of_same (haccepted : o'.clients.accepted = o.clients.accepted)
    (hhandler : ∀ i, (o'.session i).handler = (o.session i).handler) :
    o'.handlersRank = o.handlersRank := by
  unfold handlersRank
  rw [haccepted]
  exact Finset.sum_congr rfl fun i _ => by rw [hhandler]

/-- The worker's thread or the destructor goes on to its next place. -/
theorem Lower.of_place
    (hrank : o'.hook.rank + o'.destructor.rank < o.hook.rank + o.destructor.rank)
    (hstop : o'.stop = o.stop) (hroom : o'.room ≤ o.room)
    (hloops : (o'.loop .run).rank + (o'.loop .destructor).rank + o'.handlersRank ≤
      (o.loop .run).rank + (o.loop .destructor).rank + o.handlersRank + 3 * o.room + 6) :
    Lower busy s o s o' := by
  refine .stage ?_ hroom ?_
  · unfold stages
    rw [hstop]
    omega
  · unfold left
    rw [hstop]
    omega

theorem Lower.of_hook (hrank : o'.hook.rank < o.hook.rank) (hstop : o'.stop = o.stop)
    (hdtor : o'.destructor = o.destructor) (hroom : o'.room ≤ o.room)
    (hloops : (o'.loop .run).rank + (o'.loop .destructor).rank + o'.handlersRank ≤
      (o.loop .run).rank + (o.loop .destructor).rank + o.handlersRank + 3 * o.room + 6) :
    Lower busy s o s o' :=
  .of_place (by rw [hdtor]; exact Nat.add_lt_add_right hrank _) hstop hroom hloops

theorem room_le (hclients : o'.mClients.length ≤ o.mClients.length)
    (hhook : o'.hook.mayAccept = true → o.hook.mayAccept = true) : o'.room ≤ o.room := by
  unfold room
  split
  · rw [if_pos (hhook ‹_›)]
    omega
  · omega

theorem LoopMove.rank {descriptor : Option Nat} {hook hook' : TcpServerHook}
    {a : TcpServerAction C} (h : LoopMove true descriptor hook a hook') :
    hook'.rank < hook.rank ∧ (hook'.mayAccept = true → hook.mayAccept = true) := by
  cases h with
  | load => cases descriptor <;> exact ⟨by simp [TcpServerHook.rank], fun _ => rfl⟩
  | acceptInterrupted | acceptFailed => exact ⟨by simp [TcpServerHook.rank], fun _ => rfl⟩
  | continueRunning | interrupted | testStop | runStopped =>
    exact ⟨by decide, fun hm => by cases hm⟩

theorem room_of_mayAccept (h : o.hook.mayAccept = true) : o.room = o.mClients.length + 1 := by
  rw [room, if_pos h]

theorem length_le_room : o.mClients.length ≤ o.room := Nat.le_add_right _ _

theorem handlersRank_endLoop (j : Joiner) : (o.endLoop j).handlersRank = o.handlersRank :=
  handlersRank_of_same rfl fun i => handler_destroyAll i

theorem handlersRank_setSession {i : Nat} {x : Session} (hlt : i < o.clients.accepted) :
    (o.setSession i x).handlersRank + (o.session i).handler.rank =
      o.handlersRank + x.handler.rank := by
  have hsum := sum_add_of_frame (f := fun d => (o.session d).handler.rank)
    (g := fun d => ((o.setSession i x).session d).handler.rank) (Finset.mem_range.mpr hlt)
    fun d hd => by simp only [setSession, Function.update_of_ne hd]
  simpa [setSession, handlersRank] using hsum

theorem handlersRank_accept (hu : Unstarted o) (hook : TcpServerHook) :
    handlersRank { o with clients := o.clients.accept, hook := hook } = o.handlersRank := by
  have hnew : (o.session o.clients.accepted).handler.rank = 0 := by
    rw [hu.fresh _ (Nat.le_refl _)]
    rfl
  unfold handlersRank
  rw [show o.clients.accept.accepted = o.clients.accepted + 1 from rfl, Finset.sum_range_succ,
    hnew]
  rfl

theorem startClientSession_lower {i : Nat} {r : SessionStart} (hu : Unstarted o)
    (hhook : o.hook = .startClientSession) (hi : o.clients.place .accepted = some i) :
    Lower busy s o s (o.startClientSession i r) := by
  obtain ⟨hlt, habsent⟩ := hu.starting (by rw [hhook]; rfl) i hi
  have hroom : o.room = o.mClients.length + 1 := room_of_mayAccept (by rw [hhook]; rfl)
  have hset := fun x => handlersRank_setSession (x := x) hlt
  simp only [habsent] at hset
  cases r with
  | notAdded =>
    refine .of_hook (by rw [hhook]; simp [startClientSession, setHook, TcpServerHook.rank]) rfl rfl
      (room_le (Nat.le_refl _) fun hm => by cases hm) ?_
    change (o.loop .run).rank + (o.loop .destructor).rank + o.handlersRank ≤ _
    omega
  | created =>
    refine .of_hook (by rw [hhook]; simp [startClientSession, setSession, TcpServerHook.rank]) rfl
      rfl ?_ ?_
    · rw [hroom]
      simp [room, startClientSession, setSession, TcpServerHook.mayAccept]
    · have hrank := hset { worker := true, handler := .entry }
      change (o.loop .run).rank + (o.loop .destructor).rank +
        (o.setSession i { worker := true, handler := .entry }).handlersRank ≤ _
      simp only [HandlerPc.rank] at hrank
      omega
  | notCreated =>
    refine .of_hook (by rw [hhook]; simp [startClientSession, setSession, TcpServerHook.rank]) rfl
      rfl (room_le (Nat.le_refl _) fun hm => by cases hm) ?_
    have hrank := hset { destroyed := true }
    change (o.loop .run).rank + (o.loop .destructor).rank +
      (o.setSession i { destroyed := true }).handlersRank ≤ _
    simp only [HandlerPc.rank] at hrank
    omega

theorem run_lower {a : TcpServerAction C} (hu : Unstarted o) (hstop : s.stopRequested = true)
    (h : run s o a = some o') : Lower busy s o s o' := by
  cases runStep_of_run h with
  | move hmove =>
    rw [hstop] at hmove
    obtain ⟨hrank, haccept⟩ := hmove.rank
    refine .of_hook hrank rfl rfl (room_le (Nat.le_refl _) haccept) ?_
    change (o.loop .run).rank + (o.loop .destructor).rank + o.handlersRank ≤ _
    omega
  | reapCompletedClients hhook =>
    have hlength := List.length_filter_le (fun i => (o.session i).completed) o.mClients
    have hroom := o.length_le_room
    refine .of_hook (by rw [hhook]; simp [setHook, TcpServerHook.rank]) rfl rfl
      (room_le (List.length_filter_le _ _) fun _ => by rw [hhook]; rfl) ?_
    change 3 * (o.mClients.filter fun i => (o.session i).completed).length + 2 +
      (o.loop .destructor).rank + o.handlersRank ≤ _
    omega
  | joinAndClearAllClients hhook =>
    have hroom := o.length_le_room
    refine .of_hook (by rw [hhook]; simp [setHook, TcpServerHook.rank]) rfl rfl
      (room_le (Nat.zero_le _) fun hm => by cases hm) ?_
    change 3 * o.mClients.length + 2 + (o.loop .destructor).rank + o.handlersRank ≤ _
    omega
  | reaped hhook =>
    refine .of_hook (by rw [hhook]; simp [setHook, TcpServerHook.rank]) rfl rfl
      (room_le (Nat.le_refl _) fun _ => by rw [hhook]; rfl) ?_
    change 2 + (o.loop .destructor).rank + (o.endLoop .run).handlersRank ≤ _
    rw [handlersRank_endLoop]
    omega
  | joined hhook =>
    refine .of_hook (by rw [hhook]; simp [setHook, TcpServerHook.rank]) rfl rfl
      (room_le (Nat.le_refl _) fun hm => by cases hm) ?_
    change 2 + (o.loop .destructor).rank + (o.endLoop .run).handlersRank ≤ _
    rw [handlersRank_endLoop]
    omega
  | accepted hhook =>
    refine .of_hook (by rw [hhook]; simp [TcpServerHook.rank]) rfl rfl
      (room_le (Nat.le_refl _) fun _ => by rw [hhook]; rfl) ?_
    rw [handlersRank_accept hu]
    change (o.loop .run).rank + (o.loop .destructor).rank + o.handlersRank ≤ _
    omega
  | makeClientInfo hhook =>
    refine .of_hook (by rw [hhook]; simp [setHook, TcpServerHook.rank]) rfl rfl
      (room_le (Nat.le_refl _) fun _ => by rw [hhook]; rfl) ?_
    change (o.loop .run).rank + (o.loop .destructor).rank + o.handlersRank ≤ _
    omega
  | startClientSession hhook hi => exact startClientSession_lower hu hhook hi
  | closeSocketValue hhook =>
    refine .of_hook (by rw [hhook]; simp [TcpServerHook.rank]) rfl rfl
      (room_le (Nat.le_refl _) fun hm => by cases hm) ?_
    have hhandlers : handlersRank { o with
        clients := o.clients.close .accepted, hook := .continueRunning } = o.handlersRank :=
      handlersRank_of_same (o := o) ClientSockets.close_accepted fun _ => rfl
    rw [hhandlers]
    change (o.loop .run).rank + (o.loop .destructor).rank + o.handlersRank ≤ _
    omega
  | makeClientInfoThrows hhook | exchangeServer hhook | closeServer hhook =>
    refine .of_hook (by rw [hhook]; simp [TcpServerHook.rank]) rfl rfl
      (room_le (Nat.le_refl _) fun hm => by cases hm) ?_
    change (o.loop .run).rank + (o.loop .destructor).rank + o.handlersRank ≤ _
    omega

theorem preRun_lower {a : TcpServerAction C} (h : o.preRun a = some o') :
    Lower busy s o s o' := by
  have hframe : o'.hook.rank < o.hook.rank ∧ o'.hook.mayAccept = false := by
    cases a <;> simp only [preRun] at h <;>
      grind -linarith [setHook, TcpServerHook.rank, TcpServerHook.mayAccept]
  obtain ⟨hrank, haccept⟩ := hframe
  have hsame := preRun_same h
  refine .of_hook hrank (preRun_clients h).2.1 hsame.destructor
    (room_le (Nat.le_of_eq (congrArg List.length hsame.mClients)) fun hm => ?_) ?_
  · rw [haccept] at hm
    cases hm
  · rw [hsame.loop, handlersRank_of_same (preRun_accepted h).1 fun i => by rw [hsame.session]]
    omega

/-! ## Loops, handlers, stop hooks and the destructor -/

theorem joinLoop_lower {a : TcpServerAction C} (h : o.joinLoop a = some o') :
    Lower busy s o s o' := by
  obtain ⟨-, hhook, hstop, hdtor⟩ := joinLoop_same h
  have hclients := joinLoop_mClients h
  have hhandlers : o'.handlersRank = o.handlersRank :=
    handlersRank_of_same (joinLoop_handler h).2.1 (joinLoop_handler h).1
  have hone : ∃ j l, o'.loop = Function.update o.loop j l ∧ l.rank < (o.loop j).rank := by
    cases loopStep_of_joinLoop h with
    | exchange hj | close hj =>
      exact ⟨_, _, rfl, by rw [hj]; simp [ClientLoop.rank, LoopPc.rank]⟩
    | join hj =>
      refine ⟨_, _, rfl, ?_⟩
      rw [hj]
      simp only [ClientLoop.rank, LoopPc.rank, List.length_cons]
      omega
  obtain ⟨j, l, hloop, hlt⟩ := hone
  refine .loop ?_ ?_ ?_
  · unfold stages
    rw [hhook, hstop, hdtor]
  · unfold room
    rw [hclients, hhook]
  · unfold left
    rw [hstop, hhandlers, hloop]
    cases j <;> simp <;> omega

theorem HandlerMove.rank {socket : Option Nat} {i : Nat} {p p' : HandlerPc}
    {a : TcpServerAction C} (h : HandlerMove true socket i p a p') : p'.rank < p.rank := by
  cases h with
  | @buffer ok => cases ok <;> decide
  | continueRunning => decide
  | load => cases socket <;> simp [HandlerPc.rank]
  | @recv _ r => cases r <;> simp [HandlerPc.rank]
  | @callback threw => cases threw <;> decide

theorem handleClient_lower {a : TcpServerAction C} (hu : Unstarted o)
    (hstop : s.stopRequested = true) (h : handleClient s o a = some o') :
    Lower busy s o s o' := by
  obtain ⟨-, hhook, hstops, hdtor⟩ := handleClient_same h
  have hone : ∃ i x, o'.session = Function.update o.session i x ∧
      x.handler.rank < (o.session i).handler.rank ∧
      o'.clients.accepted = o.clients.accepted ∧ o'.mClients = o.mClients ∧
      o'.loop = o.loop := by
    cases handlerStep_of_handleClient h with
    | move hmove =>
      rw [hstop] at hmove
      exact ⟨_, _, rfl, hmove.rank, rfl, rfl, rfl⟩
    | exchange hpc | complete hpc | returns hpc =>
      exact ⟨_, _, rfl, by rw [hpc]; simp [HandlerPc.rank], rfl, rfl, rfl⟩
    | close hpc =>
      exact ⟨_, _, rfl, by rw [hpc]; simp [HandlerPc.rank], ClientSockets.close_accepted, rfl,
        rfl⟩
  obtain ⟨i, x, hsession, hlt, haccepted, hclients, hloop⟩ := hone
  have hborn : i < o.clients.accepted := by
    by_contra hnot
    rw [hu.fresh i (by omega)] at hlt
    exact absurd hlt (Nat.not_lt_zero _)
  have hhandlers : o'.handlersRank = (o.setSession i x).handlersRank :=
    handlersRank_of_same haccepted fun d => by rw [hsession]; rfl
  have hset := handlersRank_setSession (x := x) hborn
  refine .loop ?_ ?_ ?_
  · unfold stages
    rw [hhook, hstops, hdtor]
  · unfold room
    rw [hclients, hhook]
  · unfold left
    rw [hstops, hloop]
    omega

theorem stopTriggered_lower {a : TcpServerAction C} (hbusy : ∀ c, o.stop c ≠ .idle → c ∈ busy)
    (h : o.stopTriggered a = some o') : Lower busy s o s o' := by
  obtain ⟨⟨hsession, hclients, hloop, hdtor⟩, hhook⟩ := stopTriggered_same h
  have hhandlers : o'.handlersRank = o.handlersRank :=
    handlersRank_of_same (stopTriggered_accepted h).1 fun i => by rw [hsession]
  have hlength := o.length_le_room
  have hroom : o'.room ≤ o.room := by
    unfold room
    rw [hclients, hhook]
  -- the hook comes to its next place, or its loop to the next session
  have hone : ∃ c p, o'.stop = Function.update o.stop c p ∧ o.stop c ≠ .idle ∧
      ((p.rank < (o.stop c).rank ∧ p.left ≤ (o.stop c).left + 2 * o.mClients.length) ∨
        (p.rank = (o.stop c).rank ∧ p.left < (o.stop c).left)) := by
    cases a with
    | stopExchange c | stopClose c | stopLock c | stopUnlock c =>
      simp only [stopTriggered] at h
      grind -linarith [setStop, TcpServerStop.rank, TcpServerStop.left]
    | stopClientExchange c | stopClientClose c =>
      simp only [stopTriggered] at h
      split at h
      · rename_i hat
        obtain rfl := Option.some.inj h
        refine ⟨c, _, rfl, by simp [hat], .inr ⟨by rw [hat]; rfl, ?_⟩⟩
        rw [hat]
        simp only [TcpServerStop.left, List.length_cons]
        omega
      · cases h
    | _ => cases h
  obtain ⟨c, p, hstop, hne, hcases⟩ := hone
  have hmem := hbusy c hne
  have hframe : ∀ d, d ≠ c → o'.stop d = o.stop d := fun d hd => by
    rw [hstop, Function.update_of_ne hd]
  have hself : o'.stop c = p := by rw [hstop, Function.update_self]
  have hrank := sum_add_of_frame (f := fun d => (o.stop d).rank)
    (g := fun d => (o'.stop d).rank) hmem fun d hd => by rw [hframe d hd]
  have hleft := sum_add_of_frame (f := fun d => (o.stop d).left)
    (g := fun d => (o'.stop d).left) hmem fun d hd => by rw [hframe d hd]
  simp only [hself] at hrank hleft
  rcases hcases with ⟨hlower, hmore⟩ | ⟨hsame, hfewer⟩
  · refine .stage ?_ hroom ?_
    · unfold stages
      rw [hhook, hdtor]
      omega
    · unfold left
      rw [hloop, hhandlers]
      omega
  · refine .loop ?_ hroom ?_
    · unfold stages
      rw [hhook, hdtor]
      omega
    · unfold left
      rw [hloop, hhandlers]
      omega

theorem destroy_lower {a : TcpServerAction C} (h : destroy s o a = some o') :
    Lower busy s o s o' := by
  have hlength := o.length_le_room
  have hframe : o'.hook = o.hook ∧ o'.stop = o.stop ∧ o'.destructor.rank < o.destructor.rank ∧
      o'.mClients.length ≤ o.mClients.length ∧ (o'.loop .run) = (o.loop .run) ∧
      (o'.loop .destructor).rank ≤ (o.loop .destructor).rank + 3 * o.mClients.length + 2 := by
    cases a with
    | destructorJoinAndClear =>
      simp only [destroy, Option.ite_none_right_eq_some, Option.some.injEq] at h
      obtain ⟨⟨hdtor, -⟩, rfl⟩ := h
      simp [hdtor, spliceAll, setLoop, TcpServerDestructor.rank, ClientLoop.rank, LoopPc.rank]
    | destructorJoined =>
      simp only [destroy, Option.ite_none_right_eq_some, Option.some.injEq] at h
      obtain ⟨⟨hdtor, -⟩, rfl⟩ := h
      simp [hdtor, endLoop, setLoop, destroyAll, TcpServerDestructor.rank, ClientLoop.rank,
        LoopPc.rank]
    | _ =>
      simp only [destroy] at h
      grind -linarith [TcpServerDestructor.rank]
  obtain ⟨hhook, hstop, hdtor, hclients, hrun, hloop⟩ := hframe
  have hhandlers : o'.handlersRank = o.handlersRank :=
    handlersRank_of_same (destroy_handler h).2.1 (destroy_handler h).1
  refine .of_place (by rw [hhook]; exact Nat.add_lt_add_left hdtor _) hstop
    (room_le hclients fun hm => hhook ▸ hm) ?_
  rw [hrun, hhandlers]
  omega

theorem own_lower {a : TcpServerAction C} (hu : Unstarted o) (hstop : s.stopRequested = true)
    (hbusy : ∀ c, o.stop c ≠ .idle → c ∈ busy) (h : own s o a = some o') :
    Lower busy s o s o' := by
  obtain ⟨-, h | h | h | h | h | h⟩ := own_cases h
  · exact preRun_lower h
  · exact run_lower hu hstop h
  · exact joinLoop_lower h
  · exact handleClient_lower hu hstop h
  · exact stopTriggered_lower hbusy h
  · exact destroy_lower h

/-! ## The worker -/

/-- A call that comes from outside of the object, or begins its destructor. -/
def outside : TcpServerCaller C → Call → Bool
  | .user _, _ | .destructor, .stopThread _ => true
  | _, _ => false

/-- No thread outside of the object makes a call, and no destructor begins. -/
def Inner (_ : Object (TcpServerCaller C) (TcpServer C))
    (a : ObjectAction (TcpServerCaller C) (TcpServerAction C)) : Prop :=
  a.among outside (fun _ => false) = false

instance (s : Object (TcpServerCaller C) (TcpServer C))
    (a : ObjectAction (TcpServerCaller C) (TcpServerAction C)) : Decidable (Inner s a) :=
  inferInstanceAs (Decidable (_ = false))

/-- The calls that are made inside the object: the accept loop calls `requestStop`, and the
destructor that of the base class. -/
theorem inner_call {c : TcpServerCaller C} {k : Call} (hin : Inner ⟨s, o⟩ (.base (.call c k)))
    (h : o.calls c k = some o') :
    (c = .run ∧ k = .requestStop ∧ o.hook = .requestStop ∧ o' = o.setHook .stopping) ∨
      (c = .destructor ∧ k = .destructor ∧ o.destructor = .base ∧
        o' = { o.destroyAll o.mClients with destructor := .inBase }) := by
  cases c with
  | user c => cases hin
  | run =>
    simp only [calls, Option.ite_none_right_eq_some, Option.some.injEq] at h
    exact .inl ⟨rfl, h.1.2, h.1.1, h.2.symm⟩
  | destructor =>
    simp only [calls] at h
    split at h
    · simp only [Option.ite_none_right_eq_some] at h
      obtain ⟨rfl, -⟩ := h
      cases hin
    · rename_i hdtor
      simp only [Option.ite_none_right_eq_some, Option.some.injEq] at h
      exact .inr ⟨rfl, h.1, hdtor, h.2.symm⟩
    · cases h

theorem call_lower {c : TcpServerCaller C} {k : Call} (hc : c ∈ busy)
    (hin : Inner ⟨s, o⟩ (.base (.call c k))) (h : s.step (.call c k) = some t)
    (hy : sync s (.call c k) o = some o') : Lower busy s o t o' := by
  have hbase := BaseWorker.rank_call hc h
  have hhandlers : o'.handlersRank = o.handlersRank :=
    handlersRank_of_same (sync_handler hy).2.1 (sync_handler hy).1
  have hcalls : o.calls c k = some o' := syncHooks_of_sync hy
  rcases inner_call hin hcalls with ⟨-, -, hhook, rfl⟩ | ⟨-, -, hdtor, rfl⟩
  · refine .stage ?_ (room_le (Nat.le_refl _) fun hm => by cases hm) ?_
    · unfold stages
      rw [hhook]
      simp only [setHook, TcpServerHook.rank]
      omega
    · unfold left
      rw [hhandlers]
      simp only [setHook]
      omega
  · refine .stage ?_ (room_le (Nat.le_refl _) id) ?_
    · unfold stages
      rw [hdtor]
      simp only [destroyAll, TcpServerDestructor.rank]
      omega
    · unfold left
      rw [hhandlers]
      simp only [destroyAll]
      omega

/-- A step of the worker leads into one hook at most. -/
theorem sync_ranks {a : BaseAction (TcpServerCaller C)} (ha : a.isCall = false)
    (hy : sync s a o = some o') :
    o'.hook.rank ≤ o.hook.rank + 7 ∧
      (o'.hook.mayAccept = true → o.hook.mayAccept = true) ∧
      o'.destructor = o.destructor ∧ o'.mClients = o.mClients ∧ o'.loop = o.loop ∧
      (o'.stop = o.stop ∨ ∃ c p, BaseWorker.actingCaller a = some c ∧
        o'.stop = Function.update o.stop c p ∧ p.rank ≤ 4 ∧ p.left = 0) := by
  have hhooks := syncHooks_of_sync hy
  cases a with
  | call => cases ha
  | stopSection c =>
    obtain rfl := Option.some.inj hhooks
    split
    · refine ⟨Nat.le_add_right _ _, id, rfl, rfl, rfl, .inr ⟨c, _, rfl, rfl, ?_, ?_⟩⟩ <;>
        split <;> simp [TcpServerStop.rank, TcpServerStop.left]
    · exact ⟨Nat.le_add_right _ _, id, rfl, rfl, rfl, .inl rfl⟩
  | stopTriggeredEnd c =>
    simp only [syncHooks, Option.ite_none_right_eq_some, Option.some.injEq] at hhooks
    obtain ⟨-, rfl⟩ := hhooks
    exact ⟨Nat.le_add_right _ _, id, rfl, rfl, rfl, .inr ⟨c, _, rfl, rfl, Nat.zero_le _, rfl⟩⟩
  | preRunBegin r | setRunning r =>
    obtain rfl := Option.some.inj hhooks
    refine ⟨?_, (fun hm => by cases hm), rfl, rfl, rfl, .inl rfl⟩
    simp only [setHook, TcpServerHook.rank]
    omega
  | preRunEnd r e | runEnd r e =>
    simp only [syncHooks, Option.ite_none_right_eq_some, Option.some.injEq] at hhooks
    obtain ⟨-, rfl⟩ := hhooks
    exact ⟨Nat.zero_le _, (fun hm => by cases hm), rfl, rfl, rfl, .inl rfl⟩
  | startSection c created =>
    obtain rfl := Option.some.inj hhooks
    split <;> exact ⟨Nat.le_add_right _ _, id, rfl, rfl, rfl, .inl rfl⟩
  | _ =>
    obtain rfl := Option.some.inj hhooks
    exact ⟨Nat.le_add_right _ _, id, rfl, rfl, rfl, .inl rfl⟩

theorem base_lower {a : BaseAction (TcpServerCaller C)} (hs : BaseWorker.Settling busy s)
    (ha : a.isCall = false) (h : s.step a = some t) (hy : sync s a o = some o') :
    Lower busy s o t o' := by
  have hbase := hs.rank_lt ha h
  have hhandlers : o'.handlersRank = o.handlersRank :=
    handlersRank_of_same (sync_handler hy).2.1 (sync_handler hy).1
  obtain ⟨hhook, haccept, hdtor, hclients, hloop, hstops⟩ := sync_ranks ha hy
  have hsums : ∑ c ∈ busy, (o'.stop c).rank ≤ ∑ c ∈ busy, (o.stop c).rank + 4 ∧
      ∑ c ∈ busy, (o'.stop c).left ≤ ∑ c ∈ busy, (o.stop c).left := by
    rcases hstops with hsame | ⟨c, p, hact, hstop, hrank, hleft⟩
    · rw [hsame]
      omega
    · have hmem := hs.busy_of_acting ha hact h
      have hframe : ∀ d, d ≠ c → o'.stop d = o.stop d := fun d hd => by
        rw [hstop, Function.update_of_ne hd]
      have hself : o'.stop c = p := by rw [hstop, Function.update_self]
      have hranks := sum_add_of_frame (f := fun d => (o.stop d).rank)
        (g := fun d => (o'.stop d).rank) hmem fun d hd => by rw [hframe d hd]
      have hlefts := sum_add_of_frame (f := fun d => (o.stop d).left)
        (g := fun d => (o'.stop d).left) hmem fun d hd => by rw [hframe d hd]
      simp only [hself] at hranks hlefts
      omega
  refine .stage ?_ (room_le (Nat.le_of_eq (congrArg List.length hclients)) haccept) ?_
  · unfold stages
    rw [hdtor]
    omega
  · unfold left
    rw [hloop, hhandlers]
    omega

/-! ## Runs behind a stop -/

section Run
variable {x y : Object (TcpServerCaller C) (TcpServer C)}
  {a : ObjectAction (TcpServerCaller C) (TcpServerAction C)}

theorem busy_of_stop (hx : (TCPServer_V2 C).ShuttingDown busy x) {c : TcpServerCaller C}
    (hc : x.ext.stop c ≠ .idle) : c ∈ busy := by
  obtain ⟨k, hk⟩ := (stop_iff_of_reachable hx.reachable c).mp hc
  exact hx.busy_of_stopTriggered hk

/-- Who makes a call inside the object is counted, and starts no run. -/
theorem mem_of_call (hown : {.run, .destructor} ⊆ busy) (hin : Inner x a)
    (h : (TCPServer_V2 C).system.step x a = some y) {c : TcpServerCaller C} {k : Call}
    (hact : a = .base (.call c k)) : c ∈ busy ∧ k.isStart = false := by
  subst hact
  have hcalls : x.ext.calls c k = some y.ext := syncHooks_of_sync (Derived.step_base.mp h).2
  rcases inner_call hin hcalls with ⟨rfl, rfl, -⟩ | ⟨rfl, rfl, -⟩
  · exact ⟨hown (by simp), rfl⟩
  · exact ⟨hown (by simp), rfl⟩

theorem rank_lt (hown : {.run, .destructor} ⊆ busy) (hx : (TCPServer_V2 C).ShuttingDown busy x)
    (hin : Inner x a) (h : (TCPServer_V2 C).system.step x a = some y) :
    rank busy y.base y.ext < rank busy x.base x.ext := by
  cases a with
  | own a =>
    obtain ⟨hb, hy⟩ := Derived.step_own.mp h
    rw [hb]
    exact (own_lower (unstarted_of_reachable hx.reachable) hx.stopping.requested
      (fun c hc => busy_of_stop hx hc) hy).rank_lt
  | base a =>
    obtain ⟨hb, hy⟩ := Derived.step_base.mp h
    apply Lower.rank_lt
    cases hcall : a.isCall with
    | false => exact base_lower hx.settling hcall hb hy
    | true =>
      obtain ⟨c, k, rfl⟩ : ∃ c k, a = .call c k := by
        cases a <;> first | exact ⟨_, _, rfl⟩ | cases hcall
      exact call_lower (mem_of_call hown hin h rfl).1 hin hb hy

theorem ranked (hown : {.run, .destructor} ⊆ busy) :
    Ranked (TCPServer_V2 C).system Inner ((TCPServer_V2 C).ShuttingDown busy)
      fun x => rank busy x.base x.ext where
  keeps _ _ _ hx hin h := hx.step (fun _ _ => mem_of_call hown hin h) h
  lowers _ _ _ hx hin h := rank_lt hown hx hin h

end Run

end TcpServer

end ThreadComponent
