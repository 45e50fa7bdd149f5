import ThreadComponent.Interleaving
import ThreadComponent.TcpClientConnections
import ThreadComponent.TcpServerPayloads
import ThreadComponent.TcpServerSystemCalls

/-!
# Clients of TCPClient_V2 that send to a TCPServer_V2

Any number of clients and one server run side by side. The kernel connects a descriptor of a
client with one that the server accepts, and a receive takes the next bytes that were sent on
the other one: at least one, no more than the buffer holds, and whenever it likes. There are
other servers and other clients as well, of which nothing is known.
-/

set_option autoImplicit false
set_option linter.unusedSectionVars false

namespace ThreadComponent

open Transitions System

namespace TcpNetwork

def kReadBufferSize : Nat := 4096

inductive Kernel (K : Type) where
  | quiet
  | stranger
  | accept (connection : K × Nat)
  | recv (bytes : Buffer)
  deriving DecidableEq, Repr

structure Wires (K : Type) where
  /-- Connections, by client and descriptor, that wait to be accepted. -/
  backlog : List (K × Nat) := []
  /-- The other end of a descriptor that the server has accepted. -/
  peer : Nat → Option (K × Nat) := fun _ => none
  /-- What was received on a descriptor. -/
  taken : Nat → Buffer := fun _ => []
  /-- What a session has received for its next call of the data callback. -/
  payload : Nat → Buffer := fun _ => []
  /-- What the data callback has been called with for a session. -/
  delivered : Nat → List Buffer := fun _ => []

namespace Wires
variable {K : Type} [DecidableEq K]

def connect (w : Wires K) (p : K × Nat) : Wires K := { w with backlog := w.backlog ++ [p] }

def accept (w : Wires K) (i : Nat) (p : K × Nat) : Wires K :=
  { w with backlog := w.backlog.erase p, peer := Function.update w.peer i (some p) }

def recv (w : Wires K) (d fd : Nat) (bytes : Buffer) : Wires K :=
  { w with
    taken := Function.update w.taken fd (w.taken fd ++ bytes)
    payload := Function.update w.payload d bytes }

def callback (w : Wires K) (d : Nat) : Wires K :=
  { w with
    delivered := Function.update w.delivered d (w.delivered d ++ [w.payload d])
    payload := Function.update w.payload d [] }

end Wires

section
variable (K C D : Type) [DecidableEq K] [DecidableEq C] [DecidableEq D]

/-- The clients, with what each has accepted for its connections, and the server. -/
abbrev Parties : Type :=
  (K → Object (ClientCaller C) (TcpClient C) × (Nat → List Buffer)) ×
    Object (TcpServerCaller D) (TcpServer D)

abbrev Action : Type :=
  (K × ObjectAction (ClientCaller C) (ClientAction C)) ⊕
    ObjectAction (TcpServerCaller D) (TcpServerAction D)

variable {K C D}

def stream (s : Parties K C D) (p : K × Nat) : Buffer := (s.1 p.1).1.ext.sent p.2

def convey (s : Parties K C D) : Action K C D → Kernel K → Wires K → Option (Wires K)
  | .inl (k, .own (.connect true)), x, w =>
    match x, (s.1 k).1.ext.runSocket with
    | .quiet, some fd => some (w.connect (k, fd))
    | .stranger, _ => some w
    | _, _ => none
  | .inr (.own (.accept .accepted)), x, w =>
    match x with
    | .accept p =>
      if p ∈ w.backlog then some (w.accept s.2.ext.clients.accepted p) else none
    | .stranger => some w
    | _ => none
  | .inr (.own (.handlerRecv d .received)), x, w =>
    match x, (s.2.ext.session d).handler with
    | .recv bytes, .recv fd =>
      if 0 < bytes.length ∧ bytes.length ≤ kReadBufferSize ∧
          ∀ p ∈ w.peer fd, bytes <+: (stream s p).drop (w.taken fd).length then
        some (w.recv d fd bytes)
      else none
    | _, _ => none
  | .inr (.own (.handlerCallback d _)), _, w => some (w.callback d)
  | _, _, w => some w

variable (K C D)

def network : System (Parties K C D × Wires K) (Action K C D × Kernel K) :=
  (((TcpClient.connections C).family K).beside (TCPServer_V2 D).system).linked {} convey

variable {K C D}

/-- No call of `clearOutboundQueue` takes an accepted buffer from a run that goes on, and no
descriptor is closed between its load and the system call on it: the number could stand for
another connection by then. -/
def Undisturbed : Parties K C D × Wires K → Action K C D × Kernel K → Prop :=
  Under (EitherSide (OnMember (Present (Both TcpClient.ClearsHarmlessly TcpClient.ClosesUnused)))
    TcpServer.ClosesUnused)

instance (x : Parties K C D × Wires K) (a : Action K C D × Kernel K) :
    Decidable (Undisturbed x a) := by
  unfold Undisturbed
  infer_instance

/-! ## Steps of the kernel -/

/-- What the kernel does in a step of one of the parties. -/
inductive Conveys (s : Parties K C D) (w : Wires K) : Action K C D → Wires K → Prop where
  | connect {k : K} {fd : Nat} (hrun : (s.1 k).1.ext.runSocket = some fd) :
    Conveys s w (.inl (k, .own (.connect true))) (w.connect (k, fd))
  | accept {p : K × Nat} (hp : p ∈ w.backlog) :
    Conveys s w (.inr (.own (.accept .accepted))) (w.accept s.2.ext.clients.accepted p)
  | recv {d fd : Nat} {bytes : Buffer} (hpc : (s.2.ext.session d).handler = .recv fd)
      (hnext : ∀ p ∈ w.peer fd, bytes <+: (stream s p).drop (w.taken fd).length) :
    Conveys s w (.inr (.own (.handlerRecv d .received))) (w.recv d fd bytes)
  | callback {d : Nat} {threw : Bool} :
    Conveys s w (.inr (.own (.handlerCallback d threw))) (w.callback d)
  | same {a : Action K C D} (ha : ∀ d threw, a ≠ .inr (.own (.handlerCallback d threw))) :
    Conveys s w a w

variable {s t : Parties K C D} {w w' : Wires K} {a : Action K C D}

theorem conveys_of_convey {x : Kernel K} (h : convey s a x w = some w') : Conveys s w a w' := by
  unfold convey at h
  split at h
  · split at h
    · rename_i hrun
      obtain rfl := Option.some.inj h
      exact .connect hrun
    · obtain rfl := Option.some.inj h
      exact .same (by simp)
    · cases h
  · split at h
    · obtain ⟨hp, h⟩ := Option.ite_none_right_eq_some.mp h
      obtain rfl := Option.some.inj h
      exact .accept hp
    · obtain rfl := Option.some.inj h
      exact .same (by simp)
    · cases h
  · split at h
    · rename_i hpc
      obtain ⟨⟨-, -, hnext⟩, h⟩ := Option.ite_none_right_eq_some.mp h
      obtain rfl := Option.some.inj h
      exact .recv hpc hnext
    · cases h
  · obtain rfl := Option.some.inj h
    exact .callback
  · rename_i hnot
    obtain rfl := Option.some.inj h
    exact .same fun d threw he => hnot d threw he

/-! ## What holds in every run -/

def Wires.Knows (w : Wires K) (p : K × Nat) : Prop := p ∈ w.backlog ∨ ∃ i, w.peer i = some p

structure Conveyed (s : Parties K C D) (w : Wires K) : Prop where
  taken : ∀ d, (w.delivered d).flatten ++ w.payload d = w.taken d
  payload : ∀ d, (s.2.ext.session d).handler ≠ .callback → w.payload d = []
  stream : ∀ i p, w.peer i = some p → w.taken i <+: stream s p
  fresh : ∀ i, s.2.ext.clients.accepted ≤ i → w.peer i = none ∧ w.taken i = []
  nodup : w.backlog.Nodup
  waiting : ∀ i p, w.peer i = some p → p ∉ w.backlog
  unique : ∀ i j p, w.peer i = some p → w.peer j = some p → i = j
  known : ∀ p, w.Knows p → p.2 < (s.1 p.1).1.ext.socket.opened ∧
    (TcpClient.Dialing (s.1 p.1).1.ext → (s.1 p.1).1.ext.runSocket ≠ some p.2)

theorem Conveyed.client {k : K} {x : Object (ClientCaller C) (TcpClient C) × (Nat → List Buffer)}
    {b : ObjectAction (ClientCaller C) (ClientAction C)} (hx : Conveyed s w)
    (h : (TCPClient_V2 C).step (s.1 k).1 b = some x.1) :
    Conveyed (Function.update s.1 k x, s.2) w :=
  { hx with
    stream := fun i p hp => by
      refine (hx.stream i p hp).trans ?_
      dsimp only [TcpNetwork.stream]
      by_cases hk : p.1 = k
      · subst hk
        rw [Function.update_self]
        exact TcpClient.sent_of_step h p.2
      · exact (Function.update_of_ne hk _ _).symm ▸ List.prefix_refl _
    known := fun p hp => by
      obtain ⟨hlt, hnot⟩ := hx.known p hp
      dsimp only
      by_cases hk : p.1 = k
      · subst hk
        rw [Function.update_self]
        refine ⟨Nat.lt_of_lt_of_le hlt (TcpClient.opened_of_step h), fun hd hrun => ?_⟩
        rcases TcpClient.dialing_of_step h hd hrun with hnew | ⟨hbefore, hsame, -⟩
        · omega
        · exact hnot hbefore hsame
      · rw [Function.update_of_ne hk]
        exact ⟨hlt, hnot⟩ }

/-- A client is connected, and stops dialing. -/
theorem Conveyed.connect {k : K} {fd : Nat} (hx : Conveyed s w)
    (hnew : ¬ w.Knows (k, fd)) (hlt : fd < (s.1 k).1.ext.socket.opened)
    (hdialed : TcpClient.Dialing (s.1 k).1.ext → (s.1 k).1.ext.runSocket ≠ some fd) :
    Conveyed s (w.connect (k, fd)) :=
  { hx with
    nodup := by
      refine List.nodup_append.mpr ⟨hx.nodup, by simp, ?_⟩
      rintro p hp q hq rfl
      obtain rfl := List.mem_singleton.mp hq
      exact hnew (.inl hp)
    waiting := fun i p hp => by
      simp only [Wires.connect, List.mem_append, List.mem_singleton, not_or]
      refine ⟨hx.waiting i p hp, ?_⟩
      rintro rfl
      exact hnew (.inr ⟨i, hp⟩)
    known := fun p hp => by
      have hcases : w.Knows p ∨ p = (k, fd) := by
        rcases hp with hp | hp
        · rcases List.mem_append.mp hp with hp | hp
          · exact .inl (.inl hp)
          · exact .inr (List.mem_singleton.mp hp)
        · exact .inl (.inr hp)
      rcases hcases with hp | rfl
      · exact hx.known p hp
      · exact ⟨hlt, hdialed⟩ }

/-- The server moves; the kernel and the callback do nothing. -/
theorem Conveyed.server {y : Object (TcpServerCaller D) (TcpServer D)} (hx : Conveyed s w)
    (haccepted : s.2.ext.clients.accepted ≤ y.ext.clients.accepted)
    (hcallback : ∀ d, (s.2.ext.session d).handler = .callback →
      (y.ext.session d).handler = .callback) : Conveyed (s.1, y) w :=
  { hx with
    payload := fun d hd => hx.payload d fun hbefore => hd (hcallback d hbefore)
    fresh := fun i hi => hx.fresh i (Nat.le_trans haccepted hi) }

theorem Conveyed.accept {p : K × Nat} (hx : Conveyed s w) {i : Nat}
    (hi : w.peer i = none ∧ w.taken i = []) (hp : p ∈ w.backlog)
    (hfresh : ∀ j, s.2.ext.clients.accepted ≤ j → j ≠ i) : Conveyed s (w.accept i p) where
  taken := hx.taken
  payload := hx.payload
  stream j q hq := by
    by_cases hj : j = i
    · subst hj
      change w.taken j <+: _
      rw [hi.2]
      exact List.nil_prefix
    · exact hx.stream j q ((Function.update_of_ne hj _ _).symm.trans hq)
  fresh j hj := by
    obtain ⟨hpeer, htaken⟩ := hx.fresh j hj
    exact ⟨(Function.update_of_ne (hfresh j hj) _ _).trans hpeer, htaken⟩
  nodup := hx.nodup.erase p
  waiting j q hq := by
    change q ∉ w.backlog.erase p
    rw [hx.nodup.mem_erase_iff, not_and]
    intro hne
    by_cases hj : j = i
    · subst hj
      simp only [Wires.accept, Function.update_self, Option.some.injEq] at hq
      exact absurd hq.symm hne
    · exact hx.waiting j q ((Function.update_of_ne hj _ _).symm.trans hq)
  unique j l q hj hl := by
    have hother : ∀ m, m ≠ i → w.peer m = some q → q ≠ p := by
      rintro m - hm rfl
      exact hx.waiting m q hm hp
    simp only [Wires.accept] at hj hl
    by_cases hji : j = i
    · by_cases hli : l = i
      · exact hji.trans hli.symm
      · rw [hji, Function.update_self, Option.some.injEq] at hj
        rw [Function.update_of_ne hli] at hl
        exact absurd hj.symm (hother l hli hl)
    · rw [Function.update_of_ne hji] at hj
      by_cases hli : l = i
      · rw [hli, Function.update_self, Option.some.injEq] at hl
        exact absurd hl.symm (hother j hji hj)
      · rw [Function.update_of_ne hli] at hl
        exact hx.unique j l q hj hl
  known q hq := by
    apply hx.known
    rcases hq with hq | ⟨j, hq⟩
    · exact .inl (List.mem_of_mem_erase hq)
    · by_cases hj : j = i
      · simp only [hj, Wires.accept, Function.update_self, Option.some.injEq] at hq
        exact .inl (hq ▸ hp)
      · exact .inr ⟨j, (Function.update_of_ne hj _ _).symm.trans hq⟩

theorem Conveyed.recv {d : Nat} {bytes : Buffer} (hx : Conveyed s w)
    (hidle : w.payload d = []) (hpc : (s.2.ext.session d).handler = .callback)
    (hd : d < s.2.ext.clients.accepted)
    (hnext : ∀ p ∈ w.peer d, bytes <+: (TcpNetwork.stream s p).drop (w.taken d).length) :
    Conveyed s (w.recv d d bytes) :=
  { hx with
    taken := fun i => by
      have hi := hx.taken i
      by_cases hid : i = d
      · subst hid
        rw [hidle, List.append_nil] at hi
        simp [Wires.recv, hi]
      · simpa [Wires.recv, Function.update_of_ne hid] using hi
    payload := fun i hi => by
      have hid : i ≠ d := by
        rintro rfl
        exact hi hpc
      exact (Function.update_of_ne hid _ _).trans (hx.payload i hi)
    stream := fun i p hp => by
      have hprefix := hx.stream i p hp
      by_cases hid : i = d
      · subst hid
        obtain ⟨rest, hrest⟩ := hprefix
        have htail := hnext p hp
        rw [← hrest, List.drop_left] at htail
        simp only [Wires.recv, Function.update_self, ← hrest]
        exact (List.prefix_append_right_inj _).mpr htail
      · simpa [Wires.recv, Function.update_of_ne hid] using hprefix
    fresh := fun i hi => by
      have hid : i ≠ d := by omega
      obtain ⟨hpeer, htaken⟩ := hx.fresh i hi
      exact ⟨hpeer, (Function.update_of_ne hid _ _).trans htaken⟩ }

theorem Conveyed.callback {y : Object (TcpServerCaller D) (TcpServer D)} {d : Nat}
    (hx : Conveyed s w) (haccepted : y.ext.clients.accepted = s.2.ext.clients.accepted)
    (hcallback : ∀ i, i ≠ d → (s.2.ext.session i).handler = .callback →
      (y.ext.session i).handler = .callback) : Conveyed (s.1, y) (w.callback d) :=
  { hx with
    taken := fun i => by
      have hi := hx.taken i
      by_cases hid : i = d
      · subst hid
        simp [Wires.callback, ← hi]
      · simpa [Wires.callback, Function.update_of_ne hid] using hi
    payload := fun i hi => by
      by_cases hid : i = d
      · subst hid
        exact Function.update_self _ _ _
      · refine (Function.update_of_ne hid _ _).trans (hx.payload i fun hbefore => hi ?_)
        exact hcallback i hid hbefore
    fresh := fun i hi => hx.fresh i (haccepted ▸ hi) }

theorem dialing_of_connect {x y : Object (ClientCaller C) (TcpClient C)}
    (h : (TCPClient_V2 C).step x (.own (.connect true)) = some y) : TcpClient.Dialing x.ext := by
  have hy := (Derived.step_own.mp h).2
  obtain ⟨-, hy | hy | hy | hy | hy | hy⟩ := TcpClient.own_cases hy
  · exact .inr (Option.ite_none_right_eq_some.mp hy).1
  all_goals cases hy

theorem Conveyed.clientStep {k : K} {b : ObjectAction (ClientCaller C) (ClientAction C)}
    {x : Object (ClientCaller C) (TcpClient C) × (Nat → List Buffer)} (hx : Conveyed s w)
    (hordered : TcpClient.Ordered (s.1 k).1.base (s.1 k).1.ext)
    (h : (TCPClient_V2 C).step (s.1 k).1 b = some x.1) (hw : Conveys s w (.inl (k, b)) w') :
    Conveyed (Function.update s.1 k x, s.2) w' := by
  cases hw with
  | same => exact hx.client h
  | @connect _ fd hrun =>
    have hlt := hordered.known fd hrun
    refine (hx.client h).connect ?_ ?_ ?_
    · exact fun hknows => (hx.known _ hknows).2 (dialing_of_connect h) hrun
    · dsimp only
      rw [Function.update_self]
      exact Nat.lt_of_lt_of_le hlt (TcpClient.opened_of_step h)
    · dsimp only
      rw [Function.update_self]
      intro hd hrun'
      rcases TcpClient.dialing_of_step h hd hrun' with hnew | ⟨-, -, hnot⟩
      · omega
      · exact hnot true rfl

theorem Conveyed.serverStep {b : ObjectAction (TcpServerCaller D) (TcpServerAction D)}
    {y : Object (TcpServerCaller D) (TcpServer D)} (hx : Conveyed s w)
    (hfresh : TcpServer.Unstarted s.2.ext) (howns : TcpServer.Receiving s.2.ext)
    (h : (TCPServer_V2 D).step s.2 b = some y) (hw : Conveys s w (.inr b) w') :
    Conveyed (s.1, y) w' := by
  cases b with
  | base b =>
    obtain ⟨hhandler, haccepted, -⟩ := TcpServer.sync_handler (Derived.step_base.mp h).2
    cases hw with
    | same => exact hx.server (Nat.le_of_eq haccepted.symm) fun d hd => (hhandler d).trans hd
  | own b =>
    have hy := (Derived.step_own.mp h).2
    cases hw with
    | same ha =>
      refine hx.server (TcpServer.accepted_of_own hy) fun d hd => ?_
      exact TcpServer.callback_of_own hfresh hy hd fun threw he => ha d threw (by rw [he])
    | accept hp =>
      have haccepted := TcpServer.accepted_of_accept hy
      have hserver := hx.server (TcpServer.accepted_of_own hy) fun d hd =>
        TcpServer.callback_of_own hfresh hy hd (by simp)
      refine hserver.accept (hx.fresh _ (Nat.le_refl _)) hp fun j hj => ?_
      dsimp only at hj
      omega
    | @recv d fd bytes hpc hnext =>
      -- the handler receives on the descriptor of its own session
      obtain ⟨hfd, hopen⟩ := howns d fd (by rw [hpc]; rfl)
      subst hfd
      have hserver := hx.server (TcpServer.accepted_of_own hy) fun d hd =>
        TcpServer.callback_of_own hfresh hy hd (by simp)
      have hlt := Nat.lt_of_lt_of_le hopen.1 (TcpServer.accepted_of_own hy)
      exact hserver.recv (hx.payload fd (by rw [hpc]; simp)) (TcpServer.callback_of_recv hy) hlt
        hnext
    | @callback d threw =>
      refine hx.callback (TcpServer.accepted_of_callback hy) fun i hi hcall => ?_
      refine TcpServer.callback_of_own hfresh hy hcall ?_
      rintro threw' he
      exact hi (TcpServerAction.handlerCallback.inj he).1.symm

theorem conveyed_of_reachable {x : Parties K C D × Wires K}
    (hr : (network K C D).ReachableBy Undisturbed x) : Conveyed x.1 x.2 := by
  refine ReachableBy.linked (R := Conveyed) ?_ ?_ hr
  · exact
      { taken := fun _ => rfl
        payload := fun _ _ => rfl
        stream := fun _ _ h => by cases h
        fresh := fun _ _ => ⟨rfl, rfl⟩
        nodup := List.nodup_nil
        waiting := fun _ _ h => by cases h
        unique := fun _ _ _ h => by cases h
        known := fun p h => by rcases h with h | ⟨i, h⟩ <;> cases h }
  · intro s a x t w w' hr hx _ hs hw
    obtain ⟨hclients, hserver⟩ := hr.sides
    have hw := conveys_of_convey hw
    rcases a with ⟨k, b⟩ | b
    · obtain ⟨hfamily, hsame⟩ := step_beside_inl.mp hs
      obtain ⟨y, hy, hupdate⟩ := step_family.mp hfamily
      have hordered := TcpClient.ordered_of_reachable (hclients.member k).present.both.1
      obtain ⟨f, server⟩ := t
      obtain rfl : f = Function.update s.1 k y := hupdate
      obtain rfl : server = s.2 := hsame
      exact hx.clientStep hordered (step_withHistory.mp hy).1 hw
    · obtain ⟨hsame, hstep⟩ := step_beside_inr.mp hs
      obtain ⟨f, server⟩ := t
      obtain rfl : f = s.1 := hsame
      exact hx.serverStep (TcpServer.unstarted_of_reachable hserver)
        (TcpServer.owns_of_reachable hserver).2 hstep hw

/-- What the data callback has been called with for a session is, in order and without gaps,
a prefix of what the client at the other end has accepted for its connection. No connection
has two sessions, and nothing is received that is not on its way to the callback. -/
theorem delivered_is_prefix_of_accepted {x : Parties K C D × Wires K}
    (hr : (network K C D).ReachableBy Undisturbed x) :
    (∀ i k fd, x.2.peer i = some (k, fd) →
      (x.2.delivered i).flatten <+: ((x.1.1 k).2 fd).flatten) ∧
    (∀ i j p, x.2.peer i = some p → x.2.peer j = some p → i = j) ∧
    ∀ i, (x.2.delivered i).flatten ++ x.2.payload i = x.2.taken i := by
  have hx := conveyed_of_reachable hr
  refine ⟨fun i k fd hi => ?_, hx.unique, hx.taken⟩
  have hdelivered : (x.2.delivered i).flatten <+: x.2.taken i :=
    hx.taken i ▸ List.prefix_append _ _
  have hsent : stream x.1 (k, fd) <+: ((x.1.1 k).2 fd).flatten := by
    have hmember := hr.under.sides.1.member k
    have honly : (TcpClient.connections C).ReachableBy (Present TcpClient.ClearsHarmlessly)
        (x.1.1 k) := hmember.mono fun _ _ hok => hok.1
    exact (TcpClient.recorded_of_reachable honly).sent fd
  exact (hdelivered.trans (hx.stream i _ hi)).trans hsent

end

/-- A schedule of the one client, or of the server, in which the kernel decides nothing. -/
def ofClient (as : List (ObjectAction (ClientCaller Nat) (ClientAction Nat))) :
    List (Action Unit Nat Bool × Kernel Unit) :=
  as.map fun a => (.inl ((), a), .quiet)

def ofServer (as : List (ObjectAction (TcpServerCaller Bool) (TcpServerAction Bool))) :
    List (Action Unit Nat Bool × Kernel Unit) :=
  as.map fun a => (.inr a, .quiet)

def acceptedSchedule : List (Action Unit Nat Bool × Kernel Unit) :=
  ofServer (TcpServer.openedSchedule ++ TcpServer.listeningSchedule) ++
    ofClient (TcpClient.launchSchedule ++ TcpClient.connectSchedule) ++
    ofServer [.base (.setRunning 0), .own .continueRunning, .own .reapCompletedClients,
      .own .reaped, .own .load] ++
    [(.inr (.own (.accept .accepted)), .accept ((), 0))] ++
    ofServer (.own (.makeClientInfo none) :: TcpServer.receivingSchedule)

/-- The client sends two bytes in two steps, and the server receives the first of them. -/
def deliveredSchedule : List (Action Unit Nat Bool × Kernel Unit) :=
  acceptedSchedule ++
    ofClient (TcpClient.sendSchedule [65, 66] ++ TcpClient.writeSchedule 1) ++
    [(.inr (.own (.handlerRecv 0 .received)), .recv [65]),
      (.inr (.own (.handlerCallback 0 false)), .quiet)] ++
    ofClient [.own .writerLoad, .own (.writerSend (.sent 1))]

theorem delivered_is_prefix_of_accepted_half :
    let S := network Unit Nat Bool
    let x := S.after Undisturbed S.init deliveredSchedule
    x.2.delivered 0 = [[65]] ∧ (x.2.delivered 0).flatten <+: ((x.1.1 ()).2 0).flatten := by
  intro S x
  exact ⟨by decide, (delivered_is_prefix_of_accepted (x := x) (reaches_after (by decide))).1 0 ()
    0 (by decide)⟩

end TcpNetwork

end ThreadComponent
