import ThreadComponent.TcpServerLists

/-!
# Where the descriptors of the clients are

The descriptor of a session is in its `socket`, or in the hands of the one thread that has
exchanged it, or it has been closed once. A joiner has the descriptor of a session of its local
list in hand, and a stop hook that of a session in `m_clients`, which it keeps locked. Only the
descriptor of a session that could not be started is closed by two threads.
-/

set_option autoImplicit false
set_option linter.unusedSectionVars false

namespace ThreadComponent

open Transitions System Ownership

namespace ClientSockets
variable {T : Type} [DecidableEq T] {x : ClientSockets T} {h k : ClientPlace T} {i : Nat}

/-- Every accepted descriptor that is in some place is open and in no other place; `spent`
says that the accept loop has one in hand that is closed. -/
def InCustody (x : ClientSockets T) (spent : Prop) : Prop :=
  Custody (fun p => p = .accepted → ¬ spent) x.place x.closed x.accepted

def IsOpen (x : ClientSockets T) (i : Nat) : Prop := i < x.accepted ∧ x.closed i = 0

instance (x : ClientSockets T) (i : Nat) : Decidable (x.IsOpen i) := by
  unfold IsOpen
  infer_instance

variable {spent spent' : Prop}

theorem InCustody.mono (hx : x.InCustody spent) (himp : spent → spent') : x.InCustody spent' :=
  Custody.mono hx fun _ hp ha hs => hp ha (himp hs)

theorem InCustody.isOpen (hx : x.InCustody spent) (hk : k = .accepted → ¬ spent)
    (hi : x.place k = some i) : x.IsOpen i :=
  ⟨Custody.known hx hi, Custody.unreleased hx hk hi⟩

theorem InCustody.accept (hx : x.InCustody spent) : x.accept.InCustody spent :=
  Custody.acquire hx .accepted

theorem InCustody.move (hx : x.InCustody spent) (hh : h = .accepted → ¬ spent) :
    (x.move h k).InCustody spent :=
  Custody.move hx h k fun _ => hh

theorem InCustody.drop (hx : x.InCustody spent) : (x.drop k).InCustody spent :=
  Custody.drop hx k

theorem InCustody.close (hx : x.InCustody spent) : (x.close k).InCustody spent := by
  cases hk : x.place k with
  | none => simpa [ClientSockets.close, hk] using hx
  | some i =>
    have hrelease := Custody.release hx hk
    simpa [InCustody, ClientSockets.close, hk] using hrelease

theorem InCustody.of_none (hx : x.InCustody spent) (hnone : x.place .accepted = none) :
    x.InCustody spent' :=
  { hx with
    unreleased := fun {p i} _ hi => by
      refine Custody.unreleased hx ?_ hi
      rintro rfl
      rw [hnone] at hi
      cases hi }

theorem InCustody.closeCopy (hx : x.InCustody spent) (hi : x.place .accepted = some i)
    (hspent : spent') : (x.closeCopy i).InCustody spent' :=
  Custody.mono (Custody.spend hx hi) fun _ hp =>
    ⟨fun ha => absurd hspent (hp ha), fun ha => hp ha hspent⟩

theorem IsOpen.accept (hx : x.IsOpen i) : x.accept.IsOpen i :=
  ⟨Nat.lt_succ_of_lt hx.1, hx.2⟩

theorem accept_place_ne (hk : k ≠ .accepted) : x.accept.place k = x.place k := by
  simp [ClientSockets.accept, hk]

theorem drop_place_ne (hk : k ≠ h) : (x.drop h).place k = x.place k := by
  simp [ClientSockets.drop, hk]

theorem close_closed_ne (hk : x.place k ≠ some i) : (x.close k).closed i = x.closed i := by
  unfold ClientSockets.close
  split
  · rename_i j hj
    have hne : i ≠ j := by
      rintro rfl
      exact hk hj
    exact Function.update_of_ne hne _ _
  · rfl

theorem IsOpen.close (hx : x.IsOpen i) (hk : x.place k ≠ some i) : (x.close k).IsOpen i := by
  rw [IsOpen, close_accepted, close_closed_ne hk]
  exact hx

theorem IsOpen.closeCopy {j : Nat} (hx : x.IsOpen i) (hne : i ≠ j) : (x.closeCopy j).IsOpen i :=
  ⟨hx.1, (Function.update_of_ne hne _ _).trans hx.2⟩

end ClientSockets

namespace TcpServer
variable {C : Type} [DecidableEq C] {s t : BaseWorker (TcpServerCaller C)} {o o' : TcpServer C}

/-! ## The descriptors -/

/-- Does the accept loop have a descriptor in hand that may be closed? -/
def Spent (o : TcpServer C) : Prop := o.hook = .closeSocketValue

/-- Who may have the descriptor of session `i` in hand. -/
def MayHold (o : TcpServer C) (i : Nat) : ClientPlace (TcpServerCaller C) → Prop
  | .accepted => (o.session i).handler = .absent
  | .session d => i = d ∧ (o.session d).handler.holds = true
  | .handler d => i = d ∧ (o.session d).handler = .close
  | .joiner j => i ∈ (o.loop j).todo ∧ (o.loop j).pc = .close
  | .stopper c => i ∈ o.mClients ∧ ∃ todo, o.stop c = .closeClient todo

/-- Every descriptor is where the threads say, and that of a session that has begun is with one
of them or has been closed once. -/
structure Placed (o : TcpServer C) : Prop where
  custody : o.clients.InCustody o.Spent
  settled : Settled (fun i => (o.session i).handler ≠ .absent) o.clients.place o.clients.closed
  places : ∀ k i, o.clients.place k = some i → o.MayHold i k

theorem Placed.of_same (hx : Placed o) (hclients : o'.clients = o.clients)
    (hspent : o.Spent → o'.Spent)
    (hsession : ∀ i, (o.session i).handler = .absent → (o'.session i).handler = .absent)
    (hplaces : ∀ k i, o.clients.place k = some i → o.MayHold i k → o'.MayHold i k) :
    Placed o' where
  custody := hclients ▸ hx.custody.mono hspent
  settled := by
    rw [hclients]
    exact hx.settled.mono fun i hi habsent => hi (hsession i habsent)
  places k i hi := by
    rw [hclients] at hi
    exact hplaces k i hi (hx.places k i hi)

/-- A descriptor goes from one hand to another that is empty. -/
theorem Placed.move (hx : Placed o) {h k : ClientPlace (TcpServerCaller C)} (hh : h ≠ .accepted)
    (hhk : h ≠ k) (hk : o.clients.place k = none) (hclients : o'.clients = o.clients.move h k)
    (hspent : o.Spent → o'.Spent)
    (hsession : ∀ i, (o.session i).handler = .absent → (o'.session i).handler = .absent)
    (hto : ∀ i, o.clients.place h = some i → o'.MayHold i k)
    (hplaces : ∀ p i, p ≠ h → p ≠ k → o.clients.place p = some i → o.MayHold i p →
      o'.MayHold i p) : Placed o' where
  custody := by
    rw [hclients]
    exact (hx.custody.move fun ha => absurd ha hh).mono hspent
  settled := by
    rw [hclients]
    refine (hx.settled.move fun i hi => ?_).mono fun i hi habsent => hi (hsession i habsent)
    rw [hk] at hi
    cases hi
  places p i hi := by
    rw [hclients] at hi
    by_cases hpk : p = k
    · subst hpk
      rw [ClientSockets.move_place_to] at hi
      exact hto i hi
    · by_cases hph : p = h
      · subst hph
        rw [ClientSockets.move_place_from hhk] at hi
        cases hi
      · rw [ClientSockets.move_place_ne hph hpk] at hi
        exact hplaces p i hph hpk hi (hx.places p i hi)

/-- A descriptor is closed by the thread that has it in hand. -/
theorem Placed.close (hx : Placed o) {k : ClientPlace (TcpServerCaller C)}
    (hclients : o'.clients = o.clients.close k)
    (hspent : k = .accepted ∨ (o.Spent → o'.Spent))
    (hsession : ∀ i, (o.session i).handler = .absent → (o'.session i).handler = .absent)
    (hplaces : ∀ p i, p ≠ k → o.clients.place p = some i → o.MayHold i p → o'.MayHold i p) :
    Placed o' where
  custody := by
    rw [hclients]
    rcases hspent with rfl | hspent
    · exact hx.custody.close.of_none ClientSockets.close_place_self
    · exact hx.custody.close.mono hspent
  settled := by
    rw [hclients]
    refine Settled.mono ?_ fun i hi habsent => hi (hsession i habsent)
    cases hk : o.clients.place k with
    | none => simpa [ClientSockets.close, hk] using hx.settled
    | some i =>
      have hrelease := hx.settled.release hk fun hdue => ?_
      · simpa [ClientSockets.close, hk] using hrelease
      · refine Custody.unreleased hx.custody ?_ hk
        rintro rfl
        exact absurd (hx.places _ i hk) hdue
  places p i hi := by
    rw [hclients] at hi
    by_cases hpk : p = k
    · subst hpk
      rw [ClientSockets.close_place_self] at hi
      cases hi
    · rw [ClientSockets.close_place_ne hpk] at hi
      exact hplaces p i hpk hi (hx.places p i hi)

/-- Nobody has a descriptor in hand where he may not have one. -/
theorem Placed.place_none (hx : Placed o) {k : ClientPlace (TcpServerCaller C)}
    (hk : ∀ i, ¬ o.MayHold i k) : o.clients.place k = none := by
  cases hp : o.clients.place k with
  | none => rfl
  | some i => exact absurd (hx.places k i hp) (hk i)

/-! ### Joiners -/

theorem Placed.joinLoop {a : TcpServerAction C} (hx : Placed o) (h : o.joinLoop a = some o') :
    Placed o' := by
  have hhandler := (joinLoop_handler h).1
  cases loopStep_of_joinLoop h with
  | @exchange j joined todo i hj =>
    have hnone : o.clients.place (.joiner j) = none := by
      refine hx.place_none ?_
      rintro d ⟨-, hpc⟩
      rw [hj] at hpc
      cases hpc
    refine hx.move (h := .session i) (k := .joiner j) (by simp) (by simp) hnone rfl id
      (fun _ => id) (fun d hd => ?_) fun p d _ hpk _ hold => ?_
    · obtain ⟨rfl, -⟩ := hx.places _ d hd
      simp [MayHold, setLoop]
    · cases p with
      | joiner j' =>
        have hjj : j' ≠ j := by simpa using hpk
        simpa [MayHold, setLoop, hjj] using hold
      | _ => exact hold
  | @close j joined todo hj =>
    refine hx.close (k := .joiner j) rfl (.inr id) (fun _ => id) fun p d hpk _ hold => ?_
    cases p with
    | joiner j' =>
      have hjj : j' ≠ j := by simpa using hpk
      simpa [MayHold, setLoop, hjj] using hold
    | _ => exact hold
  | @join j joined todo i hj =>
    refine hx.of_same rfl id (fun d hd => (hhandler d).trans hd) fun p d _ hold => ?_
    cases p with
    | joiner j' =>
      by_cases hjj : j' = j
      · subst hjj
        obtain ⟨-, hpc⟩ := hold
        rw [hj] at hpc
        cases hpc
      · simpa [MayHold, setLoop, setSession, hjj] using hold
    | stopper c => exact hold
    | accepted => exact (hhandler d).trans hold
    | session e => exact ⟨hold.1, (congrArg _ (hhandler e)).trans hold.2⟩
    | handler e => exact ⟨hold.1, (hhandler e).trans hold.2⟩

/-! ### Handlers -/

/-- A handler goes on, with nothing in its own hand, and its session keeps what it has. -/
theorem MayHold.handle {i d : Nat} {x : Session} {p : ClientPlace (TcpServerCaller C)}
    (hold : o.MayHold d p) (hp : p ≠ .handler i)
    (hsession : o'.session = Function.update o.session i x)
    (hsame : o'.mClients = o.mClients ∧ o'.loop = o.loop ∧ o'.stop = o.stop)
    (hbefore : (o.session i).handler ≠ .absent)
    (hkeeps : p = .session i → x.handler.holds = true) : o'.MayHold d p := by
  obtain ⟨hclients, hloop, hstop⟩ := hsame
  cases p with
  | accepted =>
    have hdi : d ≠ i := by
      rintro rfl
      exact hbefore hold
    simpa [MayHold, hsession, hdi] using hold
  | session e =>
    refine ⟨hold.1, ?_⟩
    rw [hsession]
    by_cases hei : e = i
    · subst hei
      rw [Function.update_self]
      exact hkeeps rfl
    · rw [Function.update_of_ne hei]
      exact hold.2
  | handler e =>
    have hei : e ≠ i := by simpa using hp
    simpa [MayHold, hsession, hei] using hold
  | joiner j => simpa only [MayHold, hloop] using hold
  | stopper c => simpa only [MayHold, hclients, hstop] using hold

theorem Placed.handleClient {a : TcpServerAction C} (hx : Placed o)
    (h : handleClient s o a = some o') : Placed o' := by
  have habsent : ∀ {i x}, (o.session i).handler ≠ .absent → ∀ d, (o.session d).handler = .absent →
      (Function.update o.session i x d).handler = .absent := by
    intro i x hi d hd
    have hdi : d ≠ i := by
      rintro rfl
      exact hi hd
    rwa [Function.update_of_ne hdi]
  have hempty : ∀ {i d}, (o.session i).handler.holds = false → ¬ o.MayHold d (.session i) := by
    rintro i d hi ⟨-, hholds⟩
    rw [hi] at hholds
    cases hholds
  cases handlerStep_of_handleClient h with
  | @move _ i p hmove =>
    obtain ⟨⟨hrunning, hclose⟩, hholds⟩ := hmove.holds
    have hi : (o.session i).handler ≠ .absent := fun hi => by rw [hi] at hrunning; cases hrunning
    refine hx.of_same rfl id (habsent hi) fun q d hq hold => ?_
    refine hold.handle ?_ rfl ⟨rfl, rfl, rfl⟩ hi fun _ => hholds
    rintro rfl
    exact hclose hold.2
  | @exchange i hpc =>
    have hi : (o.session i).handler ≠ .absent := by simp [hpc]
    have hnone : o.clients.place (.handler i) = none := by
      refine hx.place_none ?_
      rintro d ⟨-, hclose⟩
      rw [hpc] at hclose
      cases hclose
    refine hx.move (h := .session i) (k := .handler i) (by simp) (by simp) hnone rfl id
      (habsent hi) (fun d hd => ?_) fun q d hqs hq _ hold => ?_
    · exact ⟨(hx.places _ d hd).1, by simp [setHandler, setSession]⟩
    · exact hold.handle hq rfl ⟨rfl, rfl, rfl⟩ hi fun he => absurd he hqs
  | @close i hpc =>
    refine hx.close (k := .handler i) rfl (.inr id) (habsent (by simp [hpc]))
      fun q d hq _ hold => ?_
    refine hold.handle hq rfl ⟨rfl, rfl, rfl⟩ (by simp [hpc]) ?_
    rintro rfl
    exact absurd hold (hempty (by rw [hpc]; rfl))
  | @complete i hpc | @returns i hpc =>
    refine hx.of_same rfl id (habsent (by simp [hpc])) fun q d _ hold => ?_
    refine hold.handle ?_ rfl ⟨rfl, rfl, rfl⟩ (by simp [hpc]) ?_
    · rintro rfl
      have hclose := hold.2
      rw [hpc] at hclose
      cases hclose
    · rintro rfl
      exact absurd hold (hempty (by rw [hpc]; rfl))

/-! ### Stop hooks -/

/-- A stop hook goes on, with nothing in its own hand. -/
theorem MayHold.setStop {d : Nat} {c : TcpServerCaller C} {q : TcpServerStop}
    {p : ClientPlace (TcpServerCaller C)} (hold : o.MayHold d p) (hp : p ≠ .stopper c)
    (hsame : o'.session = o.session ∧ o'.mClients = o.mClients ∧ o'.loop = o.loop)
    (hstop : o'.stop = Function.update o.stop c q) : o'.MayHold d p := by
  obtain ⟨hsession, hclients, hloop⟩ := hsame
  cases p with
  | stopper e =>
    have hec : e ≠ c := by simpa using hp
    simpa [MayHold, hclients, hstop, hec] using hold
  | joiner j => simpa only [MayHold, hloop] using hold
  | accepted | session e | handler e => simpa only [MayHold, hsession] using hold

/-- A stop hook that is not about to close the descriptor of a client has none in hand. -/
theorem Placed.stopper_none (hx : Placed o) {c : TcpServerCaller C}
    (hc : ∀ todo, o.stop c ≠ .closeClient todo) : o.clients.place (.stopper c) = none :=
  hx.place_none fun _ ⟨_, todo, hstop⟩ => hc todo hstop

theorem Placed.setStop {c : TcpServerCaller C} {q : TcpServerStop} (hx : Placed o)
    (hc : ∀ todo, o.stop c ≠ .closeClient todo)
    (hsame : o'.session = o.session ∧ o'.mClients = o.mClients ∧ o'.loop = o.loop)
    (hclients : o'.clients = o.clients) (hspent : o.Spent → o'.Spent)
    (hstop : o'.stop = Function.update o.stop c q) : Placed o' := by
  refine hx.of_same hclients hspent (fun i hi => by rwa [hsame.1]) fun p i hp hold => ?_
  refine hold.setStop ?_ hsame hstop
  rintro rfl
  rw [hx.stopper_none hc] at hp
  cases hp

theorem Placed.stopTriggered {a : TcpServerAction C} (hx : Placed o) (hlocked : Locked o)
    (h : o.stopTriggered a = some o') : Placed o' := by
  cases a with
  | stopClientExchange c =>
    simp only [TcpServer.stopTriggered] at h
    split at h
    · rename_i i todo hat
      obtain rfl := Option.some.inj h
      have hmem : i ∈ o.mClients :=
        (hlocked c (by rw [hat]; rfl)).2 (by simp [hat, TcpServerStop.todo])
      refine hx.move (h := .session i) (k := .stopper c) (by simp) (by simp)
        (hx.stopper_none (by simp [hat])) rfl id (fun _ => id) (fun d hd => ?_)
        fun p d _ hp _ hold => hold.setStop hp ⟨rfl, rfl, rfl⟩ rfl
      obtain ⟨rfl, -⟩ := hx.places _ d hd
      exact ⟨hmem, todo, Function.update_self ..⟩
    · cases h
  | stopClientClose c =>
    simp only [TcpServer.stopTriggered] at h
    split at h
    · obtain rfl := Option.some.inj h
      exact hx.close (k := .stopper c) rfl (.inr id) (fun _ => id)
        fun p d hp _ hold => hold.setStop hp ⟨rfl, rfl, rfl⟩ rfl
    · cases h
  | stopExchange c | stopClose c | stopUnlock c =>
    simp only [TcpServer.stopTriggered, Option.ite_none_right_eq_some, Option.some.injEq] at h
    obtain ⟨hat, rfl⟩ := h
    exact hx.setStop (by simp [hat]) ⟨rfl, rfl, rfl⟩ rfl id rfl
  | stopLock c =>
    simp only [TcpServer.stopTriggered, Option.ite_none_right_eq_some, Option.some.injEq] at h
    obtain ⟨⟨hat, -⟩, rfl⟩ := h
    exact hx.setStop (by simp [hat]) ⟨rfl, rfl, rfl⟩ rfl id rfl
  | _ => cases h

/-! ### The accept loop and the destructor -/

/-- A joiner without a session in its list takes one, or its list goes out of scope. Sessions are
only taken while nobody is in `closeAllClientSockets`. -/
theorem Placed.setLoop (hx : Placed o) (hlocked : Locked o) {j : Joiner}
    (htodo : (o.loop j).todo = []) (hloop : ∀ k, k ≠ j → o'.loop k = o.loop k)
    (hhandler : ∀ i, (o'.session i).handler = (o.session i).handler)
    (hclients : o'.clients = o.clients) (hstop : o'.stop = o.stop)
    (hfree : o'.mClients = o.mClients ∨ o.mClientsMutex = none)
    (hspent : o.Spent → o'.Spent) : Placed o' := by
  refine hx.of_same hclients hspent (fun i hi => (hhandler i).trans hi) fun p i _ hold => ?_
  cases p with
  | accepted => exact (hhandler i).trans hold
  | session d => exact ⟨hold.1, (congrArg _ (hhandler d)).trans hold.2⟩
  | handler d => exact ⟨hold.1, (hhandler d).trans hold.2⟩
  | joiner k =>
    have hkj : k ≠ j := by
      rintro rfl
      have hmem := hold.1
      rw [htodo] at hmem
      cases hmem
    simpa only [MayHold, hloop k hkj] using hold
  | stopper c =>
    obtain ⟨hmem, todo, hc⟩ := hold
    rcases hfree with hsame | hfree
    · exact ⟨hsame ▸ hmem, todo, by rw [hstop, hc]⟩
    · have hlocks := hlocked.not_locks hfree c
      rw [hc] at hlocks
      cases hlocks

theorem Placed.accepted (hx : Placed o) (hu : Unstarted o) (hfresh : ¬ o.Spent)
    (hook : TcpServerHook) : Placed { o with clients := o.clients.accept, hook := hook } where
  custody := hx.custody.accept.mono fun hs => absurd hs hfresh
  settled := hx.settled.overwrite (fun i hi hdue => hdue (hx.places .accepted i hi)) _
  places p i hi := by
    by_cases hp : p = .accepted
    · subst hp
      obtain rfl : o.clients.accepted = i := by
        simpa [ClientSockets.accept_place] using hi
      exact hu.fresh _ (Nat.le_refl _)
    · exact hx.places p i ((ClientSockets.accept_place_ne hp).symm.trans hi)

theorem Placed.drop (hx : Placed o) (hfresh : ¬ o.Spent) (hook : TcpServerHook) :
    Placed { o with clients := o.clients.drop .accepted, hook := hook } where
  custody := hx.custody.drop.mono fun hs => absurd hs hfresh
  settled := hx.settled.overwrite (fun i hi hdue => hdue (hx.places .accepted i hi)) _
  places p i hi := by
    by_cases hp : p = .accepted
    · subst hp
      have hnone : (o.clients.drop .accepted).place .accepted = none := by
        simp [ClientSockets.drop]
      exact absurd (hnone.symm.trans hi) (by simp)
    · exact hx.places p i ((ClientSockets.drop_place_ne hp).symm.trans hi)

theorem Placed.created {i : Nat} (hx : Placed o) (hfresh : ¬ o.Spent)
    (hi : o.clients.place .accepted = some i) (habsent : (o.session i).handler = .absent) :
    Placed (o.startClientSession i .created) := by
  have hnone : o.clients.place (.session i) = none := by
    refine hx.place_none ?_
    rintro d ⟨-, hholds⟩
    rw [habsent] at hholds
    cases hholds
  have hothers : ∀ d, d ≠ i → (o.startClientSession i .created).session d = o.session d :=
    fun d hd => Function.update_of_ne hd _ _
  have hself : (o.startClientSession i .created).session i =
      { worker := true, handler := .entry } := Function.update_self ..
  have hto : (o.clients.move .accepted (.session i)).place (.session i) = some i :=
    ClientSockets.move_place_to.trans hi
  refine ⟨(hx.custody.move fun _ => hfresh).mono fun hs => absurd hs hfresh, fun d hd => ?_,
    fun p d hp => ?_⟩
  · by_cases hdi : d = i
    · subst hdi
      exact .inr ⟨.session d, hto⟩
    · simp only [hothers d hdi] at hd
      refine hx.settled.move (fun j hj => ?_) d hd
      rw [hnone] at hj
      cases hj
  · by_cases hps : p = .session i
    · subst hps
      obtain rfl := Option.some.inj (hto.symm.trans hp)
      exact ⟨rfl, by rw [hself]; rfl⟩
    · by_cases hpa : p = .accepted
      · subst hpa
        have hempty : (o.clients.move .accepted (.session i)).place .accepted = none :=
          ClientSockets.move_place_from (by simp)
        exact absurd (hempty.symm.trans hp) (by simp)
      · have hp : o.clients.place p = some d :=
          (ClientSockets.move_place_ne hpa hps).symm.trans hp
        have hold := hx.places p d hp
        cases p with
        | accepted => exact absurd rfl hpa
        | session e =>
          have hei : e ≠ i := by simpa using hps
          simpa only [MayHold, hothers e hei] using hold
        | handler e =>
          have hei : e ≠ i := by
            rintro rfl
            have hclose := hold.2
            rw [habsent] at hclose
            cases hclose
          simpa only [MayHold, hothers e hei] using hold
        | joiner j => exact hold
        | stopper c => exact ⟨List.mem_append_left _ hold.1, hold.2⟩

/-- The session closes its copy of the descriptor and is gone. -/
theorem Placed.notCreated {i : Nat} (hx : Placed o) (hi : o.clients.place .accepted = some i)
    (habsent : (o.session i).handler = .absent) :
    Placed (o.startClientSession i .notCreated) := by
  have hhandler : ∀ d, ((o.startClientSession i .notCreated).session d).handler =
      (o.session d).handler := by
    intro d
    by_cases hdi : d = i
    · subst hdi
      exact (congrArg Session.handler (Function.update_self ..)).trans habsent.symm
    · exact congrArg Session.handler (Function.update_of_ne hdi _ _)
  refine ⟨hx.custody.closeCopy hi rfl, ?_, fun p d hp => ?_⟩
  · exact (hx.settled.spend fun hdue => hdue habsent).mono fun d hd => by rwa [hhandler] at hd
  · have hold := hx.places p d hp
    cases p with
    | accepted => exact (hhandler d).trans hold
    | session e => exact ⟨hold.1, (congrArg _ (hhandler e)).trans hold.2⟩
    | handler e => exact ⟨hold.1, (hhandler e).trans hold.2⟩
    | joiner j => exact hold
    | stopper c => exact hold

theorem Placed.run {a : TcpServerAction C} (hx : Placed o) (hl : Loops o) (hlocked : Locked o)
    (hu : Unstarted o) (h : run s o a = some o') : Placed o' := by
  have hfresh : o.hook ≠ .closeSocketValue → ¬ o.Spent := id
  cases runStep_of_run h with
  | move hmove =>
    refine hx.of_same rfl (fun hs => ?_) (fun _ => id) fun _ _ _ hold => hold
    obtain ⟨⟨hholds, -⟩, -⟩ := hmove.accepting
    rw [show o.hook = .closeSocketValue from hs] at hholds
    cases hholds
  | reapCompletedClients hhook hfree | joinAndClearAllClients hhook hfree =>
    have hidle := hl.1 (by simp [hhook]) (by simp [hhook])
    exact hx.setLoop (j := .run) hlocked (by rw [hidle]) (fun k hk => Function.update_of_ne hk _ _)
      (fun _ => rfl) rfl rfl (.inr hfree) fun hs => absurd hs (hfresh (by simp [hhook]))
  | reaped hhook htodo | joined hhook htodo =>
    exact hx.setLoop hlocked htodo (fun k hk => Function.update_of_ne hk _ _) handler_destroyAll
      rfl rfl (.inl rfl) fun hs => absurd hs (hfresh (by simp [hhook]))
  | accepted hhook => exact hx.accepted hu (hfresh (by simp [hhook])) _
  | makeClientInfoThrows hhook => exact hx.drop (hfresh (by simp [hhook])) _
  | @startClientSession r i hhook hi =>
    have habsent := (hu.starting (by rw [hhook]; rfl) i hi).2
    cases r with
    | notAdded =>
      exact hx.of_same rfl (fun hs => absurd hs (hfresh (by simp [hhook]))) (fun _ => id)
        fun _ _ _ hold => hold
    | created => exact hx.created (hfresh (by simp [hhook])) hi habsent
    | notCreated => exact hx.notCreated hi habsent
  | closeSocketValue =>
    exact hx.close (k := .accepted) rfl (.inl rfl) (fun _ => id) fun _ _ _ _ hold => hold
  | makeClientInfo hhook | exchangeServer hhook | closeServer hhook =>
    exact hx.of_same rfl (fun hs => absurd hs (hfresh (by simp [hhook]))) (fun _ => id)
      fun _ _ _ hold => hold

theorem Placed.own {a : TcpServerAction C} (hx : Placed o) (hl : Loops o) (hlocked : Locked o)
    (hu : Unstarted o) (h : own s o a = some o') : Placed o' := by
  obtain ⟨-, h | h | h | h | h | h⟩ := own_cases h
  · obtain ⟨hsession, hlist, hloop, -⟩ := preRun_same h
    obtain ⟨hclients, hstop, -⟩ := preRun_clients h
    have hne := TcpServerHook.ne_of_run (preRun_home h).1
    refine hx.of_same hclients (fun hs => absurd hs (hne _ rfl)) (fun i hi => by rwa [hsession])
      fun p i _ hold => ?_
    cases p <;> simpa only [MayHold, hsession, hloop, hlist, hstop] using hold
  · exact hx.run hl hlocked hu h
  · exact hx.joinLoop h
  · exact hx.handleClient h
  · exact hx.stopTriggered hlocked h
  · have hhandler := (destroy_handler h).1
    cases a with
    | destructorJoinAndClear =>
      simp only [destroy, Option.ite_none_right_eq_some, Option.some.injEq] at h
      obtain ⟨⟨hdtor, hfree⟩, rfl⟩ := h
      have hidle := hl.2 (by simp [hdtor])
      exact hx.setLoop (j := .destructor) hlocked (by rw [hidle])
        (fun k hk => Function.update_of_ne hk _ _) hhandler rfl rfl (.inr hfree) id
    | destructorJoined =>
      simp only [destroy, Option.ite_none_right_eq_some, Option.some.injEq] at h
      obtain ⟨⟨-, htodo⟩, rfl⟩ := h
      exact hx.setLoop hlocked htodo (fun k hk => Function.update_of_ne hk _ _) hhandler rfl rfl
        (.inl rfl) id
    | _ =>
      have hframe : o'.clients = o.clients ∧ o'.hook = o.hook ∧
          (o'.session = o.session ∧ o'.loop = o.loop ∧ o'.mClients = o.mClients ∧
            o'.stop = o.stop) := by
        simp only [destroy] at h
        grind -linarith
      obtain ⟨hclients, hhook, hsession, hloop, hlist, hstop⟩ := hframe
      refine hx.of_same hclients (fun hs => hhook.trans hs) (fun i hi => by rwa [hsession])
        fun p i _ hold => ?_
      cases p <;> simpa only [MayHold, hsession, hloop, hlist, hstop] using hold

/-! ### In every run -/

theorem sync_clients {a : BaseAction (TcpServerCaller C)} (h : sync s a o = some o') :
    o'.clients = o.clients := by
  have h := syncHooks_of_sync h
  cases a with
  | call c k =>
    simp only [syncHooks] at h
    cases c <;> simp only [calls] at h <;> grind -linarith [setHook, destroyAll]
  | _ =>
    simp only [syncHooks] at h
    grind -linarith [setHook, setStop]

/-- The worker takes the accept loop away from no descriptor that is to be closed. -/
theorem sync_spent {a : BaseAction (TcpServerCaller C)} (hat : HookAt s.current o.hook)
    (hm : BaseWorker.Moves s a t) (h : sync s a o = some o') (hs : o.Spent) : o'.Spent := by
  have h := syncHooks_of_sync h
  have hbegin : s.current.hookHome ≠ none := by
    intro hcur
    rw [Spent, hat.idle hcur] at hs
    cases hs
  cases a with
  | call c k =>
    simp only [syncHooks] at h
    cases c <;> simp only [calls] at h <;> grind -linarith [setHook, Spent, destroyAll]
  | preRunBegin r =>
    cases hm with
    | rest hact => cases hact
    | preRunBegin _ hfrom _ => exact absurd (by rw [hfrom]; rfl) hbegin
  | setRunning r =>
    cases hm with
    | rest hact => cases hact
    | setRunning _ hfrom _ => exact absurd (by rw [hfrom]; rfl) hbegin
  | _ =>
    simp only [syncHooks] at h
    grind -linarith [setHook, setStop, Spent]

theorem Placed.sync {a : BaseAction (TcpServerCaller C)} (hx : Placed o)
    (hat : HookAt s.current o.hook) (hm : BaseWorker.Moves s a t)
    (hidle : ∀ c, a = .stopSection c → o.stop c = .idle) (h : sync s a o = some o') :
    Placed o' := by
  have hhandler := (sync_handler h).1
  obtain ⟨hlist, hloop⟩ := sync_lists h
  refine hx.of_same (sync_clients h) (sync_spent hat hm h) (fun i hi => (hhandler i).trans hi)
    fun p i _ hold => ?_
  cases p with
  | accepted => exact (hhandler i).trans hold
  | session d => exact ⟨hold.1, (congrArg _ (hhandler d)).trans hold.2⟩
  | handler d => exact ⟨hold.1, (hhandler d).trans hold.2⟩
  | joiner j => simpa only [MayHold, hloop] using hold
  | stopper c =>
    -- who is about to close a descriptor neither enters the hook nor leaves it
    obtain ⟨hmem, todo, hc⟩ := hold
    refine ⟨hlist ▸ hmem, todo, (sync_stop_same h ?_ ?_).trans hc⟩
    · rintro rfl
      rw [hidle c rfl] at hc
      cases hc
    · rintro rfl
      have h := syncHooks_of_sync h
      simp only [syncHooks, Option.ite_none_right_eq_some] at h
      rw [h.1] at hc
      cases hc

theorem placed_of_reachable {ok : Object (TcpServerCaller C) (TcpServer C) →
      ObjectAction (TcpServerCaller C) (TcpServerAction C) → Prop}
    {x : Object (TcpServerCaller C) (TcpServer C)}
    (hr : (TCPServer_V2 C).system.ReachableBy ok x) : Placed x.ext := by
  refine ReachableBy.invariant (P := fun x => Placed x.ext) ?_ (fun x a y hr hx _ hs => ?_) hr
  · exact ⟨custody_init, fun _ h => absurd rfl h, fun _ _ h => by cases h⟩
  · cases a with
    | base a =>
      obtain ⟨hb, hy⟩ := Derived.step_base.mp hs
      obtain ⟨hi, hu⟩ := Derived.inherits hr
      refine hx.sync (hookAt_of_reachable hr) (BaseWorker.moves_of_step hi hu hb) ?_ hy
      rintro c rfl
      exact idle_of_stopSection hr hb
    | own a =>
      exact hx.own (loops_of_reachable hr) (locked_of_reachable hr) (unstarted_of_reachable hr)
        (Derived.step_own.mp hs).2

end TcpServer

end ThreadComponent
