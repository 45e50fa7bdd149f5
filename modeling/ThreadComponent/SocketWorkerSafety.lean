import ThreadComponent.SocketWorker

/-!
# The accounts of a worker that owns one socket

In every run in which the member is empty wherever `threadRunner` leaves without the end of
`run`, no descriptor is closed twice, none is lost, and a stopped worker holds none.
-/

set_option autoImplicit false
set_option linter.unusedSectionVars false

namespace ThreadComponent

open Transitions System

namespace SocketView
variable {T : Type} [DecidableEq T]

def vacant : RunnerPc → SocketHook → Bool
  | .preRun, .stored => false
  | .checkStop, _ | .setRunning, _ => false
  | .run, .serving | .run, .stopping | .run, .thrown => false
  | _, _ => true

theorem vacant_of_not_live {p : RunnerPc} (h : ¬ p.live) (hook : SocketHook) :
    vacant p hook = true := by
  cases p <;> first | rfl | exact absurd (by decide) h

/-- A thread has a descriptor in hand only where it is about to store or to close it. -/
structure Hands (v : SocketView T) : Prop where
  worker : v.hook.holds = false → v.socket.hand .worker = none
  stopper : ∀ c, v.stop c ≠ .close → v.socket.hand (.stopper c) = none
  destructor : v.destructing = false → v.socket.hand .destructor = none

/-- The `requestStop` that `run` makes is on its way to the socket, or has emptied it. -/
def RunStops (run : T) (s : BaseWorker T) (v : SocketView T) : Prop :=
  v.socket.descriptor = none ∨ (∃ k, s.caller run = .stopSection k) ∨
    (v.stop run = .exchange ∧ ∃ k, s.caller run = .stopTriggered k)

/-- The stop hooks that are not idle have a thread inside. -/
def Entered (s : BaseWorker T) (v : SocketView T) : Prop :=
  ∀ c, v.stop c ≠ .idle → ∃ k, s.caller c = .stopTriggered k

structure Tidy (run : T) (s : BaseWorker T) (v : SocketView T) : Prop where
  hands : Hands v
  accounts : v.socket.Accounts
  empty : vacant s.current v.hook = true → v.socket.descriptor = none
  runStops : v.hook = .stopping → RunStops run s v
  ended : ¬ s.current.live → v.socket.hand .destructor = none

variable {run : T} {s t : BaseWorker T} {a : BaseAction T} {v w : SocketView T}

theorem current_of_home {p : SocketHook} {q : RunnerPc} (hat : v.hook.home = s.current.hookHome)
    (hp : v.hook = p) (hq : p.home = some q) : s.current = q :=
  RunnerPc.of_hookHome (by rw [← hat, hp, hq])

theorem idle_of_home (hat : v.hook.home = s.current.hookHome) (h : s.current.hookHome = none) :
    v.hook = .idle := by
  rw [h] at hat
  revert hat
  cases v.hook <;> simp [SocketHook.home]

/-! ## Steps of the class -/

theorem Tidy.worker (hx : Tidy run s v) (hstop : w.stop = v.stop)
    (hdtor : w.destructing = v.destructing)
    (hhand : ∀ k, k ≠ .worker → w.socket.hand k = v.socket.hand k)
    (hworker : w.hook.holds = false → w.socket.hand .worker = none)
    (haccounts : w.socket.Accounts)
    (hempty : vacant s.current w.hook = true → w.socket.descriptor = none)
    (hruns : w.hook = .stopping → RunStops run s w) : Tidy run s w where
  hands :=
    { worker := hworker
      stopper := fun c hc => by
        rw [hhand _ (by simp)]
        exact hx.hands.stopper c (hstop ▸ hc)
      destructor := fun hd => by
        rw [hhand _ (by simp)]
        exact hx.hands.destructor (hdtor ▸ hd) }
  accounts := haccounts
  empty := hempty
  runStops := hruns
  ended hlive := by
    rw [hhand _ (by simp)]
    exact hx.ended hlive

/-- A step of a stop hook or of the destructor: it empties the member or leaves it. -/
theorem Tidy.closer {k : Closer T} (hx : Tidy run s v) (hk : k ≠ .worker)
    (hhook : w.hook = v.hook) (hhand : ∀ j, j ≠ k → w.socket.hand j = v.socket.hand j)
    (hstopper : ∀ c, w.stop c ≠ .close → w.socket.hand (.stopper c) = none)
    (hdestructor : w.destructing = false → w.socket.hand .destructor = none)
    (haccounts : w.socket.Accounts)
    (hdesc : v.socket.descriptor = none → w.socket.descriptor = none)
    (hruns : RunStops run s v → RunStops run s w)
    (hended : ¬ s.current.live → w.socket.hand .destructor = none) : Tidy run s w where
  hands :=
    { worker := fun hh => by
        rw [hhand _ hk.symm]
        exact hx.hands.worker (hhook ▸ hh)
      stopper := hstopper
      destructor := hdestructor }
  accounts := haccounts
  empty hv := hdesc (hx.empty (hhook ▸ hv))
  runStops hh := hruns (hx.runStops (hhook ▸ hh))
  ended := hended

theorem Quiet.cases {p q : SocketHook} (h : Quiet run s p q) :
    p = q ∨ (p = .before ∧ q = .failed) ∨ (p = .serving ∧ q = .thrown) ∨
      (p = .stopping ∧ q = .finished ∧ ∃ k b, s.caller run = .returned k b) := by
  cases h with
  | refl => exact .inl rfl
  | notOpened => exact .inr (.inl ⟨rfl, rfl⟩)
  | threw => exact .inr (.inr (.inl ⟨rfl, rfl⟩))
  | stopped h => exact .inr (.inr (.inr ⟨rfl, rfl, _, _, h⟩))

theorem Takes.cases {p q : SocketHook} (h : Takes p q) :
    (p = .stored ∧ q = .takingBack) ∨ (p = .serving ∧ q = .finishing) := by
  cases h with
  | takeBack => exact .inl ⟨rfl, rfl⟩
  | finish => exact .inr ⟨rfl, rfl⟩

theorem Closes.cases {p q : SocketHook} (h : Closes p q) :
    (p = .takingBack ∧ q = .failed) ∨ (p = .finishing ∧ q = .finished) := by
  cases h with
  | giveUp => exact .inl ⟨rfl, rfl⟩
  | finish => exact .inr ⟨rfl, rfl⟩

theorem Tidy.moveHook (hx : Tidy run s v) (hat : v.hook.home = s.current.hookHome)
    (h : Quiet run s v.hook w.hook) (hsocket : w.socket = v.socket) (hstop : w.stop = v.stop)
    (hdtor : w.destructing = v.destructing) : Tidy run s w := by
  have hcaller : RunStops run s v → RunStops run s w := by
    unfold RunStops
    rw [hsocket, hstop]
    exact id
  rcases h.cases with hsame | ⟨hp, hq⟩ | ⟨hp, hq⟩ | ⟨hp, hq, k, b, hret⟩
  · refine hx.worker hstop hdtor (by simp [hsocket]) ?_ (hsocket ▸ hx.accounts) ?_ ?_
    · rw [← hsame, hsocket]
      exact hx.hands.worker
    · rw [← hsame, hsocket]
      exact hx.empty
    · exact fun hh => hcaller (hx.runStops (hsame.trans hh))
  · have hcur := current_of_home hat hp rfl
    refine hx.worker hstop hdtor (by simp [hsocket]) ?_ (hsocket ▸ hx.accounts) ?_ (by simp [hq])
    · exact fun _ => hsocket ▸ hx.hands.worker (by rw [hp]; rfl)
    · exact fun _ => hsocket ▸ hx.empty (by rw [hcur, hp]; rfl)
  · have hcur := current_of_home hat hp rfl
    refine hx.worker hstop hdtor (by simp [hsocket]) ?_ (hsocket ▸ hx.accounts) ?_ (by simp [hq])
    · exact fun _ => hsocket ▸ hx.hands.worker (by rw [hp]; rfl)
    · exact fun hv => by simp [hcur, hq, vacant] at hv
  · refine hx.worker hstop hdtor (by simp [hsocket]) ?_ (hsocket ▸ hx.accounts) ?_ (by simp [hq])
    · exact fun _ => hsocket ▸ hx.hands.worker (by rw [hp]; rfl)
    · -- the stop hook that `run` has called has emptied the member
      intro _
      rw [hsocket]
      rcases hx.runStops hp with he | ⟨k', hk⟩ | ⟨-, k', hk⟩
      · exact he
      · rw [hret] at hk
        cases hk
      · rw [hret] at hk
        cases hk

theorem Tidy.openSocket (hx : Tidy run s v) (hat : v.hook.home = s.current.hookHome)
    (hfrom : v.hook = .before) (hto : w.hook = .storing)
    (hsocket : w.socket = v.socket.openSocket .worker) (hstop : w.stop = v.stop)
    (hdtor : w.destructing = v.destructing) : Tidy run s w := by
  have hcur := current_of_home hat hfrom rfl
  have hhand := hx.hands.worker (by rw [hfrom]; rfl)
  refine hx.worker hstop hdtor (fun k hk => ?_) ?_ ?_ ?_ (by simp [hto])
  · rw [hsocket, TcpSocket.openSocket_hand_ne hk]
  · simp [hto, SocketHook.holds]
  · exact hsocket ▸ hx.accounts.openSocket hhand
  · intro _
    rw [hsocket, TcpSocket.openSocket_descriptor]
    exact hx.empty (by rw [hcur, hfrom]; rfl)

theorem Tidy.storeSocket (hx : Tidy run s v) (hat : v.hook.home = s.current.hookHome)
    (hfrom : v.hook = .storing) (hto : w.hook = .stored)
    (hsocket : w.socket = v.socket.store .worker) (hstop : w.stop = v.stop)
    (hdtor : w.destructing = v.destructing) : Tidy run s w := by
  have hcur := current_of_home hat hfrom rfl
  have hempty := hx.empty (by rw [hcur, hfrom]; rfl)
  refine hx.worker hstop hdtor (fun k hk => ?_) (fun _ => ?_) ?_ ?_ (by simp [hto])
  · rw [hsocket, TcpSocket.store_hand_ne hk]
  · rw [hsocket, TcpSocket.store_hand_self]
  · exact hsocket ▸ hx.accounts.store hempty
  · exact fun hv => by simp [hcur, hto, vacant] at hv

theorem Tidy.exchange (hx : Tidy run s v) (h : Takes v.hook w.hook)
    (hsocket : w.socket = v.socket.exchange .worker) (hstop : w.stop = v.stop)
    (hdtor : w.destructing = v.destructing) : Tidy run s w := by
  have hholds : v.hook.holds = false ∧ w.hook.holds = true ∧ w.hook ≠ .stopping := by
    rcases h.cases with ⟨hp, hq⟩ | ⟨hp, hq⟩ <;> simp [hp, hq, SocketHook.holds]
  obtain ⟨hold, hnew, hns⟩ := hholds
  refine hx.worker hstop hdtor (fun k hk => ?_) ?_ ?_ (fun _ => ?_) (fun hh => absurd hh hns)
  · rw [hsocket, TcpSocket.exchange_hand_ne hk]
  · simp [hnew]
  · exact hsocket ▸ hx.accounts.exchange (hx.hands.worker hold)
  · rw [hsocket, TcpSocket.exchange_descriptor]

theorem Tidy.close (hx : Tidy run s v) (hat : v.hook.home = s.current.hookHome)
    (h : Closes v.hook w.hook) (hsocket : w.socket = v.socket.close .worker)
    (hstop : w.stop = v.stop) (hdtor : w.destructing = v.destructing) : Tidy run s w := by
  have hvacant : vacant s.current v.hook = true ∧ w.hook ≠ .stopping := by
    rcases h.cases with ⟨hp, hq⟩ | ⟨hp, hq⟩ <;>
      simp [current_of_home hat hp rfl, hp, hq, vacant]
  refine hx.worker hstop hdtor (fun k hk => ?_) (fun _ => ?_) ?_ (fun _ => ?_)
    (fun hh => absurd hh hvacant.2)
  · rw [hsocket, TcpSocket.close_hand_ne hk]
  · rw [hsocket, TcpSocket.close_hand_self]
  · exact hsocket ▸ hx.accounts.close
  · rw [hsocket, TcpSocket.close_descriptor]
    exact hx.empty hvacant.1

theorem Tidy.stopExchange {c : T} (hx : Tidy run s v) (hfrom : v.stop c = .exchange)
    (hstop : w.stop = Function.update v.stop c .close)
    (hsocket : w.socket = v.socket.exchange (.stopper c)) (hhook : w.hook = v.hook)
    (hdtor : w.destructing = v.destructing) : Tidy run s w := by
  have hhand := hx.hands.stopper c (by simp [hfrom])
  have hne : ∀ j, j ≠ .stopper c → w.socket.hand j = v.socket.hand j := fun j hj => by
    rw [hsocket, TcpSocket.exchange_hand_ne hj]
  have hempty : w.socket.descriptor = none := by rw [hsocket, TcpSocket.exchange_descriptor]
  refine hx.closer (k := .stopper c) (by simp) hhook hne (fun d hd => ?_) (fun hd => ?_) ?_
    (fun _ => hempty) (fun _ => .inl hempty) (fun hlive => ?_)
  · have hdc : d ≠ c := by
      rintro rfl
      simp [hstop] at hd
    rw [hne _ (by simpa using hdc)]
    exact hx.hands.stopper d (by simpa [hstop, hdc] using hd)
  · rw [hne _ (by simp)]
    exact hx.hands.destructor (hdtor ▸ hd)
  · exact hsocket ▸ hx.accounts.exchange hhand
  · rw [hne _ (by simp)]
    exact hx.ended hlive

theorem Tidy.stopClose {c : T} (hx : Tidy run s v) (hfrom : v.stop c = .close)
    (hstop : w.stop = Function.update v.stop c .closed)
    (hsocket : w.socket = v.socket.close (.stopper c)) (hhook : w.hook = v.hook)
    (hdtor : w.destructing = v.destructing) : Tidy run s w := by
  have hne : ∀ j, j ≠ .stopper c → w.socket.hand j = v.socket.hand j := fun j hj => by
    rw [hsocket, TcpSocket.close_hand_ne hj]
  have hdesc : w.socket.descriptor = v.socket.descriptor := by
    rw [hsocket, TcpSocket.close_descriptor]
  refine hx.closer (k := .stopper c) (by simp) hhook hne (fun d hd => ?_) (fun hd => ?_) ?_
    (fun he => hdesc.trans he) ?_ (fun hlive => ?_)
  · by_cases hdc : d = c
    · subst hdc
      rw [hsocket, TcpSocket.close_hand_self]
    · rw [hne _ (by simpa using hdc)]
      exact hx.hands.stopper d (by simpa [hstop, hdc] using hd)
  · rw [hne _ (by simp)]
    exact hx.hands.destructor (hdtor ▸ hd)
  · exact hsocket ▸ hx.accounts.close
  · rintro (he | hk | ⟨he, hk⟩)
    · exact .inl (hdesc.trans he)
    · exact .inr (.inl hk)
    · have hrc : run ≠ c := by
        rintro rfl
        rw [hfrom] at he
        cases he
      exact .inr (.inr ⟨by rw [hstop, Function.update_of_ne hrc]; exact he, hk⟩)
  · rw [hne _ (by simp)]
    exact hx.ended hlive

theorem Tidy.destructorExchange (hx : Tidy run s v) (hfrom : v.destructing = false)
    (hto : w.destructing = true) (hsocket : w.socket = v.socket.exchange .destructor)
    (hhook : w.hook = v.hook) (hstop : w.stop = v.stop) : Tidy run s w := by
  have hne : ∀ j, j ≠ .destructor → w.socket.hand j = v.socket.hand j := fun j hj => by
    rw [hsocket, TcpSocket.exchange_hand_ne hj]
  have hempty : w.socket.descriptor = none := by rw [hsocket, TcpSocket.exchange_descriptor]
  refine hx.closer (k := .destructor) (by simp) hhook hne (fun d hd => ?_) (by simp [hto]) ?_
    (fun _ => hempty) (fun _ => .inl hempty) (fun hlive => ?_)
  · rw [hne _ (by simp)]
    exact hx.hands.stopper d (hstop ▸ hd)
  · exact hsocket ▸ hx.accounts.exchange (hx.hands.destructor hfrom)
  · -- where no run is live there is nothing to take
    rw [hsocket]
    simpa [TcpSocket.exchange] using hx.empty (vacant_of_not_live hlive _)

theorem Tidy.destructorClose (hx : Tidy run s v) (hsocket : w.socket = v.socket.close .destructor)
    (hhook : w.hook = v.hook) (hstop : w.stop = v.stop) : Tidy run s w := by
  have hne : ∀ j, j ≠ .destructor → w.socket.hand j = v.socket.hand j := fun j hj => by
    rw [hsocket, TcpSocket.close_hand_ne hj]
  have hhand : w.socket.hand .destructor = none := by rw [hsocket, TcpSocket.close_hand_self]
  have hdesc : w.socket.descriptor = v.socket.descriptor := by
    rw [hsocket, TcpSocket.close_descriptor]
  refine hx.closer (k := .destructor) (by simp) hhook hne (fun d hd => ?_) (fun _ => hhand) ?_
    (fun he => hdesc.trans he) ?_ (fun _ => hhand)
  · rw [hne _ (by simp)]
    exact hx.hands.stopper d (hstop ▸ hd)
  · exact hsocket ▸ hx.accounts.close
  · unfold RunStops
    rw [hdesc, hstop]
    exact id

theorem Tidy.step (hx : Tidy run s v) (hat : v.hook.home = s.current.hookHome)
    (h : v.Step run s w) : Tidy run s w := by
  cases h with
  | hook h hsocket hstop hdtor => exact hx.moveHook hat h hsocket hstop hdtor
  | openSocket hfrom hto hsocket hstop hdtor =>
    exact hx.openSocket hat hfrom hto hsocket hstop hdtor
  | storeSocket hfrom hto hsocket hstop hdtor =>
    exact hx.storeSocket hat hfrom hto hsocket hstop hdtor
  | exchange h hsocket hstop hdtor => exact hx.exchange h hsocket hstop hdtor
  | close h hsocket hstop hdtor => exact hx.close hat h hsocket hstop hdtor
  | stopExchange c hfrom hstop hsocket hhook hdtor =>
    exact hx.stopExchange hfrom hstop hsocket hhook hdtor
  | stopClose c hfrom hstop hsocket hhook hdtor =>
    exact hx.stopClose hfrom hstop hsocket hhook hdtor
  | destructorExchange hfrom hto hsocket hhook hstop =>
    exact hx.destructorExchange hfrom hto hsocket hhook hstop
  | destructorClose _ _ hsocket hhook hstop => exact hx.destructorClose hsocket hhook hstop

/-! ## Steps of the worker -/

theorem StopSync.cases {c : T} {p q : SocketStop} (h : StopSync run s a c p q) :
    (q = p ∧ a ≠ .stopTriggeredEnd c ∧
      (a = .stopSection c → s.mState.shouldTriggerStop = false)) ∨
    (a = .stopSection c ∧ s.mState.shouldTriggerStop = true ∧
      (q = .exchange ∨ (q = .closed ∧ c ≠ run))) ∨
    (a = .stopTriggeredEnd c ∧ p = .closed ∧ q = .idle) := by
  cases h with
  | same _ hend hbegin => exact .inl ⟨rfl, hend, hbegin⟩
  | begin ha htrigger hq => exact .inr (.inl ⟨ha, htrigger, hq⟩)
  | finish ha => exact .inr (.inr ⟨ha, rfl, rfl⟩)

theorem Entered.step (hx : Entered s v) (h : v.Step run s w) : Entered s w := by
  have hupdate : ∀ {c : T} {p : SocketStop}, v.stop c ≠ .idle →
      w.stop = Function.update v.stop c p → Entered s w := fun {c p} hc hstop d hd => by
    by_cases hdc : d = c
    · subst hdc
      exact hx d hc
    · exact hx d (by simpa [hstop, hdc] using hd)
  cases h with
  | stopExchange c hfrom hstop => exact hupdate (c := c) (by simp [hfrom]) hstop
  | stopClose c hfrom hstop => exact hupdate (c := c) (by simp [hfrom]) hstop
  | hook _ _ hstop => unfold Entered; rw [hstop]; exact hx
  | openSocket _ _ _ hstop => unfold Entered; rw [hstop]; exact hx
  | storeSocket _ _ _ hstop => unfold Entered; rw [hstop]; exact hx
  | exchange _ _ hstop => unfold Entered; rw [hstop]; exact hx
  | close _ _ hstop => unfold Entered; rw [hstop]; exact hx
  | destructorExchange _ _ _ _ hstop => unfold Entered; rw [hstop]; exact hx
  | destructorClose _ _ _ _ hstop => unfold Entered; rw [hstop]; exact hx

theorem Entered.sync (hx : Entered s v) (hs : s.step a = some t) (hy : v.Sync run s a w) :
    Entered t w := by
  intro c hc
  rcases (hy.stop c).cases with ⟨hsame, ha, -⟩ | ⟨rfl, htrigger, -⟩ | ⟨-, -, hidle⟩
  · obtain ⟨k, hk⟩ := hx c (hsame ▸ hc)
    exact ⟨k, BaseWorker.caller_stopTriggered hs hk ha⟩
  · exact BaseWorker.caller_of_stopSection hs htrigger
  · exact absurd hidle hc

/-- Whoever is inside a stop hook does not begin another `requestStop`. -/
theorem Entered.idle_of_stopSection {c : T} (hx : Entered s v)
    (hs : s.step (.stopSection c) = some t) : v.stop c = .idle := by
  by_contra hne
  obtain ⟨k, hk⟩ := hx c hne
  simp [BaseWorker.step, hk] at hs

/-- A step of the worker's callers while `run` is in its own `requestStop`. -/
theorem Sync.runStops (hy : v.Sync run s a w) (hs : s.step a = some t)
    (htrigger : s.mState.shouldTriggerStop = true) (hx : RunStops run s v) :
    RunStops run t w := by
  rcases hx with he | ⟨k, hk⟩ | ⟨he, k, hk⟩
  · exact .inl (hy.socket ▸ he)
  · by_cases ha : a = .stopSection run
    · subst ha
      refine .inr (.inr ⟨?_, BaseWorker.caller_of_stopSection hs htrigger⟩)
      rcases (hy.stop run).cases with ⟨-, -, hquiet⟩ | ⟨-, -, hex | ⟨-, hne⟩⟩ | ⟨ha, -⟩
      · rw [hquiet rfl] at htrigger
        cases htrigger
      · exact hex
      · exact absurd rfl hne
      · cases ha
    · exact .inr (.inl ⟨k, BaseWorker.caller_stopSection hs hk ha⟩)
  · rcases (hy.stop run).cases with ⟨hsame, ha, -⟩ | ⟨rfl, -, hex⟩ | ⟨rfl, hdone, -⟩
    · exact .inr (.inr ⟨hsame.trans he, k, BaseWorker.caller_stopTriggered hs hk ha⟩)
    · simp [BaseWorker.step, hk] at hs
    · rw [he] at hdone
      cases hdone

theorem Sync.hands (hy : v.Sync run s a w) (hs : s.step a = some t) (hentered : Entered s v)
    (hx : Hands v)
    (hworker : w.hook.holds = false → v.hook.holds = false) : Hands w where
  worker hh := by
    rw [hy.socket]
    exact hx.worker (hworker hh)
  stopper c hc := by
    rw [hy.socket]
    refine hx.stopper c fun hclose => ?_
    rcases (hy.stop c).cases with ⟨hsame, -, -⟩ | ⟨rfl, -, -⟩ | ⟨-, hdone, -⟩
    · exact hc (hsame.trans hclose)
    · rw [hentered.idle_of_stopSection hs] at hclose
      cases hclose
    · rw [hclose] at hdone
      cases hdone
  destructor hd := by
    rw [hy.socket]
    exact hx.destructor (hy.destructing ▸ hd)

/-- No run leaves `threadRunner` early, and no `run` ends by an exception, while the member
still has a descriptor; and the worker does not become Stopped while a destructor that has
not waited for it is about to close one. -/
def LeavesEmpty {O A : Type} (socket : O → TcpSocket T) (s : Object T O) :
    ObjectAction T A → Prop
  | .base (.checkStop _) => s.base.stopRequested = true → (socket s.ext).descriptor = none
  | .base (.runEnd _ (.threw _)) => (socket s.ext).descriptor = none
  | .base (.setStopped _) => (socket s.ext).hand .destructor = none
  | _ => True

instance {O A : Type} (socket : O → TcpSocket T) (s : Object T O) (a : ObjectAction T A) :
    Decidable (LeavesEmpty socket s a) := by
  induction a using ObjectAction.casesOn with
  | base a =>
    induction a using BaseAction.casesOn with
    | runEnd r e => induction e using HookEnd.casesOn <;> (unfold LeavesEmpty; infer_instance)
    | _ => unfold LeavesEmpty; infer_instance
  | own a => unfold LeavesEmpty; infer_instance

theorem hookSync_of_rest {p q : SocketHook} (h : HookSync run p q a)
    (hact : BaseWorker.actingRun a = none) :
    q = p ∨ (a = .call run .requestStop ∧ p = .serving ∧ q = .stopping) := by
  cases a with
  | call c k =>
    rcases h with hsame | ⟨rfl, rfl, hp, hq⟩
    · exact .inl hsame
    · exact .inr ⟨rfl, hp, hq⟩
  | preRunBegin r => cases hact
  | preRunEnd r e => cases hact
  | setRunning r => cases hact
  | runEnd r e => cases hact
  | _ => exact .inl h

/-! ## The steps of the worker -/

theorem Tidy.of_sync (hx : Tidy run s v) (hentered : Entered s v) (hs : s.step a = some t)
    (hy : v.Sync run s a w) (hempty : vacant t.current w.hook = true → v.socket.descriptor = none)
    (hworker : w.hook.holds = false → v.hook.holds = false)
    (hruns : w.hook = .stopping → RunStops run t w)
    (hended : ¬ t.current.live → v.socket.hand .destructor = none) : Tidy run t w where
  hands := hy.hands hs hentered hx.hands hworker
  accounts := hy.socket ▸ hx.accounts
  empty hv := hy.socket ▸ hempty hv
  runStops := hruns
  ended hlive := hy.socket ▸ hended hlive

/-- Between the hooks only the place of the worker's thread changes. -/
theorem Tidy.sync_between (hx : Tidy run s v) (hentered : Entered s v) (hs : s.step a = some t)
    (hy : v.Sync run s a w) (hidle : v.hook = .idle) (hsame : w.hook = v.hook)
    (hempty : vacant t.current .idle = true → v.socket.descriptor = none)
    (hended : ¬ t.current.live → v.socket.hand .destructor = none) : Tidy run t w := by
  have hnew : w.hook = .idle := hsame.trans hidle
  exact hx.of_sync hentered hs hy (by rwa [hnew]) (by rw [hsame]; exact id) (by simp [hnew]) hended

theorem Tidy.sync_rest (hx : Tidy run s v) (hentered : Entered s v) (hs : s.step a = some t)
    (hy : v.Sync run s a w) (hat : v.hook.home = s.current.hookHome)
    (hk : s.current.live → s.mState.shouldTriggerStop = true)
    (hact : BaseWorker.actingRun a = none) (hcur : t.current = s.current) : Tidy run t w := by
  rcases hookSync_of_rest hy.hook hact with hsame | ⟨rfl, hold, hnew⟩
  · refine hx.of_sync hentered hs hy ?_ ?_ (fun hh => ?_) ?_
    · rw [hcur, hsame]
      exact hx.empty
    · rw [hsame]
      exact id
    · rw [hsame] at hh
      have hp := current_of_home hat hh rfl
      exact hy.runStops hs (hk (by rw [hp]; decide)) (hx.runStops hh)
    · rw [hcur]
      exact hx.ended
  · -- `run` begins to stop itself
    have hp := current_of_home hat hold rfl
    have hrun : t.current = .run := hcur.trans hp
    refine hx.of_sync hentered hs hy ?_ (by simp [hold, SocketHook.holds]) (fun _ => ?_) ?_
    · rw [hrun, hnew]
      exact fun hv => by cases hv
    · obtain ⟨-, ht⟩ := BaseWorker.step_call.mp hs
      exact .inr (.inl ⟨.requestStop, by simp [ht, Call.entry]⟩)
    · rw [hrun]
      exact fun hlive => absurd (by decide) hlive

theorem Tidy.sync_preRunEnd {r : Nat} {e : HookEnd} (hx : Tidy run s v) (hentered : Entered s v)
    (hs : s.step (.preRunEnd r e) = some t) (hy : v.Sync run s (.preRunEnd r e) w)
    (hat : v.hook.home = s.current.hookHome) (hfrom : s.current = .preRun)
    (hto : t.current = BaseWorker.HookEnd.afterPreRun e) : Tidy run t w := by
  have hhook := hy.hook
  rcases e with ⟨_ | _⟩ | n
  · obtain ⟨hold, hnew⟩ : v.hook = .failed ∧ w.hook = .idle := hhook
    refine hx.of_sync hentered hs hy (fun _ => ?_) (by simp [hold, SocketHook.holds])
      (by simp [hnew]) (fun hlive => ?_)
    · exact hx.empty (by rw [hfrom, hold]; rfl)
    · exact absurd (by rw [hto]; decide) hlive
  · obtain ⟨hold, hnew⟩ : v.hook = .stored ∧ w.hook = .idle := hhook
    refine hx.of_sync hentered hs hy (fun hv => ?_) (by simp [hold, SocketHook.holds])
      (by simp [hnew]) (fun hlive => ?_)
    · rw [hto, hnew] at hv
      cases hv
    · exact absurd (by rw [hto]; decide) hlive
  · -- an exception belongs to `run`
    have hp := current_of_home hat hhook.1 rfl
    rw [hfrom] at hp
    cases hp

theorem Tidy.sync_runEnd {r : Nat} {e : HookEnd} (hx : Tidy run s v) (hentered : Entered s v)
    (hs : s.step (.runEnd r e) = some t) (hy : v.Sync run s (.runEnd r e) w)
    (hthrew : ∀ n, e = .threw n → v.socket.descriptor = none) (hfrom : s.current = .run)
    (hto : t.current = BaseWorker.HookEnd.afterRun e) : Tidy run t w := by
  have hhook := hy.hook
  have hlive : t.current.live := by
    rw [hto]
    cases e <;> simp [BaseWorker.HookEnd.afterRun, RunnerPc.live]
  rcases e with b | n
  · obtain ⟨hold, hnew⟩ : v.hook = .finished ∧ w.hook = .idle := hhook
    exact hx.of_sync hentered hs hy (fun _ => hx.empty (by rw [hfrom, hold]; rfl))
      (by simp [hold, SocketHook.holds]) (by simp [hnew]) (fun hdead => absurd hlive hdead)
  · obtain ⟨hold, hnew⟩ : v.hook = .thrown ∧ w.hook = .idle := hhook
    exact hx.of_sync hentered hs hy (fun _ => hthrew n rfl)
      (by simp [hold, SocketHook.holds]) (by simp [hnew]) (fun hdead => absurd hlive hdead)

theorem Tidy.sync (hx : Tidy run s v) (hentered : Entered s v)
    (hat : v.hook.home = s.current.hookHome)
    (hcheck : ∀ r, a = .checkStop r → s.stopRequested = true → v.socket.descriptor = none)
    (hthrew : ∀ r e, a = .runEnd r (.threw e) → v.socket.descriptor = none)
    (hstopped : ∀ r, a = .setStopped r → v.socket.hand .destructor = none)
    (hs : s.step a = some t) (hm : BaseWorker.Moves s a t)
    (hk : s.current.live → s.mState.shouldTriggerStop = true)
    (hy : v.Sync run s a w) : Tidy run t w := by
  have hhook := hy.hook
  cases hm with
  | rest hact _ hcur => exact hx.sync_rest hentered hs hy hat hk hact hcur
  | launch c created hstart hfrom hflag hto =>
    have hidle := idle_of_home hat (RunnerPc.hookHome_of_not_live hfrom)
    exact hx.sync_between hentered hs hy hidle hhook
      (fun _ => hx.empty (vacant_of_not_live hfrom _)) (fun _ => hx.ended hfrom)
  | preRunBegin r hfrom hto =>
    have hidle := idle_of_home hat (by rw [hfrom]; rfl)
    have hnew : w.hook = .before := hhook
    exact hx.of_sync hentered hs hy (fun _ => hx.empty (by rw [hfrom]; rfl))
      (by simp [hidle, SocketHook.holds]) (by simp [hnew])
      (fun hlive => absurd (by rw [hto]; decide) hlive)
  | preRunEnd r e hfrom hto => exact hx.sync_preRunEnd hentered hs hy hat hfrom hto
  | checkStop r hfrom hto =>
    have hidle := idle_of_home hat (by rw [hfrom]; rfl)
    refine hx.sync_between hentered hs hy hidle hhook ?_ ?_ <;> rw [hto]
    · split
      · rename_i hflag
        exact fun _ => hcheck r rfl hflag
      · exact fun hv => by cases hv
    · split <;> exact fun hlive => absurd (by decide) hlive
  | setRunning r hfrom hto =>
    have hidle := idle_of_home hat (by rw [hfrom]; rfl)
    have hnew : w.hook = .serving := hhook
    refine hx.of_sync hentered hs hy (fun hv => ?_) (by simp [hidle, SocketHook.holds])
      (by simp [hnew]) (fun hlive => absurd (by rw [hto]; decide) hlive)
    rw [hto, hnew] at hv
    cases hv
  | runEnd r e hfrom hto =>
    exact hx.sync_runEnd hentered hs hy (fun n he => hthrew r n (he ▸ rfl)) hfrom hto
  | catchException r e hfrom hto =>
    have hidle := idle_of_home hat (by rw [hfrom]; rfl)
    exact hx.sync_between hentered hs hy hidle hhook (fun _ => hx.empty (by rw [hfrom]; rfl))
      (fun hlive => absurd (by rw [hto]; decide) hlive)
  | setStopped r hfrom hto =>
    have hidle := idle_of_home hat (by rw [hfrom]; rfl)
    exact hx.sync_between hentered hs hy hidle hhook (fun _ => hx.empty (by rw [hfrom]; rfl))
      (fun _ => hstopped r rfl)

theorem tidy_init : Tidy run ({} : BaseWorker T) {} where
  hands := ⟨fun _ => rfl, fun _ _ => rfl, fun _ => rfl⟩
  accounts := TcpSocket.accounts_init
  empty _ := rfl
  runStops h := by cases h
  ended _ := rfl

end SocketView

/-! ## Whole runs -/

namespace SocketWorker
variable {T O A : Type} [DecidableEq T] (W : SocketWorker T O A)

def TidyRun (s : Object T O) : Prop :=
  W.derived.system.ReachableBy (SocketView.LeavesEmpty fun o => (W.view o).socket) s

variable {W}

theorem hookHome_of_reachable {ok : Object T O → ObjectAction T A → Prop} {s : Object T O}
    (hr : W.derived.system.ReachableBy ok s) :
    (W.view s.ext).hook.home = s.base.current.hookHome :=
  Derived.hookHome_of_reachable (fun o => (W.view o).hook.home)
    (by rw [W.init]; rfl) (fun hy => (W.sync hy).hook.home) (fun hy => (W.own hy).home) hr

theorem entered_of_reachable {ok : Object T O → ObjectAction T A → Prop} {s : Object T O}
    (hr : W.derived.system.ReachableBy ok s) : SocketView.Entered s.base (W.view s.ext) := by
  refine ReachableBy.invariant (P := fun s => SocketView.Entered s.base (W.view s.ext)) ?_
    (fun s a t _ hx _ hs => ?_) hr
  · intro c hc
    change (W.view W.derived.init).stop c ≠ .idle at hc
    rw [W.init] at hc
    exact absurd rfl hc
  · cases a with
    | base a =>
      obtain ⟨hb, hy⟩ := Derived.step_base.mp hs
      exact hx.sync hb (W.sync hy)
    | own a =>
      obtain ⟨hb, hy⟩ := Derived.step_own.mp hs
      rw [hb]
      exact hx.step (W.own hy)

theorem tidy_of_reachable {s : Object T O} (hr : W.TidyRun s) :
    SocketView.Tidy W.run s.base (W.view s.ext) := by
  refine ReachableBy.invariant (P := fun s => SocketView.Tidy W.run s.base (W.view s.ext)) ?_
    (fun s a t hr hx hok hs => ?_) hr
  · change SocketView.Tidy W.run {} (W.view W.derived.init)
    rw [W.init]
    exact SocketView.tidy_init
  · have hat := hookHome_of_reachable hr
    cases a with
    | base a =>
      obtain ⟨hb, hy⟩ := Derived.step_base.mp hs
      obtain ⟨hi, hu⟩ := Derived.inherits hr
      have hknown := BaseWorker.known_of_reachable (Derived.base_reachable hr)
      refine hx.sync (entered_of_reachable hr) hat ?_ ?_ ?_ hb (BaseWorker.moves_of_step hi hu hb)
        (BaseWorker.shouldTriggerStop_of_live hi hknown) (W.sync hy)
      · rintro r rfl
        exact hok
      · rintro r e rfl
        exact hok
      · rintro r rfl
        exact hok
    | own a =>
      obtain ⟨hb, hy⟩ := Derived.step_own.mp hs
      rw [hb]
      exact hx.step hat (W.own hy)

/-- When the worker is stopped and nobody is inside a stop hook, the member is empty and
every descriptor is closed. -/
theorem closed_of_stopped {s : Object T O} (hr : W.TidyRun s) (hstate : s.base.mState = .stopped)
    (hstop : ∀ c k, s.base.caller c ≠ .stopTriggered k) :
    (W.view s.ext).socket.descriptor = none ∧
      ∀ i, i < (W.view s.ext).socket.opened → (W.view s.ext).socket.closed i = 1 := by
  have hx := tidy_of_reachable hr
  have hlive := BaseWorker.current_not_live (Derived.inherits hr).1 hstate
  have hidle := SocketView.idle_of_home (hookHome_of_reachable hr)
    (RunnerPc.hookHome_of_not_live hlive)
  have hempty := hx.empty (SocketView.vacant_of_not_live hlive _)
  have hhand : ∀ k, (W.view s.ext).socket.hand k = none := by
    intro k
    cases k with
    | worker => exact hx.hands.worker (by rw [hidle]; rfl)
    | destructor => exact hx.ended hlive
    | stopper c =>
      refine hx.hands.stopper c fun hclose => ?_
      obtain ⟨k, hk⟩ := entered_of_reachable hr c (by simp [hclose])
      exact hstop c k hk
  exact ⟨hempty, fun i hi => hx.accounts.closed_of_empty hempty hhand hi⟩

/-- No descriptor is closed twice. -/
theorem closed_le_one {s : Object T O} (hr : W.TidyRun s) (i : Nat) :
    (W.view s.ext).socket.closed i ≤ 1 :=
  (tidy_of_reachable hr).accounts.closed_le_one i

/-- `preRun` stores its descriptor over nothing. -/
theorem empty_of_storing {s : Object T O} (hr : W.TidyRun s)
    (hhook : (W.view s.ext).hook = .storing) : (W.view s.ext).socket.descriptor = none := by
  refine (tidy_of_reachable hr).empty ?_
  rw [SocketView.current_of_home (hookHome_of_reachable hr) hhook rfl, hhook]
  rfl

end SocketWorker

end ThreadComponent
