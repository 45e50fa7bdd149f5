import ThreadComponent.Ownership

/-!
# The descriptor member of the TCP workers

`m_socket` of TCPClient_V2 and `m_serverSocket` of TCPServer_V2 are atomic integers that
`preRun` fills and that the worker, the stop hooks and the destructor empty: each takes
the descriptor out with an exchange and closes what it got. Descriptors are numbered in
the order in which `::socket` returns them, so a number the kernel uses again is another
descriptor here.
-/

set_option autoImplicit false
set_option linter.unusedSectionVars false

namespace ThreadComponent

open Ownership

/-- The threads that handle the descriptor; `T` names the callers of the stop hook. -/
inductive Closer (T : Type) where
  | worker
  | stopper (c : T)
  | destructor
  deriving DecidableEq, Repr

structure TcpSocket (T : Type) where
  /-- The atomic member; `none` is -1. -/
  descriptor : Option Nat := none
  opened : Nat := 0
  /-- Number of calls of `::close` on a descriptor. -/
  closed : Nat → Nat := fun _ => 0
  /-- A descriptor that a thread has in a local variable, to store it or to close it. -/
  hand : Closer T → Option Nat := fun _ => none

/-- What a `::recv` brings: bytes, `EINTR`, or the end of the connection or an error. -/
inductive RecvResult where
  | received
  | interrupted
  | ended
  deriving DecidableEq, Repr

namespace TcpSocket
variable {T : Type} [DecidableEq T]

def openSocket (x : TcpSocket T) (k : Closer T) : TcpSocket T :=
  { x with opened := x.opened + 1, hand := Function.update x.hand k (some x.opened) }

def store (x : TcpSocket T) (k : Closer T) : TcpSocket T :=
  { x with descriptor := x.hand k, hand := Function.update x.hand k none }

/-- The first half of `closeSocket`: `m_socket.exchange(-1)`. -/
def exchange (x : TcpSocket T) (k : Closer T) : TcpSocket T :=
  { x with descriptor := none, hand := Function.update x.hand k x.descriptor }

/-- The second half of `closeSocket`: `::close`, if the exchange has brought a descriptor. -/
def close (x : TcpSocket T) (k : Closer T) : TcpSocket T :=
  match x.hand k with
  | some i =>
    { x with
      closed := Function.update x.closed i (x.closed i + 1)
      hand := Function.update x.hand k none }
  | none => x

section Lemmas
variable {x : TcpSocket T} {k j : Closer T}

@[simp] theorem openSocket_descriptor : (x.openSocket k).descriptor = x.descriptor := rfl
@[simp] theorem openSocket_hand_self : (x.openSocket k).hand k = some x.opened :=
  Function.update_self ..
@[simp] theorem openSocket_hand_ne (h : j ≠ k) : (x.openSocket k).hand j = x.hand j :=
  Function.update_of_ne h _ _
@[simp] theorem store_descriptor : (x.store k).descriptor = x.hand k := rfl
@[simp] theorem store_hand_self : (x.store k).hand k = none := Function.update_self ..
@[simp] theorem store_hand_ne (h : j ≠ k) : (x.store k).hand j = x.hand j :=
  Function.update_of_ne h _ _
@[simp] theorem exchange_descriptor : (x.exchange k).descriptor = none := rfl
@[simp] theorem exchange_hand_ne (h : j ≠ k) : (x.exchange k).hand j = x.hand j :=
  Function.update_of_ne h _ _

@[simp] theorem close_descriptor : (x.close k).descriptor = x.descriptor := by
  unfold close
  split <;> rfl

@[simp] theorem close_opened : (x.close k).opened = x.opened := by
  unfold close
  split <;> rfl

@[simp] theorem close_hand_self : (x.close k).hand k = none := by
  unfold close
  split
  · exact Function.update_self ..
  · assumption

@[simp] theorem close_hand_ne (h : j ≠ k) : (x.close k).hand j = x.hand j := by
  unfold close
  split
  · exact Function.update_of_ne h _ _
  · rfl

end Lemmas

/-- Where descriptors can be: in the member or with a thread. -/
def place (x : TcpSocket T) : Option (Closer T) → Option Nat
  | none => x.descriptor
  | some k => x.hand k

/-- Every descriptor is in one place and open, or closed once. -/
def Accounts (x : TcpSocket T) : Prop := Accounted x.place x.closed x.opened

variable {x : TcpSocket T} {k : Closer T}

theorem accounts_init : Accounts ({} : TcpSocket T) := by
  have h : place ({} : TcpSocket T) = fun _ => none := by
    funext p
    cases p <;> rfl
  unfold Accounts
  rw [h]
  exact accounted_init

theorem Accounts.openSocket (hx : Accounts x) (hk : x.hand k = none) :
    Accounts (x.openSocket k) := by
  have hplace : (x.openSocket k).place = Function.update x.place (some k) (some x.opened) := by
    funext p
    cases p <;> simp [TcpSocket.openSocket, place, Function.update_apply]
  unfold Accounts
  rw [hplace]
  exact Accounted.acquire hx hk

theorem update_hand_of_none (hk : x.hand k = none) : Function.update x.hand k none = x.hand := by
  rw [← hk, Function.update_eq_self]

/-- Storing loses nothing as long as the member is empty. -/
theorem Accounts.store (hx : Accounts x) (hempty : x.descriptor = none) :
    Accounts (x.store k) := by
  cases hk : x.hand k with
  | none =>
    have hsame : x.store k = x := by
      rw [TcpSocket.store, hk, update_hand_of_none hk, ← hempty]
    rwa [hsame]
  | some i =>
    have hplace : (x.store k).place =
        Function.update (Function.update x.place (some k) none) none (some i) := by
      funext p
      cases p <;> simp [TcpSocket.store, place, hk, Function.update_apply]
    unfold Accounts
    rw [hplace]
    exact Accounted.transfer hx hk hempty

theorem Accounts.exchange (hx : Accounts x) (hk : x.hand k = none) :
    Accounts (x.exchange k) := by
  cases hd : x.descriptor with
  | none =>
    have hsame : x.exchange k = x := by
      rw [TcpSocket.exchange, hd, update_hand_of_none hk, ← hd]
    rwa [hsame]
  | some i =>
    have hplace : (x.exchange k).place =
        Function.update (Function.update x.place none none) (some k) (some i) := by
      funext p
      cases p <;> simp [TcpSocket.exchange, place, hd, Function.update_apply]
    unfold Accounts
    rw [hplace]
    exact Accounted.transfer hx hd hk

theorem Accounts.close (hx : Accounts x) : Accounts (x.close k) := by
  cases hk : x.hand k with
  | none => simpa [TcpSocket.close, hk] using hx
  | some i =>
    have hplace : (x.close k).place = Function.update x.place (some k) none := by
      funext p
      cases p <;> simp [TcpSocket.close, place, hk, Function.update_apply]
    have hrel := Accounted.release (h := some k) hx hk
    unfold Accounts
    rw [hplace]
    simpa [TcpSocket.close, hk] using hrel

theorem Accounts.closed_le_one (hx : Accounts x) (i : Nat) : x.closed i ≤ 1 :=
  Accounted.released_le_one hx i

/-- Once the member is empty and no thread has a descriptor, all of them are closed. -/
theorem Accounts.closed_of_empty (hx : Accounts x) (hempty : x.descriptor = none)
    (hhand : ∀ k, x.hand k = none) {i : Nat} (hi : i < x.opened) : x.closed i = 1 := by
  refine Accounted.released_of_unheld hx hi fun p => ?_
  cases p with
  | none => simp [place, hempty]
  | some k => simp [place, hhand]

/-! ## Open descriptors -/

/-- Every descriptor that is in some place is open and in no other place. One that is stored
over is lost. -/
def InCustody (x : TcpSocket T) : Prop := Custody (fun _ => True) x.place x.closed x.opened

/-- The object has opened the descriptor and has not closed it yet. -/
def IsOpen (x : TcpSocket T) (fd : Nat) : Prop := fd < x.opened ∧ x.closed fd = 0

instance (x : TcpSocket T) (fd : Nat) : Decidable (IsOpen x fd) := by
  unfold IsOpen
  infer_instance

theorem inCustody_init : InCustody ({} : TcpSocket T) := by
  have h : place ({} : TcpSocket T) = fun _ => none := by
    funext p
    cases p <;> rfl
  unfold InCustody
  rw [h]
  exact custody_init

variable {fd : Nat}

theorem InCustody.openSocket (hx : InCustody x) : InCustody (x.openSocket k) := by
  have hplace : (x.openSocket k).place = Function.update x.place (some k) (some x.opened) := by
    funext p
    cases p <;> simp [TcpSocket.openSocket, place, Function.update_apply]
  unfold InCustody
  rw [hplace]
  exact Custody.acquire hx (some k)

theorem InCustody.store (hx : InCustody x) : InCustody (x.store k) := by
  have hplace : (x.store k).place =
      Function.update (Function.update x.place (some k) none) none (x.place (some k)) := by
    funext p
    cases p <;> simp [TcpSocket.store, place, Function.update_apply]
  unfold InCustody
  rw [hplace]
  exact Custody.move hx (some k) none id

theorem InCustody.exchange (hx : InCustody x) : InCustody (x.exchange k) := by
  have hplace : (x.exchange k).place =
      Function.update (Function.update x.place none none) (some k) (x.place none) := by
    funext p
    cases p <;> simp [TcpSocket.exchange, place, Function.update_apply]
  unfold InCustody
  rw [hplace]
  exact Custody.move hx none (some k) id

theorem InCustody.close (hx : InCustody x) : InCustody (x.close k) := by
  cases hk : x.hand k with
  | none => simpa [TcpSocket.close, hk] using hx
  | some i =>
    have hplace : (x.close k).place = Function.update x.place (some k) none := by
      funext p
      cases p <;> simp [TcpSocket.close, place, hk, Function.update_apply]
    have hrelease := Custody.release (h := some k) hx hk
    unfold InCustody
    rw [hplace]
    simpa [TcpSocket.close, hk] using hrelease

theorem InCustody.isOpen_descriptor (hx : InCustody x) (h : x.descriptor = some fd) :
    IsOpen x fd :=
  ⟨Custody.known hx (h := none) h, Custody.unreleased hx (h := none) trivial h⟩

theorem InCustody.isOpen_hand (hx : InCustody x) (h : x.hand k = some fd) : IsOpen x fd :=
  ⟨Custody.known hx (h := some k) h, Custody.unreleased hx (h := some k) trivial h⟩

theorem IsOpen.openSocket (hx : IsOpen x fd) : IsOpen (x.openSocket k) fd :=
  ⟨Nat.lt_succ_of_lt hx.1, hx.2⟩

theorem close_closed_ne (hk : x.hand k ≠ some fd) : (x.close k).closed fd = x.closed fd := by
  unfold TcpSocket.close
  split
  · rename_i i hi
    have hne : fd ≠ i := by
      rintro rfl
      exact hk hi
    exact Function.update_of_ne hne _ _
  · rfl

theorem IsOpen.close (hx : IsOpen x fd) (hk : x.hand k ≠ some fd) : IsOpen (x.close k) fd := by
  rw [IsOpen, close_opened, close_closed_ne hk]
  exact hx

/-- Every descriptor that a thread is about to use, as `issues` says, is open. -/
structure Serves (x : TcpSocket T) (issues : Nat → Prop) : Prop where
  custody : InCustody x
  issued : ∀ fd, issues fd → IsOpen x fd

namespace Serves
variable {issues issues' : Nat → Prop}

theorem load (hx : Serves x issues)
    (h : ∀ fd, issues' fd → issues fd ∨ x.descriptor = some fd) : Serves x issues' where
  custody := hx.custody
  issued fd hfd := (h fd hfd).elim (hx.issued fd) hx.custody.isOpen_descriptor

theorem openSocket (hx : Serves x issues) (h : ∀ fd, issues' fd → issues fd) :
    Serves (x.openSocket k) issues' where
  custody := hx.custody.openSocket
  issued fd hfd := (hx.issued fd (h fd hfd)).openSocket

/-- The thread that stores its descriptor goes on to use it. -/
theorem store (hx : Serves x issues)
    (h : ∀ fd, issues' fd → issues fd ∨ x.hand k = some fd) : Serves (x.store k) issues' where
  custody := hx.custody.store
  issued fd hfd := (h fd hfd).elim (hx.issued fd) hx.custody.isOpen_hand

theorem exchange (hx : Serves x issues) (h : ∀ fd, issues' fd → issues fd) :
    Serves (x.exchange k) issues' where
  custody := hx.custody.exchange
  issued fd hfd := hx.issued fd (h fd hfd)

/-- A thread closes a descriptor that nobody is about to use. -/
theorem close (hx : Serves x issues) (h : ∀ fd, issues' fd → issues fd)
    (hunused : ∀ fd ∈ x.hand k, ¬ issues fd) : Serves (x.close k) issues' where
  custody := hx.custody.close
  issued fd hfd := (hx.issued fd (h fd hfd)).close fun hhand => hunused fd hhand (h fd hfd)

end Serves

end TcpSocket

end ThreadComponent
