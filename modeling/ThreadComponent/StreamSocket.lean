import Mathlib.Data.List.Basic

/-!
# The receiving side of a stream socket

An inlet answers read requests from an arbitrary script of events. A read takes at most
what it asked for; what it leaves of a data event stays in front of the script, as in a
kernel buffer. An exhausted script means a read that never returns.
-/

set_option autoImplicit false

namespace StreamSocket

universe u v
variable {β : Type u} {ε : Type v}

/-- What the peer and the kernel do next: make at least one element readable, end the
stream, or fail one read. -/
inductive Event (β : Type u) (ε : Type v) where
  | data (b : β) (bs : List β)
  | eof
  | error (e : ε)
  deriving DecidableEq

inductive Read (β : Type u) (ε : Type v) where
  | bytes (bs : List β)
  | eof
  | error (e : ε)
  deriving DecidableEq

structure Inlet (β : Type u) (ε : Type v) where
  pending : List (Event β ε)
  /-- Everything handed to readers so far. -/
  delivered : List β := []
  deriving DecidableEq

/-- Put what a short read left back in front of the script. -/
def pushBack : List β → List (Event β ε) → List (Event β ε)
  | [], rest => rest
  | b :: bs, rest => .data b bs :: rest

/-- One read of up to `n` elements; `none` when it blocks for ever. -/
def Inlet.recv (k : Inlet β ε) (n : Nat) : Option (Read β ε × Inlet β ε) :=
  match n, k.pending with
  | 0, _ => some (.eof, k)
  | _ + 1, [] => none
  | n + 1, .data b bs :: rest =>
    some (.bytes (b :: bs.take n),
      { pending := pushBack (bs.drop n) rest, delivered := k.delivered ++ b :: bs.take n })
  | _ + 1, .eof :: rest => some (.eof, { k with pending := rest })
  | _ + 1, .error e :: rest => some (.error e, { k with pending := rest })

/-- Elements and other events still to come; every read that gets past it is smaller. -/
def weight : List (Event β ε) → Nat
  | [] => 0
  | .data _ bs :: rest => bs.length + 1 + weight rest
  | _ :: rest => 1 + weight rest

def Inlet.weight (k : Inlet β ε) : Nat := StreamSocket.weight k.pending

theorem weight_pushBack (bs : List β) (rest : List (Event β ε)) :
    StreamSocket.weight (pushBack bs rest) = bs.length + StreamSocket.weight rest := by
  cases bs <;> simp [pushBack, StreamSocket.weight]

section Laws
variable {k k' : Inlet β ε} {n : Nat} {bs : List β} {e : ε}

theorem recv_bytes_weight (h : k.recv n = some (.bytes bs, k')) : k'.weight < k.weight := by
  unfold Inlet.recv at h
  split at h <;> simp only [Option.some.injEq, Prod.mk.injEq, Read.bytes.injEq, reduceCtorEq,
    false_and] at h
  rename_i b bs rest hp
  obtain ⟨-, rfl⟩ := h
  simp only [Inlet.weight, hp, weight_pushBack, StreamSocket.weight, List.length_drop]
  omega

theorem recv_error_weight (h : k.recv n = some (.error e, k')) : k'.weight < k.weight := by
  unfold Inlet.recv at h
  split at h <;> simp only [Option.some.injEq, Prod.mk.injEq, reduceCtorEq, false_and] at h
  rename_i hp
  obtain ⟨-, rfl⟩ := h
  simp [Inlet.weight, hp, StreamSocket.weight]

/-- A read hands over at least one and at most `n` elements, and records them. -/
theorem recv_bytes (h : k.recv n = some (.bytes bs, k')) :
    k'.delivered = k.delivered ++ bs ∧ 0 < bs.length ∧ bs.length ≤ n := by
  unfold Inlet.recv at h
  split at h <;> simp only [Option.some.injEq, Prod.mk.injEq, Read.bytes.injEq, reduceCtorEq,
    false_and] at h
  obtain ⟨rfl, rfl⟩ := h
  refine ⟨rfl, by simp, ?_⟩
  simp only [List.length_cons, List.length_take]
  omega

theorem recv_eof (h : k.recv n = some (.eof, k')) : k'.delivered = k.delivered := by
  unfold Inlet.recv at h
  split at h <;> simp only [Option.some.injEq, Prod.mk.injEq, reduceCtorEq, false_and,
    true_and] at h
  all_goals subst h; rfl

theorem recv_error (h : k.recv n = some (.error e, k')) : k'.delivered = k.delivered := by
  unfold Inlet.recv at h
  split at h <;> simp only [Option.some.injEq, Prod.mk.injEq, reduceCtorEq, false_and] at h
  obtain ⟨-, rfl⟩ := h
  rfl

end Laws

end StreamSocket
