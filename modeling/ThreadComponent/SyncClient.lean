import ThreadComponent.StreamSocket

/-!
# The receive operations of cTCPSyncClient_V2

The client is a value; the receiving side of its socket is an inlet of the kernel. An
operation that blocks for ever has no result. Error numbers are those of Linux.
-/

set_option autoImplicit false

namespace ThreadComponent

open StreamSocket

abbrev Byte := UInt8
abbrev Buffer := List Byte
abbrev Errno := Int

def EINTR : Errno := 4
def EAGAIN : Errno := 11
def EWOULDBLOCK : Errno := 11
def EMSGSIZE : Errno := 90
def ETIMEDOUT : Errno := 110

inductive IOResult where
  | success
  | closed
  | timeout
  | notConnected
  | invalidArgument
  | failed
  deriving DecidableEq, Repr

def defaultReceiveChunkSize : Nat := 4096

structure SyncClient where
  mSocket : Option Nat := none
  mLastPlatformError : Errno := 0
  mLastAddressInfoError : Int := 0
  deriving DecidableEq

/-- What a receive operation leaves: its result, the caller's buffer, the client and
the kernel side. -/
structure Received where
  result : IOResult
  out : Buffer
  client : SyncClient
  inlet : Inlet Byte Errno

namespace SyncClient

def isConnected (c : SyncClient) : Bool := c.mSocket.isSome

def clearLastError (c : SyncClient) : SyncClient :=
  { c with mLastPlatformError := 0, mLastAddressInfoError := 0 }

def setLastPlatformError (c : SyncClient) (errorCode : Errno) : SyncClient :=
  { c with mLastPlatformError := errorCode, mLastAddressInfoError := 0 }

def isTimeoutError (errorCode : Errno) : Bool :=
  errorCode = EAGAIN ∨ errorCode = EWOULDBLOCK ∨ errorCode = ETIMEDOUT

def classifySocketError (errorCode : Errno) : IOResult :=
  if isTimeoutError errorCode then .timeout else .failed

/-- `return classifySocketError(errno)` with `out` as it stands. -/
def failWith (c : SyncClient) (errorCode : Errno) (out : Buffer) (k : Inlet Byte Errno) :
    Received :=
  ⟨classifySocketError errorCode, out, c.setLastPlatformError errorCode, k⟩

def receiveSomeLoop (c : SyncClient) (maxBytes : Nat) (k : Inlet Byte Errno) : Option Received :=
  match h : k.recv maxBytes with
  | none => none
  | some (.bytes bs, k') => some ⟨.success, bs, c, k'⟩
  | some (.eof, k') => some ⟨.closed, [], c, k'⟩
  | some (.error e, k') =>
    if e = EINTR then
      have := recv_error_weight h
      receiveSomeLoop c maxBytes k'
    else some (c.failWith e [] k')
termination_by k.weight

def receiveSome (c : SyncClient) (maxBytes : Nat) (k : Inlet Byte Errno) : Option Received :=
  if maxBytes = 0 then some ⟨.invalidArgument, [], c.clearLastError, k⟩
  else if !c.isConnected then some ⟨.notConnected, [], c.clearLastError, k⟩
  else receiveSomeLoop c.clearLastError maxBytes k

/-- `out` is the part of the caller's buffer already filled; every exit resizes the
buffer to it. -/
def receiveExactLoop (c : SyncClient) (bytesToRead : Nat) (out : Buffer)
    (k : Inlet Byte Errno) : Option Received :=
  if out.length < bytesToRead then
    match h : k.recv (bytesToRead - out.length) with
    | none => none
    | some (.bytes bs, k') =>
      have := recv_bytes_weight h
      receiveExactLoop c bytesToRead (out ++ bs) k'
    | some (.eof, k') => some ⟨.closed, out, c, k'⟩
    | some (.error e, k') =>
      if e = EINTR then
        have := recv_error_weight h
        receiveExactLoop c bytesToRead out k'
      else some (c.failWith e out k')
  else some ⟨.success, out, c, k⟩
termination_by k.weight

def receiveExact (c : SyncClient) (bytesToRead : Nat) (k : Inlet Byte Errno) :
    Option Received :=
  if bytesToRead = 0 then some ⟨.success, [], c.clearLastError, k⟩
  else if !c.isConnected then some ⟨.notConnected, [], c.clearLastError, k⟩
  else receiveExactLoop c.clearLastError bytesToRead [] k

/-- `std::search(out, delimiter) != out.end()` for a non-empty delimiter. -/
def search (delimiter : Buffer) : Buffer → Bool
  | [] => delimiter.isEmpty
  | b :: bs => delimiter.isPrefixOf (b :: bs) || search delimiter bs

/-- What the caller's buffer may still take, at most one chunk at a time. -/
def nextChunkSize (maxBytes : Nat) (out : Buffer) : Nat :=
  min defaultReceiveChunkSize (maxBytes - out.length)

/-- A successful read of at least one byte, with what is needed for termination. -/
theorem receiveSomeLoop_progress {c : SyncClient} {n : Nat} {k : Inlet Byte Errno} {r : Received}
    (h : c.receiveSomeLoop n k = some r) (hr : r.result = .success) :
    r.inlet.weight < k.weight := by
  fun_induction receiveSomeLoop c n k with
  | case1 => simp at h
  | case2 k bs k' hrecv =>
    obtain rfl := Option.some.inj h
    exact recv_bytes_weight hrecv
  | case3 =>
    obtain rfl := Option.some.inj h
    cases hr
  | case4 k k' hrecv hless ih => exact Nat.lt_trans (ih h) hless
  | case5 =>
    obtain rfl := Option.some.inj h
    simp only [failWith, classifySocketError] at hr
    split at hr <;> cases hr

theorem receiveSome_progress {c : SyncClient} {n : Nat} {k : Inlet Byte Errno} {r : Received}
    (h : c.receiveSome n k = some r) (hr : r.result = .success) : r.inlet.weight < k.weight := by
  unfold receiveSome at h
  split at h
  · obtain rfl := Option.some.inj h
    cases hr
  · split at h
    · obtain rfl := Option.some.inj h
      cases hr
    · exact receiveSomeLoop_progress h hr

def receiveUntilDelimiterLoop (c : SyncClient) (delimiter : Buffer) (maxBytes : Nat)
    (out : Buffer) (k : Inlet Byte Errno) : Option Received :=
  if out.length < maxBytes then
    match h : c.receiveSome (nextChunkSize maxBytes out) k with
    | none => none
    | some r =>
      if hr : r.result = .success then
        if search delimiter (out ++ r.out) then
          some ⟨.success, out ++ r.out, r.client, r.inlet⟩
        else
          have := receiveSome_progress h hr
          receiveUntilDelimiterLoop r.client delimiter maxBytes (out ++ r.out) r.inlet
      else some ⟨r.result, out, r.client, r.inlet⟩
  else some ⟨.failed, out, c.setLastPlatformError EMSGSIZE, k⟩
termination_by k.weight

def receiveUntilDelimiter (c : SyncClient) (delimiter : Buffer) (maxBytes : Nat)
    (k : Inlet Byte Errno) : Option Received :=
  if delimiter = [] ∨ maxBytes = 0 then some ⟨.invalidArgument, [], c.clearLastError, k⟩
  else if !c.isConnected then some ⟨.notConnected, [], c.clearLastError, k⟩
  else receiveUntilDelimiterLoop c.clearLastError delimiter maxBytes [] k

def receiveUntilClosedLoop (c : SyncClient) (maxBytes : Nat) (out : Buffer)
    (k : Inlet Byte Errno) : Option Received :=
  if out.length < maxBytes then
    match h : c.receiveSome (nextChunkSize maxBytes out) k with
    | none => none
    | some r =>
      if hr : r.result = .success then
        have := receiveSome_progress h hr
        receiveUntilClosedLoop r.client maxBytes (out ++ r.out) r.inlet
      else if r.result = .closed then some ⟨.success, out, r.client.clearLastError, r.inlet⟩
      else some ⟨r.result, out, r.client, r.inlet⟩
  else some ⟨.failed, out, c.setLastPlatformError EMSGSIZE, k⟩
termination_by k.weight

def receiveUntilClosed (c : SyncClient) (maxBytes : Nat) (k : Inlet Byte Errno) :
    Option Received :=
  if maxBytes = 0 then some ⟨.invalidArgument, [], c.clearLastError, k⟩
  else if !c.isConnected then some ⟨.notConnected, [], c.clearLastError, k⟩
  else receiveUntilClosedLoop c.clearLastError maxBytes [] k

end SyncClient

end ThreadComponent
