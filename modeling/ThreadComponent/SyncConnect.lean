import ThreadComponent.SyncReceive

/-!
# The connection of cTCPSyncClient_V2

The operations that open, configure, use and close the client's descriptor. A call comes with
the answers of the kernel to the system calls that it may make; an operation that runs out of
answers blocks for ever. Descriptors have the number of the `::socket` call that has opened
them, so that a number which the kernel gives out again is another descriptor. Allocations do
not throw.
-/

set_option autoImplicit false

namespace ThreadComponent

open StreamSocket

/-- A system call succeeds, or it fails and leaves its reason in `errno`. -/
inductive Reply where
  | ok
  | error (e : Errno)
  deriving DecidableEq, Repr

structure CloseReply where
  shutdown : Reply := .ok
  close : Reply := .ok
  deriving DecidableEq, Repr

inductive SocketOption where
  | sndTimeo
  | rcvTimeo
  deriving DecidableEq, Repr

structure Timeval where
  tvSec : Int := 0
  tvUsec : Int := 0
  deriving DecidableEq, Repr

structure Kernel where
  /-- Number of descriptors opened so far; the next one gets this number. -/
  opened : Nat := 0
  /-- How often each of them was closed. -/
  closed : Nat → Nat := fun _ => 0
  /-- `errno`, but for `::recv`, which hands its reason to its caller. -/
  errno : Errno := 0
  sendTimeout : Nat → Timeval := fun _ => {}
  receiveTimeout : Nat → Timeval := fun _ => {}
  sent : Nat → Buffer := fun _ => []

/-- What the kernel answers to the calls for one entry of the address list. -/
structure Candidate where
  socket : Reply := .ok
  sendTimeout : Reply := .ok
  receiveTimeout : Reply := .ok
  connect : Reply := .ok
  cleanup : CloseReply := {}
  deriving DecidableEq, Repr

/-- What `::getaddrinfo` returns, and the address list that it leaves. -/
structure Lookup where
  code : Int := 0
  candidates : List Candidate := []
  deriving DecidableEq, Repr

inductive SendAnswer where
  | sent (n : Nat)
  | error (e : Errno)
  deriving DecidableEq, Repr

namespace Kernel

def answer (k : Kernel) : Reply → Kernel
  | .ok => k
  | .error e => { k with errno := e }

def socket (k : Kernel) : Reply → Option Nat × Kernel
  | .ok => (some k.opened, { k with opened := k.opened + 1 })
  | .error e => (none, { k with errno := e })

def setsockopt (k : Kernel) (socketFd : Nat) (optionName : SocketOption) (value : Timeval) :
    Reply → Bool × Kernel
  | .ok => (true, match optionName with
      | .sndTimeo => { k with sendTimeout := Function.update k.sendTimeout socketFd value }
      | .rcvTimeo => { k with receiveTimeout := Function.update k.receiveTimeout socketFd value })
  | .error e => (false, { k with errno := e })

/-- `::shutdown` and `::close`, whose results nobody looks at. -/
def closeSocketValue (k : Kernel) (socketFd : Nat) (r : CloseReply) : Kernel :=
  { (k.answer r.shutdown).answer r.close with
    closed := Function.update k.closed socketFd (k.closed socketFd + 1) }

end Kernel

def sanitizeTimeout (timeout : Int) : Int := if timeout < 0 then 0 else timeout

def toTimeval (timeout : Int) : Timeval :=
  { tvSec := sanitizeTimeout timeout / 1000, tvUsec := sanitizeTimeout timeout % 1000 * 1000 }

structure SyncHost where
  client : SyncClient := {}
  mSendTimeout : Int := 0
  mReceiveTimeout : Int := 0
  kernel : Kernel := {}

structure Exchanged where
  result : IOResult
  out : Buffer
  host : SyncHost

namespace SyncHost

def isConnected (h : SyncHost) : Bool := h.client.isConnected

def clearLastError (h : SyncHost) : SyncHost := { h with client := h.client.clearLastError }

def setLastAddressInfoError (h : SyncHost) (errorCode : Int) : SyncHost :=
  { h with client := { h.client with
      mLastPlatformError := 0, mLastAddressInfoError := errorCode } }

/-- `setLastPlatformError(errno)`, behind a call that has failed. -/
def failed (h : SyncHost) (k : Kernel) : SyncHost :=
  { h with kernel := k, client := h.client.setLastPlatformError k.errno }

def closeSocketValue (h : SyncHost) (socketFd : Nat) (r : CloseReply) : SyncHost :=
  { h with kernel := h.kernel.closeSocketValue socketFd r }

def close (h : SyncHost) (r : CloseReply) : SyncHost :=
  match h.client.mSocket with
  | some socketFd =>
    { h.closeSocketValue socketFd r with client := { h.client with mSocket := none } }
  | none => h

/-! ## Timeouts -/

def applyConfiguredTimeout (h : SyncHost) (timeout : Int) (optionName : SocketOption)
    (r : Reply) : Bool × SyncHost :=
  match h.client.mSocket with
  | none => (true, h.clearLastError)
  | some socketFd =>
    match h.kernel.setsockopt socketFd optionName (toTimeval timeout) r with
    | (true, k) => (true, { h.clearLastError with kernel := k })
    | (false, k) => (false, h.clearLastError.failed k)

def setSendTimeout (h : SyncHost) (timeout : Int) (r : Reply) : Bool × SyncHost :=
  { h with mSendTimeout := sanitizeTimeout timeout }.applyConfiguredTimeout
    (sanitizeTimeout timeout) .sndTimeo r

def setReceiveTimeout (h : SyncHost) (timeout : Int) (r : Reply) : Bool × SyncHost :=
  { h with mReceiveTimeout := sanitizeTimeout timeout }.applyConfiguredTimeout
    (sanitizeTimeout timeout) .rcvTimeo r

/-! ## connect -/

/-- Linux has no `SO_NOSIGPIPE`. -/
def configureSocket (h : SyncHost) (socketFd : Nat) (x : Candidate) : Bool × SyncHost :=
  match h.kernel.setsockopt socketFd .sndTimeo (toTimeval h.mSendTimeout) x.sendTimeout with
  | (false, k) => (false, h.failed k)
  | (true, k) =>
    match k.setsockopt socketFd .rcvTimeo (toTimeval h.mReceiveTimeout) x.receiveTimeout with
    | (false, k) => (false, h.failed k)
    | (true, k) => (true, { h with kernel := k })

def connectLoop (h : SyncHost) : List Candidate → Bool × SyncHost
  | [] => (false, h)
  | current :: rest =>
    match h.kernel.socket current.socket with
    | (none, k) => (h.failed k).connectLoop rest
    | (some socketFd, k) =>
      match { h with kernel := k }.configureSocket socketFd current with
      | (false, h) => (h.closeSocketValue socketFd current.cleanup).connectLoop rest
      | (true, h) =>
        match current.connect with
        | .ok =>
          (true, { h with client := { h.client with mSocket := some socketFd } }.clearLastError)
        | .error e =>
          ((h.failed (h.kernel.answer (.error e))).closeSocketValue socketFd
            current.cleanup).connectLoop rest

def connect (h : SyncHost) (r : CloseReply) (l : Lookup) : Bool × SyncHost :=
  let h := (h.close r).clearLastError
  if l.code ≠ 0 then (false, h.setLastAddressInfoError l.code)
  else h.connectLoop l.candidates

def reconnect (h : SyncHost) (r r' : CloseReply) (l : Lookup) : Bool × SyncHost :=
  (h.close r).connect r' l

/-! ## Input and output -/

def shutdownWrite (h : SyncHost) (r : Reply) : Bool × SyncHost :=
  if !h.isConnected then (false, h)
  else
    match r with
    | .ok => (true, h.clearLastError)
    | .error e => (false, h.clearLastError.failed (h.kernel.answer (.error e)))

def classifySocketError (h : SyncHost) : IOResult × SyncHost :=
  (SyncClient.classifySocketError h.kernel.errno, h.failed h.kernel)

/-- The bytes of `payload` from `totalSent` on have been handed to no `::send` yet. -/
def recordSent (h : SyncHost) (payload : Buffer) (totalSent n : Nat) : SyncHost :=
  match h.client.mSocket with
  | some socketFd =>
    { h with kernel := { h.kernel with
        sent := Function.update h.kernel.sent socketFd
          (h.kernel.sent socketFd ++ (payload.drop totalSent).take n) } }
  | none => h

def sendAllLoop (h : SyncHost) (payload : Buffer) (size totalSent : Nat) :
    List SendAnswer → Option (IOResult × SyncHost)
  | [] => if totalSent < size then none else some (.success, h)
  | answer :: rest =>
    if totalSent < size then
      match answer with
      | .sent n =>
        if 0 < n then
          (h.recordSent payload totalSent n).sendAllLoop payload size (totalSent + n) rest
        else some h.classifySocketError
      | .error e =>
        if e = EINTR then
          { h with kernel := h.kernel.answer (.error e) }.sendAllLoop payload size totalSent rest
        else some { h with kernel := h.kernel.answer (.error e) }.classifySocketError
    else some (.success, h)

/-- `data` points to `size` bytes, or it is null. -/
def sendAll (h : SyncHost) (data : Option Buffer) (size : Nat) (answers : List SendAnswer) :
    Option (IOResult × SyncHost) :=
  if size = 0 then some (.success, h.clearLastError)
  else
    match data with
    | none => some (.invalidArgument, h.clearLastError)
    | some payload =>
      if !h.isConnected then some (.notConnected, h.clearLastError)
      else h.clearLastError.sendAllLoop payload size 0 answers

def receive (h : SyncHost) (call : ReceiveCall) (inlet : Inlet Byte Errno) : Option Exchanged :=
  (call.perform h.client inlet).map fun r => ⟨r.result, r.out, { h with client := r.client }⟩

end SyncHost

/-! ## Exchanges -/

structure Exchange where
  /-- For the descriptor of an earlier connection. -/
  close : CloseReply := {}
  lookup : Lookup := {}
  answers : List SendAnswer := []
  shutdown : Reply := .ok
  inlet : Inlet Byte Errno := { pending := [] }
  /-- For the scope guard. -/
  cleanup : CloseReply := {}

/-- The scope guard closes the connection behind the rest of the function, on every path. -/
def closeOnExit (r : CloseReply) (rest : Option Exchanged) : Option Exchanged :=
  rest.map fun d => { d with host := d.host.close r }

namespace SyncHost

def exchangeOnce (h : SyncHost) (requestData : Option Buffer) (requestSize maxResponseBytes : Nat)
    (x : Exchange) : Option Exchanged :=
  match h.connect x.close x.lookup with
  | (false, h) => some ⟨.failed, [], h⟩
  | (true, h) =>
    closeOnExit x.cleanup
      (match h.sendAll requestData requestSize x.answers with
      | none => none
      | some (.success, h) => h.receive (.receiveSome maxResponseBytes) x.inlet
      | some (sendResult, h) => some ⟨sendResult, [], h⟩)

def exchangeOnceUntilClosed (h : SyncHost) (requestData : Option Buffer)
    (requestSize maxResponseBytes : Nat) (x : Exchange) : Option Exchanged :=
  match h.connect x.close x.lookup with
  | (false, h) => some ⟨.failed, [], h⟩
  | (true, h) =>
    closeOnExit x.cleanup
      (match h.sendAll requestData requestSize x.answers with
      | none => none
      | some (.success, h) =>
        match h.shutdownWrite x.shutdown with
        | (false, h) => some ⟨.failed, [], h⟩
        | (true, h) => h.receive (.receiveUntilClosed maxResponseBytes) x.inlet
      | some (sendResult, h) => some ⟨sendResult, [], h⟩)

end SyncHost

/-- An exchange goes on behind a successful `connect` only, and under the scope guard. -/
theorem afterConnect {h : SyncHost} {r r' : CloseReply} {l : Lookup}
    {rest : SyncHost → Option Exchanged} {d : Exchanged}
    (hd : (match h.connect r l with
      | (false, h) => some ⟨.failed, [], h⟩
      | (true, h) => closeOnExit r' (rest h)) = some d) :
    (∃ t, h.connect r l = (false, t) ∧ d = ⟨.failed, [], t⟩) ∨
      ∃ t d', h.connect r l = (true, t) ∧ rest t = some d' ∧
        d = { d' with host := d'.host.close r' } := by
  split at hd
  · next t ht => exact .inl ⟨t, ht, (Option.some.inj hd).symm⟩
  · next t ht =>
    obtain ⟨d', hd', rfl⟩ := Option.map_eq_some_iff.mp hd
    exact .inr ⟨t, d', ht, hd', rfl⟩

theorem afterSend {o : Option (IOResult × SyncHost)} {f : SyncHost → Option Exchanged}
    {d : Exchanged} (hd : (match o with
      | none => none
      | some (.success, h) => f h
      | some (sendResult, h) => some ⟨sendResult, [], h⟩) = some d) :
    (∃ h, o = some (.success, h) ∧ f h = some d) ∨
      ∃ sendResult h, o = some (sendResult, h) ∧ d = ⟨sendResult, [], h⟩ := by
  split at hd
  · cases hd
  · next h => exact .inl ⟨h, rfl, hd⟩
  · next sendResult h _ => exact .inr ⟨sendResult, h, rfl, (Option.some.inj hd).symm⟩

/-! ## Calls -/

inductive SyncCall where
  | connect (r : CloseReply) (l : Lookup)
  | reconnect (r r' : CloseReply) (l : Lookup)
  | close (r : CloseReply)
  | shutdownWrite (r : Reply)
  | sendAll (data : Option Buffer) (size : Nat) (answers : List SendAnswer)
  | receive (call : ReceiveCall) (inlet : Inlet Byte Errno)
  | setSendTimeout (timeout : Int) (r : Reply)
  | setReceiveTimeout (timeout : Int) (r : Reply)
  | exchangeOnce (requestData : Option Buffer) (requestSize maxResponseBytes : Nat)
      (x : Exchange)
  | exchangeOnceUntilClosed (requestData : Option Buffer) (requestSize maxResponseBytes : Nat)
      (x : Exchange)

inductive CallResult where
  | done
  | flag (b : Bool)
  | io (result : IOResult) (out : Buffer)
  deriving DecidableEq, Repr

/-- What a call returns and leaves; `none` where it blocks for ever. -/
def SyncHost.perform (h : SyncHost) : SyncCall → Option (CallResult × SyncHost)
  | .connect r l => some ((h.connect r l).map .flag id)
  | .reconnect r r' l => some ((h.reconnect r r' l).map .flag id)
  | .close r => some (.done, h.close r)
  | .shutdownWrite r => some ((h.shutdownWrite r).map .flag id)
  | .sendAll data size answers =>
    (h.sendAll data size answers).map fun d => (.io d.1 [], d.2)
  | .receive call inlet => (h.receive call inlet).map fun d => (.io d.result d.out, d.host)
  | .setSendTimeout timeout r => some ((h.setSendTimeout timeout r).map .flag id)
  | .setReceiveTimeout timeout r => some ((h.setReceiveTimeout timeout r).map .flag id)
  | .exchangeOnce data size n x =>
    (h.exchangeOnce data size n x).map fun d => (.io d.result d.out, d.host)
  | .exchangeOnceUntilClosed data size n x =>
    (h.exchangeOnceUntilClosed data size n x).map fun d => (.io d.result d.out, d.host)

def Reply.reason : Reply → Option Errno
  | .ok => none
  | .error e => some e

def Candidate.configureReason (x : Candidate) : Option Errno :=
  x.sendTimeout.reason <|> x.receiveTimeout.reason

/-- Why an entry of the address list leads to no connection. -/
def Candidate.reason (x : Candidate) : Option Errno :=
  x.socket.reason <|> x.configureReason <|> x.connect.reason

/-! ## One entry of the address list -/

namespace Kernel

/-- No descriptor is opened or closed between `k` and `k'`. -/
def SameDescriptors (k k' : Kernel) : Prop := k'.opened = k.opened ∧ k'.closed = k.closed

/-- One descriptor is opened between `k` and `k'`, and closed again. -/
def Discarded (k k' : Kernel) : Prop :=
  k'.opened = k.opened + 1 ∧
    k'.closed = Function.update k.closed k.opened (k.closed k.opened + 1)

variable {k : Kernel} {fd : Nat} {r : Reply}

@[simp] theorem answer_opened : (k.answer r).opened = k.opened := by cases r <;> rfl

@[simp] theorem answer_closed : (k.answer r).closed = k.closed := by cases r <;> rfl

theorem setsockopt_same (k : Kernel) (socketFd : Nat) (optionName : SocketOption)
    (value : Timeval) (r : Reply) :
    SameDescriptors k (k.setsockopt socketFd optionName value r).2 := by
  cases r with
  | ok => cases optionName <;> exact ⟨rfl, rfl⟩
  | error e => exact ⟨rfl, rfl⟩

theorem closeSocketValue_closed (r : CloseReply) :
    (k.closeSocketValue fd r).closed = Function.update k.closed fd (k.closed fd + 1) := by
  simp [closeSocketValue]

@[simp] theorem closeSocketValue_opened (r : CloseReply) :
    (k.closeSocketValue fd r).opened = k.opened := by
  simp [closeSocketValue]

end Kernel

namespace SyncHost
variable {h : SyncHost} {x : Candidate} {e : Errno}

theorem configureSocket_ok (h : SyncHost) (fd : Nat) (hx : x.configureReason = none) :
    ∃ k, h.configureSocket fd x = (true, { h with kernel := k }) ∧ h.kernel.SameDescriptors k := by
  obtain ⟨s, st, rt, c, r⟩ := x
  cases st with
  | error e => cases hx
  | ok =>
    cases rt with
    | error e => cases hx
    | ok => exact ⟨_, rfl, rfl, rfl⟩

theorem configureSocket_error (h : SyncHost) (fd : Nat) (hx : x.configureReason = some e) :
    ∃ k, h.configureSocket fd x =
        (false, { h with client := h.client.setLastPlatformError e, kernel := k }) ∧
      h.kernel.SameDescriptors k := by
  obtain ⟨s, st, rt, c, r⟩ := x
  cases st with
  | error e' =>
    obtain rfl : e' = e := Option.some.inj hx
    exact ⟨_, rfl, rfl, rfl⟩
  | ok =>
    cases rt with
    | ok => cases hx
    | error e' =>
      obtain rfl : e' = e := Option.some.inj hx
      exact ⟨_, rfl, rfl, rfl⟩

theorem connectLoop_error (rest : List Candidate) (hx : x.reason = some e) :
    ∃ k, h.connectLoop (x :: rest) =
        { h with client := h.client.setLastPlatformError e, kernel := k }.connectLoop rest ∧
      (h.kernel.SameDescriptors k ∨ h.kernel.Discarded k) := by
  cases hs : x.socket with
  | error e' =>
    rw [Candidate.reason, hs] at hx
    obtain rfl : e' = e := Option.some.inj hx
    refine ⟨{ h.kernel with errno := e' }, ?_, .inl ⟨rfl, rfl⟩⟩
    simp only [connectLoop, hs]
    rfl
  | ok =>
    let opened : SyncHost := { h with kernel := { h.kernel with opened := h.kernel.opened + 1 } }
    cases hc : x.configureReason with
    | some e' =>
      rw [Candidate.reason, hs, hc] at hx
      obtain rfl : e' = e := Option.some.inj hx
      obtain ⟨k, hk, hopened, hclosed⟩ :=
        configureSocket_error opened h.kernel.opened hc
      refine ⟨k.closeSocketValue h.kernel.opened x.cleanup, ?_, .inr ⟨?_, ?_⟩⟩
      · simp only [connectLoop, hs, Kernel.socket]
        rw [hk]
        rfl
      · rw [Kernel.closeSocketValue_opened, hopened]
      · rw [Kernel.closeSocketValue_closed, hclosed]
    | none =>
      rw [Candidate.reason, hs, hc] at hx
      obtain ⟨k, hk, hopened, hclosed⟩ :=
        configureSocket_ok opened h.kernel.opened hc
      cases hn : x.connect with
      | ok =>
        rw [hn] at hx
        cases hx
      | error e' =>
        rw [hn] at hx
        obtain rfl : e' = e := Option.some.inj hx
        refine ⟨(k.answer (.error e')).closeSocketValue h.kernel.opened x.cleanup, ?_,
          .inr ⟨?_, ?_⟩⟩
        · simp only [connectLoop, hs, Kernel.socket]
          rw [hk, hn]
          rfl
        · rw [Kernel.closeSocketValue_opened, Kernel.answer_opened, hopened]
        · rw [Kernel.closeSocketValue_closed, Kernel.answer_closed, hclosed]

/-- The first entry without a failure leaves its descriptor in `m_socket`, and no error. -/
theorem connectLoop_ok (rest : List Candidate) (hx : x.reason = none) :
    ∃ k, h.connectLoop (x :: rest) =
        (true, { h with
          client := { h.client with mSocket := some h.kernel.opened }.clearLastError
          kernel := k }) ∧
      k.opened = h.kernel.opened + 1 ∧ k.closed = h.kernel.closed := by
  let opened : SyncHost := { h with kernel := { h.kernel with opened := h.kernel.opened + 1 } }
  cases hs : x.socket with
  | error e =>
    rw [Candidate.reason, hs] at hx
    cases hx
  | ok =>
    cases hc : x.configureReason with
    | some e =>
      rw [Candidate.reason, hs, hc] at hx
      cases hx
    | none =>
      rw [Candidate.reason, hs, hc] at hx
      obtain ⟨k, hk, hopened, hclosed⟩ :=
        configureSocket_ok opened h.kernel.opened hc
      cases hn : x.connect with
      | error e =>
        rw [hn] at hx
        cases hx
      | ok =>
        refine ⟨k, ?_, hopened, hclosed⟩
        simp only [connectLoop, hs, Kernel.socket]
        rw [hk, hn]
        rfl

end SyncHost

end ThreadComponent
