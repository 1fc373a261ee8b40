/-
# Client sockets pools

`Socket/src/ClientSocketsPool.cpp` and the parts of `Socket/src/ClientSocket.cpp` that it calls.  A
pool has a number of client sockets for each remote address, allocated when the address is first
asked for, and a vector of those that are free.  `getFreeClientSocket` takes the first one off the
vector and then sees to it that it is connected; `releaseClientSocket` puts a socket back.

A pool here is one between `init` and `finish`, the mutex is taken and released without a failure,
so that each call is one step, and memory is allocated.  A `SocketImpl` is numbered when it is
made: its number stands for the connection.  What the network does in a call is its input.
-/
import Mathlib.Data.List.Basic
import Mathlib.Logic.Function.Basic
import Mathlib.Data.Int.Basic

namespace CatraLibraries

/-! ### Client sockets -/

namespace ClientSocket

/-- `ClientSocketStatus_t`. -/
inductive Status
  | sckClientSocketBuilded | sckClientSocketInitialized
  deriving DecidableEq, Repr

/-- The answers of the network to one `init`. -/
structure Attempt where
  now : ℤ
  resolves : Bool
  creates : Bool
  binds : Bool
  setsNoDelay : Bool
  setsKeepAlive : Bool
  setsMaxSendBuffer : Bool
  setsMaxReceiveBuffer : Bool
  connects : Bool
  /-- the outcome of a `close`, in this `init` or before it -/
  closes : Bool
  deriving DecidableEq, Repr

/-- `setNoDelay`, `setKeepAlive`, `setMaxSendBuffer` and `setMaxReceiveBuffer` succeed. -/
def Attempt.SetsOptions (a : Attempt) : Prop :=
  a.setsNoDelay ∧ a.setsKeepAlive ∧ a.setsMaxSendBuffer ∧ a.setsMaxReceiveBuffer

instance (a : Attempt) : Decidable a.SetsOptions :=
  inferInstanceAs (Decidable (_ ∧ _ ∧ _ ∧ _))

end ClientSocket

/-- The members of a `ClientSocket` that the pool depends on. -/
structure ClientSocket where
  sClientSocketStatus : ClientSocket.Status
  bSocketImplCreated : Bool
  tConnectUTCStartTimeInSeconds : ℤ
  pSocketImpl : Option ℕ
  deriving DecidableEq, Repr

namespace ClientSocket

/-- The constructor. -/
def builded : ClientSocket where
  sClientSocketStatus := .sckClientSocketBuilded
  bSocketImplCreated := false
  tConnectUTCStartTimeInSeconds := 0
  pSocketImpl := none

/-- `finish`, and whether it returns `errNoError`. -/
def finish (closes : Bool) (c : ClientSocket) : Bool × ClientSocket :=
  if c.sClientSocketStatus ≠ .sckClientSocketInitialized then (false, c)
  else if c.bSocketImplCreated ∧ ¬closes then (false, c)
  else
    (true,
      { c with
        sClientSocketStatus := .sckClientSocketBuilded
        tConnectUTCStartTimeInSeconds := 0
        pSocketImpl := none })

/-- The socket with a new `SocketImpl`. -/
def make (socketImpl : ℕ) (bSocketImplCreated : Bool) : ClientSocket where
  sClientSocketStatus := .sckClientSocketInitialized
  bSocketImplCreated := bSocketImplCreated
  tConnectUTCStartTimeInSeconds := 0
  pSocketImpl := some socketImpl

/-- `init`, with the `SocketImpl` that it makes, and whether it returns `errNoError`. -/
def init (lRemotePort : ℤ) (a : Attempt) (socketImpl : ℕ) (c : ClientSocket) :
    Bool × ClientSocket :=
  if c.sClientSocketStatus ≠ .sckClientSocketBuilded then (false, c)
  else if lRemotePort < 1 then (false, c)
  else if ¬a.resolves then (false, c)
  else if ¬a.creates then (false, ((make socketImpl false).finish a.closes).2)
  else if ¬a.binds then (false, ((make socketImpl true).finish a.closes).2)
  -- four tests with one exit: `errBind` is returned, the error of a bind that succeeded
  else if ¬a.SetsOptions then (true, ((make socketImpl true).finish a.closes).2)
  else if ¬a.connects then (false, ((make socketImpl true).finish a.closes).2)
  else (true, { make socketImpl true with tConnectUTCStartTimeInSeconds := a.now })

/-- `reinit`. -/
def reinit (lRemotePort : ℤ) (a : Attempt) (socketImpl : ℕ) (c : ClientSocket) :
    Bool × ClientSocket :=
  let (finished, c) := c.finish a.closes
  if ¬finished then (false, c) else c.init lRemotePort a socketImpl

end ClientSocket

/-! ### The pool -/

namespace ClientSocketsPool

/-- A pointer to one of the sockets of an address. -/
structure Pointer where
  remoteIPAddress : List Char
  lClientSocketIndex : ℕ
  deriving DecidableEq, Repr

/-- The errors that the methods return. -/
inductive PoolError
  | noClientSocketAvailable (remoteIPAddress : List Char)
  | clientSocketTypeNotFound (remoteIPAddress : List Char)
  | clientSocketInitFailed
  | clientSocketReinitFailed
  | clientSocketFinishFailed
  | getSocketImplFailed
  | isReadyForWritingFailed
  | getFreeClientSocketFailed
  | releaseClientSocketFailed
  deriving DecidableEq, Repr

/-- The answers of the network to one `getFreeClientSocket`; `isReadyForWriting` is `none` where it
fails. -/
structure Attempts where
  now : ℤ
  connects : ClientSocket.Attempt
  getsSocketImpl : Bool
  isReadyForWriting : Option Bool
  reconnects : ClientSocket.Attempt
  deriving DecidableEq, Repr

/-- An initialized pool; `socketImpls` is the number of `SocketImpl` objects made so far. -/
structure Pool where
  lRemotePort : ℤ
  ulClientSocketsToBeAllocatedPerType : ℕ
  lTTLInSeconds : ℤ
  phmClientSocketsInfo : List Char → Option (List Pointer)
  clientSockets : Pointer → ClientSocket
  socketImpls : ℕ

/-- The pool after `init`. -/
def initial (lRemotePort : ℤ) (ulClientSocketsToBeAllocatedPerType : ℕ) (lTTLInSeconds : ℤ) :
    Pool where
  lRemotePort := lRemotePort
  ulClientSocketsToBeAllocatedPerType := ulClientSocketsToBeAllocatedPerType
  lTTLInSeconds := lTTLInSeconds
  phmClientSocketsInfo _ := none
  clientSockets _ := .builded
  socketImpls := 0

namespace Pool

/-- The vector of the free sockets of an address. -/
def setFree (p : Pool) (address : List Char) (vFreeClientSockets : List Pointer) : Pool :=
  { p with
    phmClientSocketsInfo :=
      Function.update p.phmClientSocketsInfo address (some vFreeClientSockets) }

/-- The sockets of a new address, all of them free. -/
def newSockets (p : Pool) (address : List Char) : List Pointer :=
  (List.range p.ulClientSocketsToBeAllocatedPerType).map (Pointer.mk address)

/-- The free sockets that `getFreeClientSocket` finds; an address that is not in the map is
added. -/
def freeSockets (p : Pool) (address : List Char) : List Pointer :=
  (p.phmClientSocketsInfo address).getD (p.newSockets address)

/-- The time to live of a connection is over. -/
def Expired (p : Pool) (now : ℤ) (c : ClientSocket) : Prop :=
  p.lTTLInSeconds ≠ -1 ∧ p.lTTLInSeconds ≤ now - c.tConnectUTCStartTimeInSeconds

instance (p : Pool) (now : ℤ) (c : ClientSocket) : Decidable (p.Expired now c) :=
  inferInstanceAs (Decidable (_ ∧ _))

/-- The last part of `getFreeClientSocket`: a socket that is not ready for writing is connected
again.  `none` is the use of a `SocketImpl` that is not there. -/
def checkWriting (p : Pool) (a : Attempts) (socketImpl : ℕ) (c : ClientSocket) :
    Option (Except PoolError Unit × ClientSocket) :=
  if ¬a.getsSocketImpl then some (.error .getSocketImplFailed, c)
  else if c.pSocketImpl = none then none
  else
    match a.isReadyForWriting with
    | none => some (.error .isReadyForWritingFailed, c)
    | some true => some (.ok (), c)
    | some false =>
      let (ok, c) := c.reinit p.lRemotePort a.reconnects socketImpl
      some (if ok then .ok () else .error .clientSocketReinitFailed, c)

/-- `getFreeClientSocket` with a socket that is off the vector. -/
def connect (p : Pool) (a : Attempts) (c : ClientSocket) :
    Option (Except PoolError Unit × ClientSocket) :=
  if c.sClientSocketStatus = .sckClientSocketBuilded then
    let (ok, c) := c.init p.lRemotePort a.connects p.socketImpls
    some (if ok then .ok () else .error .clientSocketInitFailed, c)
  else if p.Expired a.now c then
    let (ok, c) := c.reinit p.lRemotePort a.connects p.socketImpls
    if ¬ok then some (.error .clientSocketReinitFailed, c)
    else p.checkWriting a (p.socketImpls + 1) c
  else p.checkWriting a (p.socketImpls + 1) c

/-- `getFreeClientSocket (pbRemoteIPAddress, pcsClientSocket)`. -/
def getFreeClientSocket (p : Pool) (address : List Char) (a : Attempts) :
    Option (Except PoolError Pointer × Pool) :=
  match p.freeSockets address with
  | [] => some (.error (.noClientSocketAvailable address), p.setFree address [])
  | pcsClientSocket :: vFreeClientSockets => do
    let (r, c) ← p.connect a (p.clientSockets pcsClientSocket)
    return (r.map fun _ => pcsClientSocket,
      { p.setFree address vFreeClientSockets with
        clientSockets := Function.update p.clientSockets pcsClientSocket c
        socketImpls := p.socketImpls + 2 })

/-- `releaseClientSocket (pbRemoteIPAddress, pcsClientSocket, bSocketToBeClosed)`. -/
def releaseClientSocket (p : Pool) (address : List Char) (pcsClientSocket : Pointer)
    (bSocketToBeClosed closes : Bool) : Except PoolError Unit × Pool :=
  match p.phmClientSocketsInfo address with
  | none => (.error (.clientSocketTypeNotFound address), p)
  | some vFreeClientSockets =>
    if bSocketToBeClosed then
      let (finished, c) := (p.clientSockets pcsClientSocket).finish closes
      let p := { p with clientSockets := Function.update p.clientSockets pcsClientSocket c }
      if ¬finished then (.error .clientSocketFinishFailed, p)
      else (.ok (), p.setFree address (pcsClientSocket :: vFreeClientSockets))
    else (.ok (), p.setFree address (pcsClientSocket :: vFreeClientSockets))

end Pool

/-! ### The overloads -/

/-- The type of the parameter for the address. -/
inductive Overload
  | buffer | charPointer
  deriving DecidableEq, Repr

namespace Pool

/-- `getFreeClientSocket`; with a `const char *` the errors are all one. -/
def get (p : Pool) (overload : Overload) (address : List Char) (a : Attempts) :
    Option (Except PoolError Pointer × Pool) :=
  match overload with
  | .buffer => p.getFreeClientSocket address a
  | .charPointer => do
    let (r, p) ← p.getFreeClientSocket address a
    return (r.mapError fun _ => .getFreeClientSocketFailed, p)

/-- `releaseClientSocket`; with a `const char *` the last argument is not handed on, and its
default is `false`. -/
def release (p : Pool) (overload : Overload) (address : List Char) (pcsClientSocket : Pointer)
    (bSocketToBeClosed closes : Bool) : Except PoolError Unit × Pool :=
  match overload with
  | .buffer => p.releaseClientSocket address pcsClientSocket bSocketToBeClosed closes
  | .charPointer =>
    let (r, p) := p.releaseClientSocket address pcsClientSocket false closes
    (r.mapError fun _ => .releaseClientSocketFailed, p)

end Pool

end ClientSocketsPool

end CatraLibraries
