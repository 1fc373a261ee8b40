/-
# The traffic of connections

`Session.cpp`, from `acceptConnection` to `releaseConnection`, over `addSocket` and `deleteSocket`
of `Socket/src/SocketsPool.cpp`; `updateSocketStatus` of `CMSocketsPool.cpp`; and the handlers of
`CMProcessor.cpp` that accept connections, read and answer requests, and look for unused
connections.

A method under the mutex of a session, of the sockets pool or of the free sessions is one atomic
operation, and the functions are programs over these.  Any number of threads run them.  What
comes of a read, of a write, of `::accept` and `::close` and of processing a request is a choice,
and so are the clocks and which event, socket or free session comes first.  Mutexes, the signal
of `addEvent` and the hash maps work.

Every connection has a number, which the code does not know: a session has that of the
connection its descriptor belongs to, and what is copied of a session, for an event or for a
proxy thread, has the one of the session at that moment.
-/
import CatraLibraries.Lib.Phases

namespace CatraLibraries

open Threads

/-- `Session::ConnectionInformation`, as an event has it; the session is the one of this
identifier. -/
structure ConnectionInformation where
  psSession : Nat
  tUTCStartConnectionTime : Nat
  /-- The connection that the session had. -/
  connection : Option Nat
  deriving DecidableEq, Repr

/-- The members of a session, with those of its client socket. -/
structure SessionMembers where
  tUTCStartConnectionTime : Nat
  tUTCLastRead : Nat
  iFd : Int
  bSocketImplCreated : Bool
  /-- The connection that the descriptor belongs to. -/
  connection : Option Nat
  deriving DecidableEq, Repr

namespace SessionMembers

/-- A session after `init`. -/
def built : SessionMembers := ⟨0, 0, -1, false, none⟩

/-- `finish` and `init` of the client socket; `none` is an error of `finish`. -/
def closeSocket (closeWorks : Bool) (m : SessionMembers) : Option SessionMembers :=
  -- `::close` of -1 is an error
  if m.bSocketImplCreated ∧ (m.iFd = -1 ∨ closeWorks = false) then none
  else some { m with iFd := -1, bSocketImplCreated := false, connection := none }

/-- `reset`. -/
def reset (m : SessionMembers) : SessionMembers :=
  { m with tUTCStartConnectionTime := 0, tUTCLastRead := 0 }

end SessionMembers

/-- What the threads of the connections manager share. -/
structure ConnectionsManager where
  psSessions : Nat → SessionMembers
  phmFreeSessions : List Nat
  /-- `_psiSocketsInfoSetByFileDescriptor` of the sockets pool: the session of each descriptor. -/
  socketsInfo : List (Int × Nat)
  ulMaxSocketsNumber : Nat
  /-- The events of type `CM_EVENT_CONNECTIONREADYTOREAD` in the events set. -/
  events : List ConnectionInformation
  /-- The proxy threads that have been started and do not run yet. -/
  httpProxyThreads : List ConnectionInformation
  /-- The open descriptors. -/
  openFds : List Int
  /-- The number of the next connection. -/
  nextConnection : Nat

/-- What can come of `readHttpHeaderAndBody`. -/
inductive RequestRead
  | complete | eofReached | headerTimeoutExpired | bodyTimeoutExpired | fails
  deriving DecidableEq

/-- What can come of `::accept`, and of what `acceptConnection` does with the new socket. -/
inductive Accepting
  | nothing | fails | setupFails | works
  deriving DecidableEq

/-- The choices of the environment for one operation. -/
structure ConnectionChoice where
  works : Bool
  addEventWorks : Bool
  number : Nat
  /-- `time (NULL)`. -/
  time : Nat
  time_pos : 0 < time
  accepting : Accepting
  /-- The descriptor of a new connection. -/
  iFd : Int
  iFd_nonneg : 0 ≤ iFd
  requestRead : RequestRead

/-- What `readRequest` returns. -/
inductive ReadError
  | errNoError | eofReached | headerTimeoutExpired | requestNotReadBecauseOldSocket | failed
  deriving DecidableEq

/-- What `releaseConnection` returns. -/
inductive ReleaseError
  | errNoError | deleteSocketFailed | socketFailed
  deriving DecidableEq

/-- What comes of accepting a connection in the loop: the session, where there is one. -/
inductive AcceptResult
  | failed | notConnectionToAccept | accepted (ulConnectionIdentifier : Nat)
  deriving DecidableEq

namespace ConnectionsManager

/-- The members of a session become these. -/
def setSession (ulConnectionIdentifier : Nat) (m : SessionMembers) (s : ConnectionsManager) :
    ConnectionsManager :=
  { s with psSessions := Function.update s.psSessions ulConnectionIdentifier m }

/-- `_ciConnectionInformation` of a session. -/
def information (ulConnectionIdentifier : Nat) (s : ConnectionsManager) : ConnectionInformation :=
  ⟨ulConnectionIdentifier, (s.psSessions ulConnectionIdentifier).tUTCStartConnectionTime,
    (s.psSessions ulConnectionIdentifier).connection⟩

/-- The descriptors in the sockets pool. -/
def pooledFds (s : ConnectionsManager) : List Int := s.socketsInfo.map Prod.fst

/-- `addSocket` with the socket of a session. -/
def addSocket (ulConnectionIdentifier : Nat) (s : ConnectionsManager) : Bool × ConnectionsManager :=
  let iFd := (s.psSessions ulConnectionIdentifier).iFd
  if iFd ∈ s.pooledFds then (false, s)
  else if s.socketsInfo.length ≥ s.ulMaxSocketsNumber then (false, s)
  else (true, { s with socketsInfo := s.socketsInfo ++ [(iFd, ulConnectionIdentifier)] })

/-- `deleteSocket` with the socket of a session. -/
def deleteSocket (ulConnectionIdentifier : Nat) (s : ConnectionsManager) :
    Bool × ConnectionsManager :=
  let iFd := (s.psSessions ulConnectionIdentifier).iFd
  if iFd ∈ s.pooledFds then
    (true, { s with socketsInfo := s.socketsInfo.filter (·.1 ≠ iFd) })
  else (false, s)

/-! ### The methods of a session -/

/-- The new connection of a session, at this time and with this descriptor. -/
def connect (ulConnectionIdentifier tUTCTime : Nat) (iFd : Int) (s : ConnectionsManager) :
    ConnectionsManager :=
  { s.setSession ulConnectionIdentifier
      ⟨tUTCTime, tUTCTime, iFd, true, some s.nextConnection⟩ with
    openFds := iFd :: s.openFds
    nextConnection := s.nextConnection + 1 }

/-- The socket of a session is closed, if that works; the result is whether it does. -/
def closeSocket (ulConnectionIdentifier : Nat) (closeWorks : Bool) (s : ConnectionsManager) :
    Bool × ConnectionsManager :=
  match (s.psSessions ulConnectionIdentifier).closeSocket closeWorks with
  | none => (false, s)
  | some m =>
    (true, { s.setSession ulConnectionIdentifier m with
      openFds := s.openFds.filter (· ≠ (s.psSessions ulConnectionIdentifier).iFd) })

/-- `reset`. -/
def reset (ulConnectionIdentifier : Nat) (s : ConnectionsManager) : ConnectionsManager :=
  s.setSession ulConnectionIdentifier (s.psSessions ulConnectionIdentifier).reset

/-- `::accept` has failed, and its -1 is the descriptor. -/
def noConnection (ulConnectionIdentifier : Nat) (s : ConnectionsManager) : ConnectionsManager :=
  s.setSession ulConnectionIdentifier
    { s.psSessions ulConnectionIdentifier with iFd := -1, connection := none }

/-- `acceptConnection`; a descriptor that is open is none that `::accept` can return. -/
def acceptConnection (ulConnectionIdentifier : Nat) (c : ConnectionChoice)
    (s : ConnectionsManager) : AcceptResult × ConnectionsManager :=
  match c.accepting with
  | .nothing => (.notConnectionToAccept, s.noConnection ulConnectionIdentifier)
  | .fails => (.failed, s.noConnection ulConnectionIdentifier)
  | .setupFails =>
    if c.iFd ∈ s.openFds then (.failed, s.noConnection ulConnectionIdentifier)
    else
      let s := s.connect ulConnectionIdentifier c.time c.iFd
      -- what `finish` and `init` of the socket return is not looked at
      let (_, s) := s.closeSocket ulConnectionIdentifier c.works
      (.failed, s.reset ulConnectionIdentifier)
  | .works =>
    if c.iFd ∈ s.openFds then (.failed, s.noConnection ulConnectionIdentifier)
    else (.accepted ulConnectionIdentifier, s.connect ulConnectionIdentifier c.time c.iFd)

/-- `releaseConnection`. -/
def releaseConnection (ulConnectionIdentifier : Nat) (bDeleteFromSocketsPool closeWorks : Bool)
    (s : ConnectionsManager) : ReleaseError × ConnectionsManager :=
  let (deleted, s) :=
    if bDeleteFromSocketsPool then s.deleteSocket ulConnectionIdentifier else (true, s)
  if !deleted then (.deleteSocketFailed, s)
  else
    match s.closeSocket ulConnectionIdentifier closeWorks with
    | (false, s) => (.socketFailed, s)
    | (true, s) => (.errNoError, s.reset ulConnectionIdentifier)

/-- `isOlderThan`: whether the session is free, and whether it is old. -/
def isOlderThan (ulConnectionIdentifier tNowInSeconds ulMaxTTLSession : Nat)
    (s : ConnectionsManager) : Bool × Bool :=
  let m := s.psSessions ulConnectionIdentifier
  if m.tUTCStartConnectionTime ≠ 0 then
    (false, decide ((tNowInSeconds : Int) - m.tUTCLastRead ≥ ulMaxTTLSession))
  else (true, false)

/-- The session still has the connection that the information is of, by its start time. -/
def IsCurrent (ci : ConnectionInformation) (s : ConnectionsManager) : Prop :=
  ci.tUTCStartConnectionTime = (s.psSessions ci.psSession).tUTCStartConnectionTime

instance (ci : ConnectionInformation) (s : ConnectionsManager) : Decidable (s.IsCurrent ci) :=
  inferInstanceAs (Decidable (_ = _))

/-- The end of `readRequest` when there is something read. -/
def setLastRead (ulConnectionIdentifier tUTCTime : Nat) (s : ConnectionsManager) :
    ConnectionsManager :=
  s.setSession ulConnectionIdentifier
    { s.psSessions ulConnectionIdentifier with tUTCLastRead := tUTCTime }

/-- `readRequest`. -/
def readRequest (ci : ConnectionInformation) (c : ConnectionChoice) (s : ConnectionsManager) :
    ReadError × ConnectionsManager :=
  if ¬ s.IsCurrent ci then (.requestNotReadBecauseOldSocket, s)
  else
    match c.requestRead with
    | .complete => (.errNoError, s.setLastRead ci.psSession c.time)
    | .eofReached => (.eofReached, s)
    | .headerTimeoutExpired =>
      match s.addSocket ci.psSession with
      | (false, s) => (.failed, s)
      | (true, s) => (.headerTimeoutExpired, s)
    | .bodyTimeoutExpired =>
      match s.addSocket ci.psSession with
      | (false, s) => (.failed, s)
      | (true, s) => (.errNoError, s.setLastRead ci.psSession c.time)
    | .fails => (.failed, s)

/-- `writeResponse`, with the first error of the two writes as a choice. -/
def writeResponse (ci : ConnectionInformation) (bIsResponseFinished writeWorks : Bool)
    (s : ConnectionsManager) : Bool × ConnectionsManager :=
  if ¬ s.IsCurrent ci then (false, s)
  else if !writeWorks then (false, s)
  else if bIsResponseFinished then s.addSocket ci.psSession
  else (true, s)

/-! ### The free sessions, the events and the proxy threads -/

/-- The free session that comes first. -/
def nextFree (number : Nat) (s : ConnectionsManager) : Option Nat :=
  s.phmFreeSessions[number % s.phmFreeSessions.length]?

/-- The accepting in the loop of `handleConnectionToAcceptEvent`, under the mutex of the free
sessions. -/
def accept (c : ConnectionChoice) (s : ConnectionsManager) : AcceptResult × ConnectionsManager :=
  match s.nextFree c.number with
  | none => (.failed, s)
  | some pssSession =>
    match s.acceptConnection pssSession c with
    | (.accepted _, s) =>
      (.accepted pssSession, { s with phmFreeSessions := s.phmFreeSessions.filter (· ≠ pssSession) })
    | (err, s) => (err, s)

/-- A session is put back in the free sessions; the check of unused connections resets one that
is there already. -/
def insertFreeSession (ulConnectionIdentifier : Nat) (bReset : Bool) (s : ConnectionsManager) :
    ConnectionsManager :=
  if ulConnectionIdentifier ∈ s.phmFreeSessions then
    if bReset then s.reset ulConnectionIdentifier else s
  else { s with phmFreeSessions := s.phmFreeSessions ++ [ulConnectionIdentifier] }

/-- `updateSocketStatus` for one of the sockets in the pool. -/
def updateSocketStatus (c : ConnectionChoice) (s : ConnectionsManager) : ConnectionsManager :=
  match s.socketsInfo[c.number]? with
  | none => s
  | some (_, ulConnectionIdentifier) =>
    -- the checks of the socket, and the event with its `init`
    if !c.works then s
    else
      let pevConnection := s.information ulConnectionIdentifier
      match s.deleteSocket ulConnectionIdentifier with
      | (false, s) => s
      | (true, s) =>
        if c.addEventWorks then { s with events := s.events ++ [pevConnection] }
        else (s.addSocket ulConnectionIdentifier).2

/-- `getAndRemoveFirstEvent` of a processor that gets an event of a connection. -/
def takeEvent (number : Nat) (s : ConnectionsManager) :
    Option ConnectionInformation × ConnectionsManager :=
  match s.events[number]? with
  | none => (none, s)
  | some ci => (some ci, { s with events := s.events.eraseIdx number })

/-- `manageHTTPProxyRequest` starts a proxy thread. -/
def startProxy (ci : ConnectionInformation) (s : ConnectionsManager) : ConnectionsManager :=
  { s with httpProxyThreads := s.httpProxyThreads ++ [ci] }

/-- One of the proxy threads that have been started begins to run. -/
def takeProxy (number : Nat) (s : ConnectionsManager) :
    Option ConnectionInformation × ConnectionsManager :=
  match s.httpProxyThreads[number]? with
  | none => (none, s)
  | some ci => (some ci, { s with httpProxyThreads := s.httpProxyThreads.eraseIdx number })

end ConnectionsManager

/-! ### The operations of the threads -/

/-- The atomic operations; `outcome` and `number` stand for what a function does besides, and
`endHandling` for the end of a handler that has kept its session. -/
inductive ConnectionOp
  | accept
  | initEvent (ulConnectionIdentifier : Nat)
  | takeEvent
  | takeProxy
  | readRequest (ci : ConnectionInformation)
  | writeResponse (ci : ConnectionInformation) (bIsResponseFinished : Bool)
  | startProxy (ci : ConnectionInformation)
  | releaseConnection (ulConnectionIdentifier : Nat) (bDeleteFromSocketsPool : Bool)
  | insertFreeSession (ulConnectionIdentifier : Nat) (bReset : Bool)
  | isOlderThan (ulConnectionIdentifier tNowInSeconds ulMaxTTLSession : Nat)
  | updateSocketStatus
  | endHandling
  | time
  | outcome
  | number

/-- The results. -/
def ConnectionOp.Result : ConnectionOp → Type
  | .accept => AcceptResult
  | .initEvent _ | .takeEvent | .takeProxy => Option ConnectionInformation
  | .readRequest _ => ReadError
  | .releaseConnection _ _ => ReleaseError
  | .isOlderThan _ _ _ => Bool × Bool
  | .writeResponse _ _ | .outcome => Bool
  | .time | .number => Nat
  | _ => Unit

open ConnectionsManager in
/-- One operation. -/
def ConnectionOp.exec (op : ConnectionOp) (c : ConnectionChoice) (s : ConnectionsManager) :
    op.Result × ConnectionsManager :=
  match op with
  | .accept => s.accept c
  | .initEvent ulConnectionIdentifier =>
    (if c.works then some (s.information ulConnectionIdentifier) else none, s)
  | .takeEvent => s.takeEvent c.number
  | .takeProxy => s.takeProxy c.number
  | .readRequest ci => s.readRequest ci c
  | .writeResponse ci bIsResponseFinished => s.writeResponse ci bIsResponseFinished c.works
  | .startProxy ci => ((), s.startProxy ci)
  | .releaseConnection ulConnectionIdentifier bDeleteFromSocketsPool =>
    s.releaseConnection ulConnectionIdentifier bDeleteFromSocketsPool c.works
  | .insertFreeSession ulConnectionIdentifier bReset =>
    ((), s.insertFreeSession ulConnectionIdentifier bReset)
  | .isOlderThan ulConnectionIdentifier tNowInSeconds ulMaxTTLSession =>
    (s.isOlderThan ulConnectionIdentifier tNowInSeconds ulMaxTTLSession, s)
  | .updateSocketStatus => ((), s.updateSocketStatus c)
  | .endHandling => ((), s)
  | .time => (c.time, s)
  | .outcome => (c.works, s)
  | .number => (c.number, s)

/-! ### The programs -/

/-- Programs over these operations. -/
abbrev ConnectionProg (α : Type) := Prog ConnectionOp ConnectionOp.Result α

namespace ConnectionProg

def accept : ConnectionProg AcceptResult := Prog.lift ConnectionOp.accept

def initEvent (ulConnectionIdentifier : Nat) : ConnectionProg (Option ConnectionInformation) :=
  Prog.lift (ConnectionOp.initEvent ulConnectionIdentifier)

def takeEvent : ConnectionProg (Option ConnectionInformation) := Prog.lift ConnectionOp.takeEvent

def takeProxy : ConnectionProg (Option ConnectionInformation) := Prog.lift ConnectionOp.takeProxy

def readRequest (ci : ConnectionInformation) : ConnectionProg ReadError :=
  Prog.lift (ConnectionOp.readRequest ci)

def writeResponse (ci : ConnectionInformation) (bIsResponseFinished : Bool) :
    ConnectionProg Bool := Prog.lift (ConnectionOp.writeResponse ci bIsResponseFinished)

def startProxy (ci : ConnectionInformation) : ConnectionProg Unit :=
  Prog.lift (ConnectionOp.startProxy ci)

def releaseConnection (ulConnectionIdentifier : Nat) (bDeleteFromSocketsPool : Bool) :
    ConnectionProg ReleaseError :=
  Prog.lift (ConnectionOp.releaseConnection ulConnectionIdentifier bDeleteFromSocketsPool)

def insertFreeSession (ulConnectionIdentifier : Nat) (bReset : Bool) : ConnectionProg Unit :=
  Prog.lift (ConnectionOp.insertFreeSession ulConnectionIdentifier bReset)

def isOlderThan (ulConnectionIdentifier tNowInSeconds ulMaxTTLSession : Nat) :
    ConnectionProg (Bool × Bool) :=
  Prog.lift (ConnectionOp.isOlderThan ulConnectionIdentifier tNowInSeconds ulMaxTTLSession)

def updateSocketStatus : ConnectionProg Unit := Prog.lift ConnectionOp.updateSocketStatus

def endHandling : ConnectionProg Unit := Prog.lift ConnectionOp.endHandling

def time : ConnectionProg Nat := Prog.lift ConnectionOp.time

def outcome : ConnectionProg Bool := Prog.lift ConnectionOp.outcome

def number : ConnectionProg Nat := Prog.lift ConnectionOp.number

/-- The common end of the branches that give a session back; the error of `releaseConnection` is
not looked at. -/
def giveBack (ulConnectionIdentifier : Nat) (bDeleteFromSocketsPool : Bool) :
    ConnectionProg Unit := do
  let _ ← releaseConnection ulConnectionIdentifier bDeleteFromSocketsPool
  insertFreeSession ulConnectionIdentifier false

/-- The responses that are written for a request, as many as this, finished or not. -/
def writeResponses (ci : ConnectionInformation) : Nat → ConnectionProg Unit
  | 0 => return ()
  | n + 1 => do
    let _ ← writeResponse ci (← outcome)
    writeResponses ci n

/-- The end of `handleConnectionReadyToReadEvent` after an error, for what
`bSocketToBeClosedInCaseOfError` is. -/
def afterError (ci : ConnectionInformation) : ConnectionProg Bool := do
  if ← outcome then
    giveBack ci.psSession true
    return false
  else
    endHandling
    return true

/-- `handleConnectionReadyToReadEvent` from `processReceivedRequest` on, whose responses and
error are arbitrary. -/
def processReceivedRequest (ci : ConnectionInformation) : ConnectionProg Bool := do
  writeResponses ci (← number)
  if ← outcome then
    endHandling
    return true
  else afterError ci

/-- `handleConnectionReadyToReadEvent` from `manageHTTPProxyRequest` on. -/
def manageHTTPProxyRequest (ci : ConnectionInformation) : ConnectionProg Bool := do
  -- the request may not be one to be proxied
  if ← outcome then processReceivedRequest ci
  else if ← outcome then
    startProxy ci
    endHandling
    return true
  else
    -- `sendErrorToHTTPClient`, which may fail before it writes
    if ← outcome then
      let _ ← writeResponse ci true
      afterError ci
    else afterError ci

/-- `handleConnectionReadyToReadEvent`; the result is whether there was no error. -/
def handleConnectionReadyToReadEvent (bIsHTTPProxyEnabled : Bool) (ci : ConnectionInformation) :
    ConnectionProg Bool := do
  match ← readRequest ci with
  | .eofReached =>
    giveBack ci.psSession false
    return true
  | .headerTimeoutExpired =>
    endHandling
    return true
  | .requestNotReadBecauseOldSocket =>
    endHandling
    return false
  | .failed =>
    giveBack ci.psSession false
    return false
  | .errNoError =>
    if bIsHTTPProxyEnabled then manageHTTPProxyRequest ci else processReceivedRequest ci

/-- The loop of `handleConnectionToAcceptEvent`, for as many connections as it may still
accept. -/
def acceptLoop (bIsHTTPProxyEnabled : Bool) : Nat → ConnectionProg Bool
  | 0 => return true
  | n + 1 => do
    if ← outcome then
      match ← accept with
      | .failed => return false
      | .notConnectionToAccept => return true
      | .accepted ulConnectionIdentifier =>
        match ← initEvent ulConnectionIdentifier with
        | none =>
          giveBack ulConnectionIdentifier false
          return false
        | some ci =>
          if ← handleConnectionReadyToReadEvent bIsHTTPProxyEnabled ci then
            -- the event is finished, and too much time ends the loop
            if ← outcome then
              if ← outcome then acceptLoop bIsHTTPProxyEnabled n else return true
            else return false
          else return false
    else return false

/-- The loop of `handleCheckUnusedSocketsEvent` over the sessions. -/
def checkUnusedSockets (tNowInSeconds ulMaxTTLSession : Nat) : List Nat → ConnectionProg Bool
  | [] => return true
  | ulConnectionIdentifier :: rest => do
    let (bIsFreeSession, bIsOld) ← isOlderThan ulConnectionIdentifier tNowInSeconds ulMaxTTLSession
    if bIsFreeSession then checkUnusedSockets tNowInSeconds ulMaxTTLSession rest
    else if bIsOld then
      match ← releaseConnection ulConnectionIdentifier true with
      | .socketFailed => return false
      | _ =>
        insertFreeSession ulConnectionIdentifier true
        checkUnusedSockets tNowInSeconds ulMaxTTLSession rest
    else checkUnusedSockets tNowInSeconds ulMaxTTLSession rest

/-- The loop of `checkSocketsStatus` over the sockets to be updated. -/
def updateSockets : Nat → ConnectionProg Unit
  | 0 => return ()
  | n + 1 => do
    updateSocketStatus
    updateSockets n

end ConnectionProg

/-- What a thread may do: handle one of the events, check the sockets in the pool, or run a proxy
thread. -/
inductive ConnectionTask
  | connectionToAccept
  | connectionReadyToRead
  | checkUnusedSockets
  | checkSocketsPool
  | httpProxyThread

/-- What the processors are configured with. -/
structure ProcessorConfiguration where
  ulMaxConnections : Nat
  ulMaxConnectionTTLInSeconds : Nat
  ulMaxSimultaneousConnectionsToAccept : Nat
  bIsHTTPProxyEnabled : Bool
  ulMaxSocketsNumber : Nat

open ConnectionProg in
/-- The programs. -/
def ConnectionTask.body (cfg : ProcessorConfiguration) : ConnectionTask → ConnectionProg Unit
  | .connectionToAccept => do
    let _ ← acceptLoop cfg.bIsHTTPProxyEnabled cfg.ulMaxSimultaneousConnectionsToAccept
  | .connectionReadyToRead => do
    match ← takeEvent with
    | none => return ()
    | some ci =>
      let _ ← handleConnectionReadyToReadEvent cfg.bIsHTTPProxyEnabled ci
  | .checkUnusedSockets => do
    let _ ← ConnectionProg.checkUnusedSockets (← time) cfg.ulMaxConnectionTTLInSeconds
      (List.range cfg.ulMaxConnections)
  | .checkSocketsPool => do
    updateSockets (← number)
  | .httpProxyThread => do
    match ← takeProxy with
    | none => return ()
    | some ci =>
      writeResponses ci (← number)
      endHandling

/-- The connections manager after `init`: all sessions are free. -/
def ConnectionsManager.initial (cfg : ProcessorConfiguration) : ConnectionsManager where
  psSessions := fun _ => .built
  phmFreeSessions := List.range cfg.ulMaxConnections
  socketsInfo := []
  ulMaxSocketsNumber := cfg.ulMaxSocketsNumber
  events := []
  httpProxyThreads := []
  openFds := []
  nextConnection := 0

end CatraLibraries
