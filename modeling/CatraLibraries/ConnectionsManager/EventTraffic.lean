/-
# The event traffic of the connections manager

`CMEventsSet.cpp` over `EventsSet.cpp` (free events, their allocation and release), with the
producers and consumers of events: `handleTimeOut` of the three `…Times.cpp`,
`updateSocketStatus` of `CMSocketsPool.cpp`, and `processEvent` with its handlers in
`CMProcessor.cpp`.

The functions are programs over the methods of the events set and of the events, which are
atomic; what else they do is an outcome.  Any number of threads run them: the timers, and the
processors, each of which takes an event and processes it.  Event objects live at addresses.
A call of `addEvent` whose signal fails reports an error, although the event is in the set.

The mutexes work, and an outcome is arbitrary: of the handlers, of the memory for events, of
`init` and `finish`, and of the signal.
-/
import CatraLibraries.EventsSet.EventsSet
import CatraLibraries.Lib.Threads

namespace CatraLibraries

open Threads

/-- `CMEventsSet::EventType`. -/
inductive EventType
  | connectionToAccept | checkUnusedSockets | checkSocketsPool | connection
  deriving DecidableEq, Repr

namespace EventType

/-- The value of the enumeration, an index of `_petiEventTypeInfo`. -/
def index : EventType → Nat
  | connectionToAccept => 0
  | checkUnusedSockets => 1
  | checkSocketsPool => 2
  | connection => 3

/-- `CM_EVENTTYPENUMBER`. -/
def number : Nat := 4

/-- `CM_EVENT_CONNECTIONTOACCEPT`, `CM_EVENT_CHECKUNUSEDSOCKETS`, `CM_EVENT_CHECKSOCKETSPOOL`
and `CM_EVENT_CONNECTIONREADYTOREAD`. -/
def lTypeIdentifier : EventType → Nat
  | connectionToAccept => 0
  | checkUnusedSockets => 3
  | checkSocketsPool => 2
  | connection => 1

/-- How many events are allocated at a time. -/
def newEvents : EventType → Nat
  | checkUnusedSockets => 5
  | _ => 20

/-- From how many allocated events on no more are allocated, where there is such a bound. -/
def maximumEvents : EventType → Option Nat
  | connectionToAccept => some (20 * 1 + 1)
  | checkUnusedSockets => some (5 * 1 + 1)
  | checkSocketsPool => some (20 * 1)
  | connection => none

end EventType

/-- The members of an event object. -/
structure EventObject where
  esEventStatus : EventStatus
  lTypeIdentifier : Nat
  bDestination : String
  ullExpirationLocalDateTimeInMilliSecs : Nat
  deriving DecidableEq, Repr

/-- The members of the class, and the event objects it allocates. -/
structure CMEventsSet where
  eventsSet : EventsSet
  ulNumberOfDifferentEventTypeToManage : Nat
  vFreeEvents : EventType → List Nat
  ulPreAllocatedEventsNumber : EventType → Nat
  /-- The addresses in the arrays of `_vPointersToAllocatedEvents`. -/
  allocatedEvents : EventType → List Nat
  objects : Nat → EventObject
  /-- The first address that has not been allocated. -/
  nextAddress : Nat

namespace CMEventsSet

/-- `allocateMoreFreeUserEvents`; `new` may fail. -/
def allocateMoreFreeUserEvents (ulEventTypeIndex : EventType) (newWorks : Bool) (s : CMEventsSet) :
    Option CMEventsSet :=
  if ulEventTypeIndex.maximumEvents.any (s.ulPreAllocatedEventsNumber ulEventTypeIndex ≥ ·) then
    none
  else if !newWorks then none
  else
    let pevEvents := List.range' s.nextAddress ulEventTypeIndex.newEvents
    some { s with
      ulPreAllocatedEventsNumber := Function.update s.ulPreAllocatedEventsNumber ulEventTypeIndex
        (s.ulPreAllocatedEventsNumber ulEventTypeIndex + ulEventTypeIndex.newEvents)
      vFreeEvents := Function.update s.vFreeEvents ulEventTypeIndex
        (s.vFreeEvents ulEventTypeIndex ++ pevEvents)
      allocatedEvents := Function.update s.allocatedEvents ulEventTypeIndex
        (s.allocatedEvents ulEventTypeIndex ++ pevEvents)
      nextAddress := s.nextAddress + ulEventTypeIndex.newEvents }

/-- The end of `getFreeEvent`: the first free event is taken. -/
def takeFreeEvent (ulEventTypeIndex : EventType) (s : CMEventsSet) : Option Nat × CMEventsSet :=
  match s.vFreeEvents ulEventTypeIndex with
  | [] => (none, s)
  | pevEvent :: vFreeEvents =>
    (some pevEvent,
      { s with vFreeEvents := Function.update s.vFreeEvents ulEventTypeIndex vFreeEvents })

/-- `getFreeEvent`; `none` is an error. -/
def getFreeEvent (ulEventTypeIndex : EventType) (newWorks : Bool) (s : CMEventsSet) :
    Option Nat × CMEventsSet :=
  if ulEventTypeIndex.index ≥ s.ulNumberOfDifferentEventTypeToManage then (none, s)
  else if s.vFreeEvents ulEventTypeIndex = [] then
    match s.allocateMoreFreeUserEvents ulEventTypeIndex newWorks with
    | none => (none, s)
    | some s => s.takeFreeEvent ulEventTypeIndex
  else s.takeFreeEvent ulEventTypeIndex

/-- `releaseEvent`; false is an error. -/
def releaseEvent (ulEventTypeIndex : EventType) (pevEvent : Nat) (s : CMEventsSet) :
    Bool × CMEventsSet :=
  if ulEventTypeIndex.index ≥ s.ulNumberOfDifferentEventTypeToManage then (false, s)
  else
    (true, { s with
      vFreeEvents := Function.update s.vFreeEvents ulEventTypeIndex
        (s.vFreeEvents ulEventTypeIndex ++ [pevEvent]) })

/-- The event object as the events set reads it. -/
def event (s : CMEventsSet) (pevEvent : Nat) : Event :=
  ⟨pevEvent, (s.objects pevEvent).esEventStatus, (s.objects pevEvent).bDestination,
    (s.objects pevEvent).ullExpirationLocalDateTimeInMilliSecs⟩

/-- `Event::init`. -/
def initEvent (pevEvent lTypeIdentifier : Nat) (pDestination : String) (ullExpiration : Nat)
    (works : Bool) (s : CMEventsSet) : Bool × CMEventsSet :=
  if (s.objects pevEvent).esEventStatus ≠ .eventBuilded ∨ works = false then (false, s)
  else
    (true, { s with
      objects := Function.update s.objects pevEvent
        ⟨.eventInitialized, lTypeIdentifier, pDestination, ullExpiration⟩ })

/-- `Event::finish`. -/
def finishEvent (pevEvent : Nat) (works : Bool) (s : CMEventsSet) : Bool × CMEventsSet :=
  if (s.objects pevEvent).esEventStatus ≠ .eventInitialized ∨ works = false then (false, s)
  else
    (true, { s with
      objects := Function.update s.objects pevEvent
        { s.objects pevEvent with esEventStatus := .eventBuilded } })

/-- `Event::getTypeIdentifier`; `none` is an error. -/
def getTypeIdentifier (pevEvent : Nat) (s : CMEventsSet) : Option Nat :=
  if (s.objects pevEvent).esEventStatus ≠ .eventInitialized then none
  else some (s.objects pevEvent).lTypeIdentifier

/-- What `addEvent` can come to.  The signal comes after the insertion, and its failure is
reported like any other. -/
inductive Adding
  | refused | added | signalFailed
  deriving DecidableEq

/-- `addEvent`; a new destination may not get its buffer or its condition variable. -/
def addEvent (pevEvent : Nat) (destinationWorks signalWorks : Bool) (s : CMEventsSet) :
    Adding × CMEventsSet :=
  if !destinationWorks then (.refused, s)
  else
    match s.eventsSet.addEvent (some (s.event pevEvent)) with
    | (.error _, eventsSet) => (.refused, { s with eventsSet := eventsSet })
    | (.ok signal, eventsSet) =>
      (if signal && !signalWorks then .signalFailed else .added, { s with eventsSet := eventsSet })

/-- `getAndRemoveFirstEvent` of a processor, at the end of its waiting; `none` is an error. -/
def getAndRemoveFirstEvent (pbDestination : String) (ullNowLocalInMilliSecs : Nat)
    (s : CMEventsSet) : Option Nat × CMEventsSet :=
  match s.eventsSet.takeFirst ⟨pbDestination, true, 1, 0, ullNowLocalInMilliSecs⟩
      ullNowLocalInMilliSecs with
  | (.returned (.ok pevEvent), eventsSet) =>
    (some pevEvent.address, { s with eventsSet := eventsSet })
  | (_, eventsSet) => (none, { s with eventsSet := eventsSet })

end CMEventsSet

/-! ### The operations of the threads -/

/-- The atomic operations; `outcome` and `number` stand for what a function does besides. -/
inductive EventOp
  | getFreeEvent (ulEventTypeIndex : EventType)
  | init (pevEvent lTypeIdentifier : Nat) (pDestination : String)
  | finish (pevEvent : Nat)
  | addEvent (pevEvent : Nat)
  | releaseEvent (ulEventTypeIndex : EventType) (pevEvent : Nat)
  | getAndRemoveFirstEvent (pbDestination : String)
  | getTypeIdentifier (pevEvent : Nat)
  | outcome
  | number

/-- The results: a pointer or a number, or whether there was no error. -/
def EventOp.Result : EventOp → Type
  | .getFreeEvent _ | .getAndRemoveFirstEvent _ | .getTypeIdentifier _ => Option Nat
  | .number => Nat
  | _ => Bool

/-- The choices of the environment for one operation. -/
structure EventChoice where
  works : Bool
  /-- Whether the signal of `addEvent` works. -/
  signalWorks : Bool
  number : Nat

/-- The events that a thread has got and not passed on, and the one that it processes. -/
structure Hands where
  held : List Nat
  event : Option Nat

/-- One operation, with what it does to the hands of the thread. -/
def EventOp.exec (op : EventOp) (c : EventChoice) (l : Hands) (s : CMEventsSet) :
    op.Result × Hands × CMEventsSet :=
  match op with
  | .getFreeEvent ty =>
    match s.getFreeEvent ty c.works with
    | (none, s) => (none, l, s)
    | (some pevEvent, s) => (some pevEvent, { l with held := pevEvent :: l.held }, s)
  | .init pevEvent lTypeIdentifier pDestination =>
    let (works, s) := s.initEvent pevEvent lTypeIdentifier pDestination c.number c.works
    (works, l, s)
  | .finish pevEvent =>
    let (works, s) := s.finishEvent pevEvent c.works
    (works, l, s)
  | .addEvent pevEvent =>
    match s.addEvent pevEvent c.works c.signalWorks with
    | (.added, s) => (true, { l with held := l.held.erase pevEvent }, s)
    | (_, s) => (false, l, s)
  | .releaseEvent ty pevEvent =>
    match s.releaseEvent ty pevEvent with
    | (false, s) => (false, l, s)
    | (true, s) => (true, { l with held := l.held.erase pevEvent }, s)
  | .getAndRemoveFirstEvent pbDestination =>
    match s.getAndRemoveFirstEvent pbDestination c.number with
    | (none, s) => (none, l, s)
    | (some pevEvent, s) => (some pevEvent, ⟨pevEvent :: l.held, some pevEvent⟩, s)
  | .getTypeIdentifier pevEvent => (s.getTypeIdentifier pevEvent, l, s)
  | .outcome => (c.works, l, s)
  | .number => (c.number, l, s)

/-! ### The programs -/

/-- Programs over these operations; the result is whether there was no error. -/
abbrev EventProg (α : Type) := Prog EventOp EventOp.Result α

namespace EventProg

def getFreeEvent (ty : EventType) : EventProg (Option Nat) := Prog.lift (EventOp.getFreeEvent ty)

def init (pevEvent lTypeIdentifier : Nat) (pDestination : String) : EventProg Bool :=
  Prog.lift (EventOp.init pevEvent lTypeIdentifier pDestination)

def finish (pevEvent : Nat) : EventProg Bool := Prog.lift (EventOp.finish pevEvent)

def addEvent (pevEvent : Nat) : EventProg Bool := Prog.lift (EventOp.addEvent pevEvent)

def releaseEvent (ty : EventType) (pevEvent : Nat) : EventProg Bool :=
  Prog.lift (EventOp.releaseEvent ty pevEvent)

def getAndRemoveFirstEvent (pbDestination : String) : EventProg (Option Nat) :=
  Prog.lift (EventOp.getAndRemoveFirstEvent pbDestination)

def getTypeIdentifier (pevEvent : Nat) : EventProg (Option Nat) :=
  Prog.lift (EventOp.getTypeIdentifier pevEvent)

def outcome : EventProg Bool := Prog.lift EventOp.outcome

def number : EventProg Nat := Prog.lift EventOp.number

/-- `_bMainProcessor` of the producers. -/
def mainProcessor : String := "CMProcessor"

/-- The common body of the three `handleTimeOut`; what comes before is an outcome. -/
def handleTimeOut (ty : EventType) : EventProg Bool := do
  if ← outcome then
    match ← getFreeEvent ty with
    | none => outcome
    | some pevEvent =>
      if ← init pevEvent ty.lTypeIdentifier mainProcessor then
        if ← addEvent pevEvent then return true
        else
          let _ ← finish pevEvent
          let _ ← releaseEvent ty pevEvent
          return true
      else
        let _ ← releaseEvent ty pevEvent
        return true
  else return false

/-- `CMSocketsPool::updateSocketStatus`; the first outcome is that of the checks of the socket,
the second that of `deleteSocket`. -/
def updateSocketStatus : EventProg Bool := do
  if ← outcome then
    match ← getFreeEvent .connection with
    | none => return false
    | some pevConnection =>
      if ← init pevConnection EventType.connection.lTypeIdentifier mainProcessor then
        if ← outcome then
          if ← addEvent pevConnection then return true
          else
            let _ ← finish pevConnection
            let _ ← releaseEvent .connection pevConnection
            return false
        else
          let _ ← finish pevConnection
          let _ ← releaseEvent .connection pevConnection
          return false
      else
        let _ ← releaseEvent .connection pevConnection
        return false
  else outcome

/-- The loop of `checkSocketsStatus` over the sockets to be updated. -/
def updateSockets : Nat → EventProg Unit
  | 0 => return ()
  | n + 1 => do
    let _ ← updateSocketStatus
    updateSockets n

/-- `handleCheckSocketsPoolEvent`. -/
def handleCheckSocketsPoolEvent : EventProg Bool := do
  updateSockets (← number)
  outcome

/-- `handleConnectionReadyToReadEvent` and `handleCheckUnusedSocketsEvent`, which use no event
but their own. -/
def handleConnectionReadyToReadEvent : EventProg Bool := outcome

def handleCheckUnusedSocketsEvent : EventProg Bool := outcome

/-- What comes of accepting a connection: an error, nothing to accept, or a connection. -/
def acceptConnection : EventProg (Option Bool) := do
  if ← outcome then
    if ← outcome then return some true else return some false
  else return none

/-- The loop of `handleConnectionToAcceptEvent`, for as many connections as it may still
accept. -/
def acceptLoop (bProcessorName : String) : Nat → EventProg Bool
  | 0 => return true
  | n + 1 => do
    match ← acceptConnection with
    | none => return false
    | some false => return true
    | some true =>
      match ← getFreeEvent .connection with
      | none => return false
      | some pevConnection =>
        if ← init pevConnection EventType.connection.lTypeIdentifier bProcessorName then
          if ← handleConnectionReadyToReadEvent then
            if ← finish pevConnection then
              if ← releaseEvent .connection pevConnection then
                -- the time is taken, and too much of it ends the loop
                if ← outcome then
                  if ← outcome then acceptLoop bProcessorName n else return true
                else return false
              else return false
            else
              let _ ← releaseEvent .connection pevConnection
              return false
          else
            let _ ← finish pevConnection
            let _ ← releaseEvent .connection pevConnection
            return false
        else
          let _ ← releaseEvent .connection pevConnection
          return false

/-- `handleConnectionToAcceptEvent`. -/
def handleConnectionToAcceptEvent (bProcessorName : String)
    (ulMaxSimultaneousConnectionsToAccept : Nat) : EventProg Bool :=
  acceptLoop bProcessorName ulMaxSimultaneousConnectionsToAccept

/-- The common body of the branches of `processEvent`. -/
def handled (handler : EventProg Bool) (ty : EventType) (pevEvent : Nat) : EventProg Bool := do
  if ← handler then
    if ← finish pevEvent then releaseEvent ty pevEvent
    else
      let _ ← releaseEvent ty pevEvent
      return false
  else
    let _ ← finish pevEvent
    let _ ← releaseEvent ty pevEvent
    return false

/-- `processEvent`. -/
def processEvent (bProcessorName : String) (ulMaxSimultaneousConnectionsToAccept : Nat)
    (pevEvent : Nat) : EventProg Bool := do
  match ← getTypeIdentifier pevEvent with
  | some 0 =>
    handled (handleConnectionToAcceptEvent bProcessorName ulMaxSimultaneousConnectionsToAccept)
      .connectionToAccept pevEvent
  | some 1 => handled handleConnectionReadyToReadEvent .connection pevEvent
  | some 2 => handled handleCheckSocketsPoolEvent .checkSocketsPool pevEvent
  | some 3 => handled handleCheckUnusedSocketsEvent .checkUnusedSockets pevEvent
  | _ =>
    let _ ← finish pevEvent
    return false

end EventProg

/-- What a thread may do: one of the timers expires, or a processor looks for an event. -/
inductive EventTask
  | checkServerSocketTimes
  | checkUnusedSocketsTimes
  | checkSocketsPoolTimes
  | processor (bProcessorName : String) (ulMaxSimultaneousConnectionsToAccept : Nat)

open EventProg in
/-- The programs; the loop of a processor begins again after each of them. -/
def EventTask.body : EventTask → EventProg Unit
  | .checkServerSocketTimes => do
    let _ ← handleTimeOut .connectionToAccept
  | .checkUnusedSocketsTimes => do
    let _ ← handleTimeOut .checkUnusedSockets
  | .checkSocketsPoolTimes => do
    let _ ← handleTimeOut .checkSocketsPool
  | .processor bProcessorName ulMax => do
    match ← getAndRemoveFirstEvent bProcessorName with
    | none => return ()
    | some pevEvent =>
      let _ ← processEvent bProcessorName ulMax pevEvent

/-- The threads of the connections manager, as far as they use events. -/
def eventTraffic : System EventOp EventOp.Result Hands CMEventsSet EventTask EventChoice where
  body := EventTask.body
  fresh := ⟨[], none⟩
  exec := EventOp.exec

/-- A state of the event traffic. -/
abbrev TrafficState (T : Type) := State EventOp EventOp.Result Hands CMEventsSet T

/-- The events set after `init`, with no events, and the threads idle. -/
def TrafficState.initial (T : Type) : TrafficState T where
  shared := ⟨(EventsSet.built.init true EventType.number).2, EventType.number, fun _ => [],
    fun _ => 0, fun _ => [], fun _ => ⟨.eventBuilded, 0, "", 0⟩, 0⟩
  threads := fun _ => none

end CatraLibraries
