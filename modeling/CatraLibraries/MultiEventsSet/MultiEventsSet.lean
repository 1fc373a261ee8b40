/-
# The set of events of many destinations

A `MultiEventsSet` keeps one ordered multimap of events and one condition variable for each
destination, and one mutex for all of them.  `addEvent` and `deleteEvent` hold the mutex for the
whole call, so each is one step.  A call of `getFirstEvent` or `getAndRemoveFirstEvent` takes the
mutex, may give it up in a wait, and otherwise keeps it until it returns; between two looks at the
first event time passes, and the others go on as far as they do not need the mutex.

A wait with a predicate gives the mutex up only where the predicate is false, and tests it again
with the mutex whenever the thread is awake: after a notification, after its time is over, and
spuriously.  A thread sleeps while it is in the queue of a condition variable.
-/
import CatraLibraries.Lib.MultiMap
import CatraLibraries.Lib.Transition
import Mathlib.Algebra.Order.Ring.Int
import Mathlib.Logic.Function.Basic

namespace CatraLibraries

open Transition

/-- `Event2`; time points are in nanoseconds. -/
structure Event2 where
  eventKey : ℤ × ℤ
  destination : List UInt8
  expirationTimePoint : ℤ
  deriving DecidableEq, Repr

/-- What a thread does with a `MultiEventsSet`. -/
structure MultiEventsSet.Call where
  /-- `getAndRemoveFirstEvent`, otherwise `getFirstEvent` -/
  removes : Bool
  destination : List UInt8
  blocking : Bool
  milliSecondsToBlock : ℤ
  initialTimePoint : ℤ
  deriving DecidableEq, Repr

/-- Where a call is. -/
inductive MultiEventsSet.CallAt
  /-- about to take the mutex -/
  | locking
  /-- in the wait for a first event or, in the loop, for the next one; asleep, or about to take the
  mutex again -/
  | waiting (inLoop : Bool) (deadline : ℤ)
  /-- with the mutex, about to look at the first event -/
  | looking
  deriving DecidableEq, Repr

/-- What a call returns: an event, `nullptr`, or an exception. -/
inductive MultiEventsSet.Result
  | found (event : Event2)
  | nothing
  | failed
  deriving DecidableEq, Repr

/-- The set, the queues of the condition variables, the threads and the clocks.  `results` records
what the calls have returned, newest first. -/
structure MultiEventsSet (T : Type) where
  esmMultiEventsSetHashMap : List UInt8 → Option (MultiMap ℤ Event2)
  addedEvent : List UInt8 → List T
  threads : T → Option (MultiEventsSet.Call × MultiEventsSet.CallAt)
  evSetMutex : Option T
  now : ℤ
  steady : ℤ
  results : List (T × MultiEventsSet.Call × MultiEventsSet.Result)

namespace MultiEventsSet

variable {T : Type}

/-- The set as it is constructed. -/
def initial (now steady : ℤ) : MultiEventsSet T where
  esmMultiEventsSetHashMap _ := none
  addedEvent _ := []
  threads _ := none
  evSetMutex := none
  now := now
  steady := steady
  results := []

/-- The events of a destination. -/
def eventsMultiMap (s : MultiEventsSet T) (destination : List UInt8) : MultiMap ℤ Event2 :=
  (s.esmMultiEventsSetHashMap destination).getD MultiMap.empty

/-- The time that is left for a call to block. -/
def Call.remainingTimeInMilliSecs (c : Call) (now : ℤ) : ℤ :=
  c.milliSecondsToBlock - (now - c.initialTimePoint).tdiv 1000000

/-- What can happen next. -/
inductive Action (T : Type)
  /-- The clocks are read as `now` and `steady` from here on; the first one may be set back. -/
  | tick (now steady : ℤ)
  | addDestination (destination : List UInt8)
  /-- An event is added; `wakes` is the thread that a notification wakes. -/
  | addEvent (event : Event2) (wakes : Option T)
  | deleteEvent (event : Event2)
  /-- A thread calls `getFirstEvent` or `getAndRemoveFirstEvent`. -/
  | call (t : T) (removes : Bool) (destination : List UInt8) (blocking : Bool)
      (milliSecondsToBlock : ℤ)
  /-- It takes the mutex and goes on to the loop, its first wait or its end. -/
  | enter (t : T)
  /-- A thread that sleeps wakes up, because its time is over or for no reason. -/
  | wake (t : T)
  /-- A thread that woke up takes the mutex again and tests the predicate. -/
  | retake (t : T)
  /-- It looks at the first event. -/
  | look (t : T)

section Steps

variable [DecidableEq T] (s : MultiEventsSet T) (t : T) (c : Call)

def lock : MultiEventsSet T := { s with evSetMutex := some t }

def unlock : MultiEventsSet T := { s with evSetMutex := none }

/-- The call goes on from `at'`. -/
def goesTo (at' : CallAt) : MultiEventsSet T :=
  { s with threads := Function.update s.threads t (some (c, at')) }

/-- The call returns, and its lock is released. -/
def returns (result : Result) : MultiEventsSet T :=
  { s.unlock with
    threads := Function.update s.threads t none
    results := (t, c, result) :: s.results }

/-- The thread sleeps on the condition variable of its destination. -/
def sleeps (inLoop : Bool) (deadline : ℤ) : MultiEventsSet T :=
  { (s.goesTo t c (.waiting inLoop deadline)).unlock with
    addedEvent := Function.update s.addedEvent c.destination
      (s.addedEvent c.destination ++ [t]) }

/-- The end of a `wait_for`, a 64-bit number of nanoseconds. -/
def deadline (milliSeconds : ℤ) : ℤ := (s.steady + milliSeconds * 1000000).bmod (2 ^ 64)

/-- `wait_for`, where the predicate is that the destination has events: the thread sleeps only
where it is false. -/
def waitFor (inLoop : Bool) (milliSeconds : ℤ) : MultiEventsSet T :=
  if (s.eventsMultiMap c.destination).entries = [] then s.sleeps t c inLoop (s.deadline milliSeconds)
  else s.goesTo t c .looking

/-- The first part of a call, with the mutex. -/
def enterLocked : MultiEventsSet T :=
  match s.esmMultiEventsSetHashMap c.destination with
  | none => s.returns t c .failed
  | some events =>
    if events.entries = [] then
      if c.blocking then s.waitFor t c false c.milliSecondsToBlock else s.returns t c .nothing
    else s.goesTo t c .looking

/-- The rest of `wait_for`: without events the thread sleeps again until its time is over.  A call
whose first wait was in vain returns; in the loop it goes on in any case. -/
def retakeLocked (inLoop : Bool) (deadline : ℤ) : MultiEventsSet T :=
  if (s.eventsMultiMap c.destination).entries ≠ [] then s.goesTo t c .looking
  else if s.steady < deadline then s.sleeps t c inLoop deadline
  else if inLoop then s.goesTo t c .looking
  else s.returns t c .nothing

/-- The set with these events of a destination. -/
def setEvents (destination : List UInt8) (events : MultiMap ℤ Event2) : MultiEventsSet T :=
  { s with
    esmMultiEventsSetHashMap :=
      Function.update s.esmMultiEventsSetHashMap destination (some events) }

/-- The destination without its first event. -/
def eraseFirst (destination : List UInt8) : MultiEventsSet T :=
  s.setEvents destination ⟨(s.eventsMultiMap destination).entries.tail,
    (s.eventsMultiMap destination).sorted.sublist (List.tail_sublist _)⟩

/-- One turn of the loop of `getAndRemoveFirstEvent`, or the end of `getFirstEvent`. -/
def lookLocked : MultiEventsSet T :=
  match (s.eventsMultiMap c.destination).begin? with
  | none => s.returns t c .nothing
  | some (_, event) =>
    if c.removes = false then s.returns t c (.found event)
    else if s.now < event.expirationTimePoint then
      if c.blocking then
        if c.remainingTimeInMilliSecs s.now ≤ 0 then s.returns t c .nothing
        else if event.expirationTimePoint - s.now ≤ c.remainingTimeInMilliSecs s.now * 1000000 then
          s.waitFor t c true ((event.expirationTimePoint - s.now).tdiv 1000000)
        else s.waitFor t c true (c.remainingTimeInMilliSecs s.now)
      else s.returns t c .nothing
    else (s.eraseFirst c.destination).returns t c (.found event)

/-- `notify_one`: one of the threads that sleep is woken, if there is one. -/
def notifyOne (destination : List UInt8) : Option T → Option (MultiEventsSet T)
  | none => if s.addedEvent destination = [] then some s else none
  | some t =>
    if t ∈ s.addedEvent destination then
      some { s with
        addedEvent := Function.update s.addedEvent destination
          ((s.addedEvent destination).erase t) }
    else none

/-- The set with an event more. -/
def insertEvent (event : Event2) (events : MultiMap ℤ Event2) : MultiEventsSet T :=
  s.setEvents event.destination (events.insert event.expirationTimePoint event)

/-- An added event is notified when it is the first one or expires before the first one. -/
def Notifies (event : Event2) (events : MultiMap ℤ Event2) : Prop :=
  ∀ head ∈ events.begin?, event.expirationTimePoint < head.2.expirationTimePoint

instance (event : Event2) (events : MultiMap ℤ Event2) : Decidable (Notifies event events) :=
  inferInstanceAs (Decidable (∀ head ∈ events.begin?, _))

/-- `addEvent`; without the destination it is an exception. -/
def addEvent (event : Event2) (wakes : Option T) : Option (MultiEventsSet T) :=
  match s.esmMultiEventsSetHashMap event.destination with
  | none => if wakes = none then some s else none
  | some events =>
    if Notifies event events then (s.insertEvent event events).notifyOne event.destination wakes
    else if wakes = none then some (s.insertEvent event events)
    else none

/-- What `deleteEvent` looks for among the events of the same expiration. -/
def IsEvent (event : Event2) (entry : ℤ × Event2) : Prop :=
  entry.1 = event.expirationTimePoint ∧ entry.2.eventKey = event.eventKey

instance (event : Event2) (entry : ℤ × Event2) : Decidable (IsEvent event entry) :=
  inferInstanceAs (Decidable (_ ∧ _))

/-- `deleteEvent`; without the destination or the event it is an exception. -/
def deleteEvent (event : Event2) : MultiEventsSet T :=
  match s.esmMultiEventsSetHashMap event.destination with
  | none => s
  | some events =>
    s.setEvents event.destination
      ⟨events.entries.eraseP (IsEvent event ·), events.sorted.sublist List.eraseP_sublist⟩

/-- `addDestination`; a destination that is there is an exception. -/
def addDestination (destination : List UInt8) : MultiEventsSet T :=
  match s.esmMultiEventsSetHashMap destination with
  | some _ => s
  | none => s.setEvents destination MultiMap.empty

/-- One step.  What needs the mutex waits while a thread has it. -/
def step : Action T → Option (MultiEventsSet T)
  | .tick now steady =>
    if s.steady ≤ steady then some { s with now := now, steady := steady } else none
  | .addDestination destination =>
    if s.evSetMutex = none then some (s.addDestination destination) else none
  | .addEvent event wakes => if s.evSetMutex = none then s.addEvent event wakes else none
  | .deleteEvent event => if s.evSetMutex = none then some (s.deleteEvent event) else none
  | .call t removes destination blocking milliSecondsToBlock =>
    if s.threads t = none then
      some (s.goesTo t ⟨removes, destination, blocking, milliSecondsToBlock, s.now⟩ .locking)
    else none
  | .enter t =>
    match s.threads t with
    | some (c, .locking) =>
      if s.evSetMutex = none then some ((s.lock t).enterLocked t c) else none
    | _ => none
  | .wake t =>
    match s.threads t with
    | some (c, .waiting _ _) =>
      if t ∈ s.addedEvent c.destination then
        some { s with
          addedEvent := Function.update s.addedEvent c.destination
            ((s.addedEvent c.destination).erase t) }
      else none
    | _ => none
  | .retake t =>
    match s.threads t with
    | some (c, .waiting inLoop deadline) =>
      if s.evSetMutex = none ∧ t ∉ s.addedEvent c.destination then
        some ((s.lock t).retakeLocked t c inLoop deadline)
      else none
    | _ => none
  | .look t =>
    match s.threads t with
    | some (c, .looking) => if s.evSetMutex = some t then some (s.lookLocked t c) else none
    | _ => none

end Steps

theorem eventsMultiMap_setEvents_self (s : MultiEventsSet T) (destination : List UInt8)
    (events : MultiMap ℤ Event2) :
    (s.setEvents destination events).eventsMultiMap destination = events := by
  show (Function.update s.esmMultiEventsSetHashMap destination (some events) destination).getD _ = _
  rw [Function.update_self]
  rfl

theorem eventsMultiMap_setEvents_of_ne {s : MultiEventsSet T} {destination destination' : List UInt8}
    (h : destination ≠ destination') (events : MultiMap ℤ Event2) :
    (s.setEvents destination' events).eventsMultiMap destination =
      s.eventsMultiMap destination := by
  show (Function.update s.esmMultiEventsSetHashMap destination' (some events) destination).getD _ = _
  rw [Function.update_of_ne h]
  rfl

theorem eventsMultiMap_of_find {s : MultiEventsSet T} {destination : List UInt8}
    {events : MultiMap ℤ Event2} (h : s.esmMultiEventsSetHashMap destination = some events) :
    s.eventsMultiMap destination = events := by
  unfold eventsMultiMap
  rw [h]
  rfl

/-! ### What a step is -/

section Steps

variable [DecidableEq T] {s s' : MultiEventsSet T}

/-- What an added event comes to. -/
theorem addEvent_cases {event : Event2} {wakes : Option T} (h : s.addEvent event wakes = some s') :
    (s.esmMultiEventsSetHashMap event.destination = none ∧ s' = s) ∨ ∃ events,
      s.esmMultiEventsSetHashMap event.destination = some events ∧
      ((s' = s.insertEvent event events ∧
          (s.addedEvent event.destination = [] ∨ ¬Notifies event events)) ∨
        ∃ t ∈ s.addedEvent event.destination,
          s' = { s.insertEvent event events with
            addedEvent := Function.update s.addedEvent event.destination
              ((s.addedEvent event.destination).erase t) }) := by
  unfold addEvent at h
  cases hfind : s.esmMultiEventsSetHashMap event.destination with
  | none =>
    rw [hfind] at h
    obtain ⟨-, hsome⟩ := Option.ite_none_right_eq_some.mp h
    exact Or.inl ⟨rfl, (Option.some.inj hsome).symm⟩
  | some events =>
    rw [hfind] at h
    refine Or.inr ⟨events, rfl, ?_⟩
    dsimp only at h
    split at h
    · cases wakes with
      | none =>
        obtain ⟨hqueue, hsome⟩ := Option.ite_none_right_eq_some.mp h
        exact Or.inl ⟨(Option.some.inj hsome).symm, Or.inl hqueue⟩
      | some t =>
        obtain ⟨ht, hsome⟩ := Option.ite_none_right_eq_some.mp h
        exact Or.inr ⟨t, ht, (Option.some.inj hsome).symm⟩
    · next hnotifies =>
      obtain ⟨-, hsome⟩ := Option.ite_none_right_eq_some.mp h
      exact Or.inl ⟨(Option.some.inj hsome).symm, Or.inr hnotifies⟩

section

attribute [local simp] step

theorem step_enter {t : T} (h : step s (.enter t) = some s') :
    ∃ c, s.evSetMutex = none ∧ s.threads t = some (c, .locking) ∧
      s' = (s.lock t).enterLocked t c := by
  simp only [step] at h
  split at h
  · next c hthread =>
    obtain ⟨hmutex, hsome⟩ := Option.ite_none_right_eq_some.mp h
    exact ⟨c, hmutex, hthread, (Option.some.inj hsome).symm⟩
  · cases h

end

theorem step_retake {t : T} (h : step s (.retake t) = some s') :
    ∃ c inLoop deadline, s.evSetMutex = none ∧
      s.threads t = some (c, .waiting inLoop deadline) ∧ t ∉ s.addedEvent c.destination ∧
        s' = (s.lock t).retakeLocked t c inLoop deadline := by
  simp only [step] at h
  split at h
  · next c inLoop deadline hthread =>
    obtain ⟨⟨hmutex, ht⟩, hsome⟩ := Option.ite_none_right_eq_some.mp h
    exact ⟨c, inLoop, deadline, hmutex, hthread, ht, (Option.some.inj hsome).symm⟩
  · cases h

theorem step_wake {t : T} (h : step s (.wake t) = some s') :
    ∃ destination, t ∈ s.addedEvent destination ∧ s' = { s with
      addedEvent := Function.update s.addedEvent destination
        ((s.addedEvent destination).erase t) } := by
  simp only [step] at h
  split at h
  · next c inLoop deadline hthread =>
    obtain ⟨ht, hsome⟩ := Option.ite_none_right_eq_some.mp h
    exact ⟨c.destination, ht, (Option.some.inj hsome).symm⟩
  · cases h

theorem step_look {t : T} (h : step s (.look t) = some s') :
    ∃ c, s.threads t = some (c, .looking) ∧ s.evSetMutex = some t ∧ s' = s.lookLocked t c := by
  simp only [step] at h
  split at h
  · next c hthread =>
    obtain ⟨hmutex, hsome⟩ := Option.ite_none_right_eq_some.mp h
    exact ⟨c, hthread, hmutex, (Option.some.inj hsome).symm⟩
  · cases h

end Steps

end MultiEventsSet

end CatraLibraries
