/-
# The set of events

`EventsSet/src/EventsSet.cpp`: events wait in one ordered multimap for each destination,
keyed by their expiration in milliseconds.  Producers add them; consumers take the first
one of a destination when it has expired.

An event is a value: the address of the object and what its members hold, which no
method of the set changes.  The hash map of the destinations is a finite map.  The
methods hold `_evSetMutex` from their checks to their end, so each of them is one
function of the set; `getAndRemoveFirstEvent` gives the mutex up while it waits for the
condition variable and is cut there.  Mutexes, condition variables and the clock do not
fail.  Times are `unsigned long long` milliseconds.
-/
import CatraLibraries.Lib.MultiMap
import Mathlib.Algebra.Group.Nat.Defs
import Mathlib.Data.Nat.Basic
import Mathlib.Logic.Function.Basic

namespace CatraLibraries

/-- The codes of `EventsSetErrors.h` that the modelled functions report. -/
inductive EvsetError
  | activationWrong
  | operationNotAllowed
  | eventGetDestinationFailed
  | eventGetExpirationLocalDateTimeInMilliSecsFailed
  | destinationAlreadyAdded
  | destinationNotFound
  | eventNotFound
  | noEventsFound
  | eventNotExpiredYet
  deriving DecidableEq, Repr

/-- `EventStatus_t`. -/
inductive EventStatus
  | eventBuilded | eventInitialized
  deriving DecidableEq, Repr

/-- An event object: its address and the members that the set reads. -/
structure Event where
  address : Nat
  esEventStatus : EventStatus
  bDestination : String
  ullExpirationLocalDateTimeInMilliSecs : Nat
  deriving DecidableEq, Repr

namespace Event

/-- `getDestination`; `none` is its error. -/
def getDestination (e : Event) : Option String :=
  if e.esEventStatus ≠ .eventInitialized then none else some e.bDestination

/-- `getExpirationLocalDateTimeInMilliSecs`; `none` is its error. -/
def getExpirationLocalDateTimeInMilliSecs (e : Event) : Option Nat :=
  if e.esEventStatus ≠ .eventInitialized then none
  else some e.ullExpirationLocalDateTimeInMilliSecs

variable {e : Event}

theorem getDestination_of_initialized (h : e.esEventStatus = .eventInitialized) :
    e.getDestination = some e.bDestination := by
  rw [getDestination, if_neg (by simp [h])]

theorem getExpiration_of_initialized (h : e.esEventStatus = .eventInitialized) :
    e.getExpirationLocalDateTimeInMilliSecs = some e.ullExpirationLocalDateTimeInMilliSecs := by
  rw [getExpirationLocalDateTimeInMilliSecs, if_neg (by simp [h])]

theorem getDestination_of_not (h : e.esEventStatus ≠ .eventInitialized) :
    e.getDestination = none := by
  rw [getDestination, if_pos h]

theorem getExpiration_of_not (h : e.esEventStatus ≠ .eventInitialized) :
    e.getExpirationLocalDateTimeInMilliSecs = none := by
  rw [getExpirationLocalDateTimeInMilliSecs, if_pos h]

end Event

/-- `EventsMultiMap_t`. -/
abbrev EventsMultiMap := MultiMap Nat Event

/-- `EventsSetStatus_t`. -/
inductive EventsSetStatus
  | eventsSetBuilded | eventsSetInitialized
  deriving DecidableEq, Repr

/-- The members of the class `EventsSet`; of a `DestinationEvent_t` the multimap. -/
structure EventsSet where
  essEventsSetStatus : EventsSetStatus
  bConditionVariablesToBeUsed : Bool
  pesmEventsSetHashMap : String → Option EventsMultiMap

namespace EventsSet

/-- The constructor. -/
def built : EventsSet := ⟨.eventsSetBuilded, false, fun _ => none⟩

/-- `init`. -/
def init (bConditionVariablesToBeUsed : Bool) (ulNumberOfDifferentEventTypeToManage : Nat)
    (s : EventsSet) : Except EvsetError Unit × EventsSet :=
  if s.essEventsSetStatus ≠ .eventsSetBuilded ∨ ulNumberOfDifferentEventTypeToManage ≤ 0 then
    (.error .operationNotAllowed, s)
  else
    (.ok (), ⟨.eventsSetInitialized, bConditionVariablesToBeUsed, fun _ => none⟩)

/-- Replace the multimap of a destination. -/
def setEvents (s : EventsSet) (pbDestination : String) (m : EventsMultiMap) : EventsSet :=
  { s with pesmEventsSetHashMap := Function.update s.pesmEventsSetHashMap pbDestination (some m) }

/-- The multimap of a destination; a destination that is not known has no events. -/
def events (s : EventsSet) (pbDestination : String) : EventsMultiMap :=
  (s.pesmEventsSetHashMap pbDestination).getD .empty

/-! ### Adding and deleting -/

/-- `addEvent`; it returns whether it has signalled the condition variable of the
destination.  A destination that is not known yet is created. -/
def addEvent (pevEvent : Option Event) (s : EventsSet) : Except EvsetError Bool × EventsSet :=
  match pevEvent with
  | none => (.error .activationWrong, s)
  | some e =>
    match e.getDestination with
    | none => (.error .eventGetDestinationFailed, s)
    | some pbDestination =>
      match e.getExpirationLocalDateTimeInMilliSecs with
      | none => (.error .eventGetExpirationLocalDateTimeInMilliSecsFailed, s)
      | some ullExpiration =>
        if s.essEventsSetStatus ≠ .eventsSetInitialized then (.error .operationNotAllowed, s)
        else
          let m := s.events pbDestination
          match m.begin? with
          | none =>
            (.ok s.bConditionVariablesToBeUsed,
              s.setEvents pbDestination (m.insert ullExpiration e))
          | some (_, pevHeadEvent) =>
            match pevHeadEvent.getExpirationLocalDateTimeInMilliSecs with
            | none => (.error .eventGetExpirationLocalDateTimeInMilliSecsFailed, s)
            | some ullExpirationOfHeadEvent =>
              (.ok (s.bConditionVariablesToBeUsed &&
                  decide (ullExpiration < ullExpirationOfHeadEvent)),
                s.setEvents pbDestination (m.insert ullExpiration e))

/-- `addDestination`. -/
def addDestination (pDestination : Option String) (s : EventsSet) :
    Except EvsetError Unit × EventsSet :=
  match pDestination with
  | none => (.error .activationWrong, s)
  | some destination =>
    if s.essEventsSetStatus ≠ .eventsSetInitialized then (.error .operationNotAllowed, s)
    else
      match s.pesmEventsSetHashMap destination with
      | some _ => (.error .destinationAlreadyAdded, s)
      | none => (.ok (), s.setEvents destination .empty)

/-- `deleteEvent`. -/
def deleteEvent (pevEvent : Option Event) (s : EventsSet) : Except EvsetError Unit × EventsSet :=
  match pevEvent with
  | none => (.error .activationWrong, s)
  | some e =>
    match e.getDestination with
    | none => (.error .eventGetDestinationFailed, s)
    | some pbDestination =>
      match e.getExpirationLocalDateTimeInMilliSecs with
      | none => (.error .eventGetExpirationLocalDateTimeInMilliSecsFailed, s)
      | some ullExpiration =>
        if s.essEventsSetStatus ≠ .eventsSetInitialized then (.error .operationNotAllowed, s)
        else
          match s.pesmEventsSetHashMap pbDestination with
          | none => (.error .destinationNotFound, s)
          | some m =>
            match m.find? ullExpiration with
            | none => (.error .eventNotFound, s)
            | some _ => (.ok (), s.setEvents pbDestination (m.erase ullExpiration))

/-! ### Taking the first event -/

/-- The two calls of `timedWait` in `getAndRemoveFirstEvent`: for an event to be added,
and for the first event to expire. -/
inductive Waiting
  | forEvent | forExpiration
  deriving DecidableEq, Repr

/-- How far a call of `getAndRemoveFirstEvent` gets while it holds the mutex: to its end,
with an event or an error code, or to a `timedWait`. -/
inductive Progress
  | returned (result : Except EvsetError Event)
  | waits (wait : Waiting)
  deriving DecidableEq

/-- The arguments of `getAndRemoveFirstEvent`, and the time at which it was called. -/
structure Get where
  pbDestination : String
  bBlocking : Bool
  ulSecondsToBlock : Nat
  ulAdditionalMilliSecondsToBlock : Nat
  ullInitialLocalInMilliSecs : Nat
  deriving DecidableEq, Repr

namespace Get

/-- `lRemainingTimeInMilliSecs`, a difference of `unsigned long` converted to `long`. -/
def lRemainingTimeInMilliSecs (g : Get) (ullNowLocalInMilliSecs : Nat) : Int :=
  Int.bmod ((g.ulSecondsToBlock * 1000 + g.ulAdditionalMilliSecondsToBlock : Nat)
    - ((ullNowLocalInMilliSecs : Int) - g.ullInitialLocalInMilliSecs)) (2 ^ 64)

end Get

/-- The body of the loop `while (!bFoundExpiredEvent)` up to its end or its wait, and the
`erase` behind it. -/
def takeFirst (g : Get) (ullNowLocalInMilliSecs : Nat) (s : EventsSet) : Progress × EventsSet :=
  let m := s.events g.pbDestination
  match m.begin? with
  | none => (.returned (.error .noEventsFound), s)
  | some (key, pevEvent) =>
    match pevEvent.getExpirationLocalDateTimeInMilliSecs with
    | none => (.returned (.error .eventGetExpirationLocalDateTimeInMilliSecsFailed), s)
    | some ullExpiration =>
      if ullNowLocalInMilliSecs < ullExpiration then
        if s.bConditionVariablesToBeUsed then
          if g.bBlocking then
            if g.lRemainingTimeInMilliSecs ullNowLocalInMilliSecs ≤ 0 then
              (.returned (.error .eventNotExpiredYet), s)
            else (.waits .forExpiration, s)
          else (.returned (.error .eventNotExpiredYet), s)
        else (.returned (.error .eventNotExpiredYet), s)
      else (.returned (.ok pevEvent), s.setEvents g.pbDestination (m.erase key))

/-- `getAndRemoveFirstEvent` from its call to its end or its first wait; `none` is a call
with a NULL pointer. -/
def getAndRemoveFirstEvent (g : Option Get) (ullNowLocalInMilliSecs : Nat) (s : EventsSet) :
    Progress × EventsSet :=
  match g with
  | none => (.returned (.error .activationWrong), s)
  | some g =>
    if s.essEventsSetStatus ≠ .eventsSetInitialized then
      (.returned (.error .operationNotAllowed), s)
    else
      match s.pesmEventsSetHashMap g.pbDestination with
      | none => (.returned (.error .destinationNotFound), s)
      | some m =>
        if m.begin? = none then
          if s.bConditionVariablesToBeUsed then
            if g.bBlocking then (.waits .forEvent, s)
            else (.returned (.error .noEventsFound), s)
          else (.returned (.error .noEventsFound), s)
        else s.takeFirst g ullNowLocalInMilliSecs

/-- `getAndRemoveFirstEvent` after `timedWait` has returned with the mutex, because of a
time-out or of a signal. -/
def resume (g : Get) (wait : Waiting) (timedOut : Bool) (ullNowLocalInMilliSecs : Nat)
    (s : EventsSet) : Progress × EventsSet :=
  match wait with
  | .forEvent =>
    if timedOut then
      if g.lRemainingTimeInMilliSecs ullNowLocalInMilliSecs ≤ 0 then
        (.returned (.error .noEventsFound), s)
      else (.waits .forEvent, s)
    else if (s.events g.pbDestination).begin? = none then
      if g.lRemainingTimeInMilliSecs ullNowLocalInMilliSecs ≤ 0 then
        (.returned (.error .noEventsFound), s)
      else (.waits .forEvent, s)
    else s.takeFirst g ullNowLocalInMilliSecs
  | .forExpiration => s.takeFirst g ullNowLocalInMilliSecs

/-! ### What the operations do -/

theorem events_setEvents (s : EventsSet) (d d' : String) (m : EventsMultiMap) :
    (s.setEvents d m).events d' = if d' = d then m else s.events d' := by
  show (Function.update s.pesmEventsSetHashMap d (some m) d').getD .empty = _
  rw [Function.update_apply]
  split_ifs <;> rfl

theorem events_of_eq_some {s : EventsSet} {d : String} {m : EventsMultiMap}
    (h : s.pesmEventsSetHashMap d = some m) : s.events d = m := by
  rw [events, h]
  rfl

/-- What `addEvent` can do: nothing, or put the event behind those of its key. -/
theorem addEvent_cases (pevEvent : Option Event) (s : EventsSet) :
    (∃ err, s.addEvent pevEvent = (.error err, s)) ∨
    ∃ e b, pevEvent = some e ∧ e.esEventStatus = .eventInitialized ∧
      s.addEvent pevEvent = (.ok b, s.setEvents e.bDestination
        ((s.events e.bDestination).insert e.ullExpirationLocalDateTimeInMilliSecs e)) := by
  cases pevEvent with
  | none => exact Or.inl ⟨_, rfl⟩
  | some e =>
    rcases eq_or_ne e.esEventStatus .eventInitialized with hevent | hevent
    · simp only [addEvent, e.getDestination_of_initialized hevent,
        e.getExpiration_of_initialized hevent]
      rcases eq_or_ne s.essEventsSetStatus .eventsSetInitialized with hset | hset
      · rw [if_neg (not_not.mpr hset)]
        cases hhead : (s.events e.bDestination).begin? with
        | none => exact Or.inr ⟨e, _, rfl, hevent, rfl⟩
        | some x =>
          obtain ⟨key, head⟩ := x
          cases hexp : head.getExpirationLocalDateTimeInMilliSecs with
          | none =>
            refine Or.inl ⟨.eventGetExpirationLocalDateTimeInMilliSecsFailed, ?_⟩
            simp only [hexp]
          | some expiration =>
            refine Or.inr ⟨e, s.bConditionVariablesToBeUsed &&
              decide (e.ullExpirationLocalDateTimeInMilliSecs < expiration), rfl, hevent, ?_⟩
            simp only [hexp]
      · exact Or.inl ⟨_, if_pos hset⟩
    · refine Or.inl ⟨.eventGetDestinationFailed, ?_⟩
      simp only [addEvent, e.getDestination_of_not hevent]

/-- A new destination has no events, as it had when it was not known. -/
theorem addDestination_events (pDestination : Option String) (s : EventsSet) (d : String) :
    (s.addDestination pDestination).2.events d = s.events d := by
  unfold addDestination
  cases pDestination with
  | none => rfl
  | some destination =>
    simp only
    split_ifs
    · rfl
    · cases hmap : s.pesmEventsSetHashMap destination with
      | some m => rfl
      | none =>
        simp only [events_setEvents]
        split_ifs with hd
        · rw [hd, events, hmap]
          rfl
        · rfl

/-- What `deleteEvent` can do: nothing, or take the first event under the key. -/
theorem deleteEvent_cases (pevEvent : Option Event) (s : EventsSet) :
    (∃ err, s.deleteEvent pevEvent = (.error err, s)) ∨
    ∃ e x, pevEvent = some e ∧
      (s.events e.bDestination).find? e.ullExpirationLocalDateTimeInMilliSecs = some x ∧
      s.deleteEvent pevEvent = (.ok (), s.setEvents e.bDestination
        ((s.events e.bDestination).erase e.ullExpirationLocalDateTimeInMilliSecs)) := by
  cases pevEvent with
  | none => exact Or.inl ⟨_, rfl⟩
  | some e =>
    rcases eq_or_ne e.esEventStatus .eventInitialized with hevent | hevent
    · simp only [deleteEvent, e.getDestination_of_initialized hevent,
        e.getExpiration_of_initialized hevent]
      rcases eq_or_ne s.essEventsSetStatus .eventsSetInitialized with hset | hset
      · rw [if_neg (not_not.mpr hset)]
        cases hmap : s.pesmEventsSetHashMap e.bDestination with
        | none => exact Or.inl ⟨_, rfl⟩
        | some m =>
          have hm := events_of_eq_some hmap
          cases hfind : m.find? e.ullExpirationLocalDateTimeInMilliSecs with
          | none => exact Or.inl ⟨.eventNotFound, by simp only [hfind]⟩
          | some x => exact Or.inr ⟨e, x, rfl, by rw [hm, hfind], by simp only [hfind, hm]⟩
      · exact Or.inl ⟨_, if_pos hset⟩
    · refine Or.inl ⟨.eventGetDestinationFailed, ?_⟩
      simp only [deleteEvent, e.getDestination_of_not hevent]

/-- What the body of the loop of `getAndRemoveFirstEvent` can do: report an error, wait,
or take the first event, which has expired. -/
theorem takeFirst_cases (g : Get) (now : Nat) (s : EventsSet) :
    (∃ err, s.takeFirst g now = (.returned (.error err), s) ∧
      (err = .noEventsFound → (s.events g.pbDestination).begin? = none) ∧
      (err = .eventNotExpiredYet → ∃ key e, (s.events g.pbDestination).begin? = some (key, e) ∧
        now < e.ullExpirationLocalDateTimeInMilliSecs)) ∨
    (g.bBlocking = true ∧ s.takeFirst g now = (.waits .forExpiration, s)) ∨
    ∃ key e, (s.events g.pbDestination).begin? = some (key, e) ∧
      e.ullExpirationLocalDateTimeInMilliSecs ≤ now ∧
      s.takeFirst g now = (.returned (.ok e),
        s.setEvents g.pbDestination ((s.events g.pbDestination).erase key)) := by
  cases hbegin : (s.events g.pbDestination).begin? with
  | none =>
    refine Or.inl ⟨.noEventsFound, ?_, fun _ => rfl, by simp⟩
    simp only [takeFirst, hbegin]
  | some x =>
    obtain ⟨key, e⟩ := x
    rcases eq_or_ne e.esEventStatus .eventInitialized with hevent | hevent
    · simp only [takeFirst, hbegin, e.getExpiration_of_initialized hevent]
      rcases lt_or_ge now e.ullExpirationLocalDateTimeInMilliSecs with hnow | hnow
      · have hyet : EvsetError.eventNotExpiredYet = .eventNotExpiredYet →
            ∃ key' e', some (key, e) = some (key', e') ∧
              now < e'.ullExpirationLocalDateTimeInMilliSecs := fun _ => ⟨key, e, rfl, hnow⟩
        rw [if_pos hnow]
        split_ifs with hcond hblocking
        · exact Or.inl ⟨_, rfl, by simp, hyet⟩
        · exact Or.inr (Or.inl ⟨hblocking, rfl⟩)
        · exact Or.inl ⟨_, rfl, by simp, hyet⟩
        · exact Or.inl ⟨_, rfl, by simp, hyet⟩
      · rw [if_neg (Nat.not_lt.mpr hnow)]
        exact Or.inr (Or.inr ⟨key, e, rfl, hnow, rfl⟩)
    · refine Or.inl ⟨.eventGetExpirationLocalDateTimeInMilliSecsFailed, ?_, by simp, by simp⟩
      simp only [takeFirst, hbegin, e.getExpiration_of_not hevent]

/-- What a call of `getAndRemoveFirstEvent` can do up to its end or its first wait. -/
theorem getAndRemoveFirstEvent_cases (g : Option Get) (now : Nat) (s : EventsSet) :
    (∃ err, s.getAndRemoveFirstEvent g now = (.returned (.error err), s) ∧
      (err = .noEventsFound → ∃ g', g = some g' ∧ (s.events g'.pbDestination).begin? = none) ∧
      (err = .eventNotExpiredYet → ∃ g' key e, g = some g' ∧
        (s.events g'.pbDestination).begin? = some (key, e) ∧
        now < e.ullExpirationLocalDateTimeInMilliSecs)) ∨
    (∃ g' wait, g = some g' ∧ g'.bBlocking = true ∧
      s.getAndRemoveFirstEvent g now = (.waits wait, s)) ∨
    ∃ g' key e, g = some g' ∧ (s.events g'.pbDestination).begin? = some (key, e) ∧
      e.ullExpirationLocalDateTimeInMilliSecs ≤ now ∧
      s.getAndRemoveFirstEvent g now = (.returned (.ok e),
        s.setEvents g'.pbDestination ((s.events g'.pbDestination).erase key)) := by
  cases g with
  | none => exact Or.inl ⟨_, rfl, by simp, by simp⟩
  | some g =>
    rcases eq_or_ne s.essEventsSetStatus .eventsSetInitialized with hset | hset
    · rw [getAndRemoveFirstEvent, if_neg (not_not.mpr hset)]
      cases hmap : s.pesmEventsSetHashMap g.pbDestination with
      | none => exact Or.inl ⟨_, rfl, by simp, by simp⟩
      | some m =>
        have hm := events_of_eq_some hmap
        by_cases hempty : m.begin? = none
        · have hnone : EvsetError.noEventsFound = .noEventsFound →
              ∃ g', some g = some g' ∧ (s.events g'.pbDestination).begin? = none :=
            fun _ => ⟨g, rfl, by rw [hm, hempty]⟩
          simp only [hempty, if_true]
          split_ifs with hcond hblocking
          · exact Or.inr (Or.inl ⟨g, _, rfl, hblocking, rfl⟩)
          · exact Or.inl ⟨_, rfl, hnone, by simp⟩
          · exact Or.inl ⟨_, rfl, hnone, by simp⟩
        · simp only [hempty, if_false]
          obtain ⟨err, heq, hnone, hyet⟩ | ⟨hblocking, heq⟩ | ⟨key, e, hbegin, hnow, heq⟩ :=
            takeFirst_cases g now s
          · refine Or.inl ⟨err, heq, fun h => ⟨g, rfl, hnone h⟩, fun h => ?_⟩
            obtain ⟨key, e, hbegin, hnow⟩ := hyet h
            exact ⟨g, key, e, rfl, hbegin, hnow⟩
          · exact Or.inr (Or.inl ⟨g, _, rfl, hblocking, heq⟩)
          · exact Or.inr (Or.inr ⟨g, key, e, rfl, hbegin, hnow, heq⟩)
    · refine Or.inl ⟨.operationNotAllowed, ?_, by simp, by simp⟩
      exact if_pos hset

end EventsSet

end CatraLibraries
