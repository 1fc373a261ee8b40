/-
# The two schedulers

`Scheduler/src/Scheduler.cpp` and its replacement `Scheduler2.cpp`: the list of the active
`Times` objects, and the pass `handleTimes` that asks each of them whether it has expired and
calls its `handleTimeOut`.

An object is its address, 0 for NULL.  `_mtSchedulerMutex` is recursive; of it the number of
locks that the calling thread holds is kept.  Locking does not fail, and unlocking fails only
where no lock is held; the code does not look at that failure.  What an object answers during a
pass is given by a `Visit`: the results of its methods, and the calls to the scheduler that its
`handleTimeOut` makes.  The two passes differ only in how errors are reported, so the pass is
written once, over a `TimesRegistry`, the operations that it uses.
-/
import CatraLibraries.Lib.Memory
import Mathlib.Data.List.Basic

namespace CatraLibraries

open Memory

/-- `Times_p` and `shared_ptr<Times2>`: the address, 0 for NULL. -/
abbrev TimesP := Nat

/-- `SchedulerStatus_t`. -/
inductive SchedulerStatus
  | schedulerBuilded | schedulerInitialized | schedulerStarted | schedulerSuspended
  deriving DecidableEq, Repr

/-- The codes of `SchedulerErrors.h` that the methods of `Scheduler` report. -/
inductive SchedulerCode
  | schOperationNotAllowed (status : SchedulerStatus)
  | schActivationWrong
  | schTimesNotFound
  | schSchedulerTimesAlreadyActive
  | schSchedulerGetTimesPointerIndexFailed
  | schSchedulerDeactiveTimesFailed
  | schNewFailed
  | schTimesIsStartedFailed
  | schTimesIsExpiredTimeFailed
  | schTimesUpdateNextExpirationDateTimeFailed
  deriving DecidableEq, Repr

/-- What a method returns, and the object after it. -/
abbrev Reply (σ : Type) := Except SchedulerCode Unit × σ

/-! ### Scheduler -/

/-- The members of `Scheduler` that its list operations use.  `pTimesList` holds the first
`_ulTimesPointerNumber` cells of a block of `pTimesListSize` cells. -/
structure Scheduler where
  schedulerStatus : SchedulerStatus
  ulTimesPointerToAllocOnOverflow : Nat
  ulAllocatedTimesPointerNumber : Nat
  pTimesListSize : Nat
  pTimesList : List TimesP
  mtSchedulerMutex : Nat
  deriving DecidableEq, Repr

namespace Scheduler

def lock (s : Scheduler) : Scheduler :=
  { s with mtSchedulerMutex := s.mtSchedulerMutex + 1 }

def unLock (s : Scheduler) : Scheduler :=
  { s with mtSchedulerMutex := s.mtSchedulerMutex - 1 }

/-- `init`, up to the members of the thread. -/
def init (ulTimesPointerToAllocOnOverflow : Nat) : Scheduler where
  schedulerStatus := .schedulerInitialized
  ulTimesPointerToAllocOnOverflow := ulTimesPointerToAllocOnOverflow
  ulAllocatedTimesPointerNumber := ulTimesPointerToAllocOnOverflow
  pTimesListSize := ulTimesPointerToAllocOnOverflow
  pTimesList := []
  mtSchedulerMutex := 0

/-- `getTimesPointerIndex`: the index of the first cell with the object. -/
def getTimesPointerIndex (s : Scheduler) (pTimes : TimesP) : Except SchedulerCode Nat :=
  if s.schedulerStatus = .schedulerBuilded then
    .error (.schOperationNotAllowed s.schedulerStatus)
  else if pTimes = 0 then .error .schActivationWrong
  else
    match s.pTimesList.idxOf? pTimes with
    | none => .error .schTimesNotFound
    | some i => .ok i

/-- The new object is written behind the others. -/
def append (s : Scheduler) (pTimes : TimesP) : Except Fault Scheduler :=
  if s.pTimesList.length < s.pTimesListSize then
    .ok { s with pTimesList := s.pTimesList ++ [pTimes] }
  else .error .outOfBounds

/-- `activeTimes`; `newOk` says whether a longer array could be allocated. -/
def activeTimes (newOk : Bool) (pTimes : TimesP) (s : Scheduler) :
    Except Fault (Reply Scheduler) := do
  let s := s.lock
  if s.schedulerStatus = .schedulerBuilded then
    return (.error (.schOperationNotAllowed s.schedulerStatus), s.unLock)
  else if pTimes = 0 then return (.error .schActivationWrong, s.unLock)
  else
    match s.getTimesPointerIndex pTimes with
    | .ok _ => return (.error .schSchedulerTimesAlreadyActive, s.unLock)
    | .error _ =>
      if s.pTimesList.length = s.ulAllocatedTimesPointerNumber then
        let allocated := s.ulAllocatedTimesPointerNumber + s.ulTimesPointerToAllocOnOverflow
        let s := { s with ulAllocatedTimesPointerNumber := allocated }
        -- the new number stays when the allocation fails
        if ¬newOk then return (.error .schNewFailed, s.unLock)
        else
          let s ← append { s with pTimesListSize := allocated } pTimes
          return (.ok (), s.unLock)
      else
        let s ← s.append pTimes
        return (.ok (), s.unLock)

/-- `deactiveTimes (lTimesPointerIndex)`: the cells behind the index move down.  The first
check comes before the lock, but unlocks. -/
def deactiveTimesIndex (i : Int) (s : Scheduler) : Reply Scheduler :=
  if i < 0 ∨ s.pTimesList.length ≤ i then (.error .schActivationWrong, s.unLock)
  else
    let s := s.lock
    if s.schedulerStatus = .schedulerBuilded then
      (.error (.schOperationNotAllowed s.schedulerStatus), s.unLock)
    else
      let s := { s with pTimesList := s.pTimesList.eraseIdx i.toNat }
      (.ok (), s.unLock)

/-- `deactiveTimes (pTimes)`; the check of the pointer unlocks what was not locked. -/
def deactiveTimes (pTimes : TimesP) (s : Scheduler) : Reply Scheduler :=
  if pTimes = 0 then (.error .schActivationWrong, s.unLock)
  else
    let s := s.lock
    if s.schedulerStatus = .schedulerBuilded then
      (.error (.schOperationNotAllowed s.schedulerStatus), s.unLock)
    else
      match s.getTimesPointerIndex pTimes with
      | .error _ => (.error .schSchedulerGetTimesPointerIndexFailed, s.unLock)
      | .ok i =>
        match s.deactiveTimesIndex i with
        | (.error _, s) => (.error .schSchedulerDeactiveTimesFailed, s.unLock)
        | (.ok (), s) => (.ok (), s.unLock)

end Scheduler

/-! ### Scheduler2 -/

/-- The list of `Scheduler2`. -/
structure Scheduler2 where
  timesList : List TimesP
  deriving DecidableEq, Repr

namespace Scheduler2

/-- `getTimesPointerIndex`; `none` is the exception. -/
def getTimesPointerIndex (s : Scheduler2) (pTimes : TimesP) : Option Nat :=
  s.timesList.idxOf? pTimes

/-- `activeTimes`: the index is not used, and the exception for an object that is not in the
list is caught, so that the object is added in both cases. -/
def activeTimes (pTimes : TimesP) (s : Scheduler2) : Scheduler2 :=
  match s.getTimesPointerIndex pTimes with
  | some _ => { s with timesList := s.timesList ++ [pTimes] }
  | none => { s with timesList := s.timesList ++ [pTimes] }

/-- `deactiveTimes (lTimesPointerIndex)`; `false` is the exception. -/
def deactiveTimesIndex (i : Int) (s : Scheduler2) : Bool × Scheduler2 :=
  if i < 0 ∨ s.timesList.length ≤ i then (false, s)
  else (true, { s with timesList := s.timesList.eraseIdx i.toNat })

/-- `deactiveTimes (pTimes)`. -/
def deactiveTimes (pTimes : TimesP) (s : Scheduler2) : Bool × Scheduler2 :=
  match s.getTimesPointerIndex pTimes with
  | none => (false, s)
  | some i => s.deactiveTimesIndex i

end Scheduler2

/-! ### handleTimes -/

/-- What the pass needs of a scheduler: its list, the calls that `handleTimeOut` may make (their
results are for the caller), and the removal by index with its success. -/
structure TimesRegistry (σ : Type) where
  times : σ → List TimesP
  activeTimes : Bool → TimesP → σ → Except Fault σ
  deactiveTimes : TimesP → σ → σ
  deactiveTimesIndex : Int → σ → Bool × σ

def schedulerRegistry : TimesRegistry Scheduler where
  times s := s.pTimesList
  activeTimes newOk pTimes s := (s.activeTimes newOk pTimes).map (·.2)
  deactiveTimes pTimes s := (s.deactiveTimes pTimes).2
  deactiveTimesIndex i s :=
    match s.deactiveTimesIndex i with
    | (.ok (), s) => (true, s)
    | (.error _, s) => (false, s)

def scheduler2Registry : TimesRegistry Scheduler2 where
  times s := s.timesList
  activeTimes _ pTimes s := .ok (s.activeTimes pTimes)
  deactiveTimes pTimes s := (s.deactiveTimes pTimes).2
  deactiveTimesIndex i s := s.deactiveTimesIndex i

/-- The outcomes of `updateNextExpirationDateTime`. -/
inductive Update
  | updated | lastTimeout | failed
  deriving DecidableEq, Repr

/-- A call of `handleTimeOut` to the scheduler. -/
inductive Call
  | activeTimes (newOk : Bool) (pTimes : TimesP)
  | deactiveTimes (pTimes : TimesP)
  | deactiveTimesIndex (lTimesPointerIndex : Int)
  deriving DecidableEq, Repr

/-- What an object answers when the pass comes to it; `none` is an error. -/
structure Visit where
  isStarted : Option Bool
  isExpiredTime : Option Bool
  updateNextExpirationDateTime : Update
  calls : List Call
  handleTimeOut : Bool
  deriving DecidableEq, Repr

/-- How a pass ends. -/
inductive PassEnd
  | finished | isStartedFailed | isExpiredTimeFailed | updateFailed | deactiveTimesFailed
  deriving DecidableEq, Repr

namespace TimesRegistry

variable {σ : Type} (R : TimesRegistry σ)

/-- The calls that a `handleTimeOut` makes, one after the other. -/
def runCalls : List Call → σ → Except Fault σ
  | [], s => .ok s
  | .activeTimes newOk pTimes :: calls, s => do
    let s ← R.activeTimes newOk pTimes s
    runCalls calls s
  | .deactiveTimes pTimes :: calls, s => runCalls calls (R.deactiveTimes pTimes s)
  | .deactiveTimesIndex i :: calls, s => runCalls calls (R.deactiveTimesIndex i s).2

/-- What precedes the call of `handleTimeOut`. -/
inductive Before (σ : Type)
  | stop (r : PassEnd) (s : σ)
  | skip
  | call (s : σ) (bIsTimesDeactived : Bool)

/-- The questions to the object with the index `i`, and its removal at the last timeout. -/
def before (v : Visit) (i : Nat) (s : σ) : Before σ :=
  match v.isStarted with
  | none => .stop .isStartedFailed s
  | some false => .skip
  | some true =>
    match v.isExpiredTime with
    | none => .stop .isExpiredTimeFailed s
    | some false => .skip
    | some true =>
      match v.updateNextExpirationDateTime with
      | .updated => .call s false
      | .failed => .stop .updateFailed s
      | .lastTimeout =>
        match R.deactiveTimesIndex i s with
        | (true, s) => .call s true
        | (false, s) => .stop .deactiveTimesFailed s

/-- What follows the call: an object whose `handleTimeOut` failed is removed, unless it has
been removed before.  The result is the index of the next object. -/
def after (v : Visit) (i : Nat) (bIsTimesDeactived : Bool) (s : σ) : Except PassEnd Nat × σ :=
  if bIsTimesDeactived then (.ok i, s)
  else if v.handleTimeOut then (.ok (i + 1), s)
  else
    match R.deactiveTimesIndex i s with
    | (true, s) => (.ok i, s)
    | (false, s) => (.error .deactiveTimesFailed, s)

/-- The loop of the pass from the index `i` on; `visits` are the answers in the order in which
they are asked for, from the `k`-th on, and `handled` the objects whose `handleTimeOut` has
been called. -/
def pass (visits : Nat → Visit) : Nat → Nat → List TimesP → Nat → σ →
    Except Fault (PassEnd × List TimesP × σ)
  | 0, _, _, _, _ => .error .outOfFuel
  | fuel + 1, k, handled, i, s =>
    match (R.times s)[i]? with
    | none => .ok (.finished, handled, s)
    | some pTimes =>
      match R.before (visits k) i s with
      | .stop r s => .ok (r, handled, s)
      | .skip => pass visits fuel (k + 1) handled (i + 1) s
      | .call s bIsTimesDeactived =>
        match R.runCalls (visits k).calls s with
        | .error fault => .error fault
        | .ok s =>
          match R.after (visits k) i bIsTimesDeactived s with
          | (.error r, s) => .ok (r, handled ++ [pTimes], s)
          | (.ok i, s) => pass visits fuel (k + 1) (handled ++ [pTimes]) i s

end TimesRegistry

/-- `Scheduler::handleTimes`; the objects handled are part of the result. -/
def Scheduler.handleTimes (visits : Nat → Visit) (fuel : Nat) (s : Scheduler) :
    Except Fault (Except SchedulerCode Unit × List TimesP × Scheduler) := do
  let (r, handled, s) ← schedulerRegistry.pass visits fuel 0 [] 0 s.lock
  let code : Except SchedulerCode Unit :=
    match r with
    | .finished => .ok ()
    | .isStartedFailed => .error .schTimesIsStartedFailed
    | .isExpiredTimeFailed => .error .schTimesIsExpiredTimeFailed
    | .updateFailed => .error .schTimesUpdateNextExpirationDateTimeFailed
    | .deactiveTimesFailed => .error .schSchedulerDeactiveTimesFailed
  return (code, handled, s.unLock)

/-- `Scheduler2::handleTimes`; `false` is an exception that leaves it. -/
def Scheduler2.handleTimes (visits : Nat → Visit) (fuel : Nat) (s : Scheduler2) :
    Except Fault (Bool × List TimesP × Scheduler2) := do
  let (r, handled, s) ← scheduler2Registry.pass visits fuel 0 [] 0 s
  return (r = .finished, handled, s)

end CatraLibraries
