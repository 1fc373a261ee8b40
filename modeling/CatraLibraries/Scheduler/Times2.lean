/-
# Timers that throw

`Scheduler/src/Times2.cpp`, the successor of `Times.cpp`.  A `Times2` object is initialised by
its constructor, which throws a `runtime_error` where `Times::init` returns an error, and the
search of the next expiration says by a flag, `lastTimeout`, what it said by the error
`SCH_REACHED_LASTTIMEOUT`.  Everything else was copied; the lines that only read a field of the
schedule, compute on dates or touch no member are the definitions of `Times` here too.

The members that the constructors leave unset keep what the storage of the object held before,
and the locals of `isExpiredTime` keep it where the clock cannot be read.
-/
import CatraLibraries.Scheduler.Periodic

namespace CatraLibraries

open Memory Stdio JumpSearch

/-- `runtime_error`, with its text. -/
structure RuntimeError where
  what : String
  deriving DecidableEq, Repr

/-- `TimesStatus_t` of `Times2`. -/
inductive Times2Status
  | schTimesInitialized | schTimesStarted
  deriving DecidableEq, Repr

/-- The errors that the methods of `Times2` return. -/
inductive Times2Error
  | schOperationNotAllowed (status : Times2Status)
  | schSscanfFailed
  | schTimesAddSecondsToDateTimeFailed
  | schTimesUpdateNextPeriodicExpirationDateTimeFailed
  | toolsDateTimeAddSecondsFailed
  | toolsDateTimeGetTmLocalTimeFailed
  deriving DecidableEq, Repr

/-- How a method fails. -/
inductive Times2Failure
  | returned (err : Times2Error)
  | thrown (e : RuntimeError)
  deriving DecidableEq, Repr

/-- A `Times2` object. -/
structure Times2 where
  schTimesStatus : Times2Status
  ttTimesType : TimesType
  className : List Char
  ulPeriodInMilliSeconds : Nat
  pCalendarSchedule : List Char
  bNextDaylightSavingTime : Bool
  pNextExpirationDateTime : List Char
  bCurrentDaylightSavingTime : Bool
  pCurrentExpirationDateTime : List Char
  deriving DecidableEq, Repr

namespace Times2

def wrongParameter : RuntimeError := ⟨"Wrong parameter"⟩

def sscanfFailed : RuntimeError := ⟨"sscanf failed"⟩

def localtimeRFailed : RuntimeError := ⟨"localtime_r failed"⟩

def strtokRFailed : RuntimeError := ⟨"strtok_r failed"⟩

/-! ### The constructors -/

/-- A check; where it fails, the constructor throws. -/
def require (b : Bool) : Except RuntimeError Unit :=
  if b then .ok () else .error wrongParameter

/-- The next token of `strtok_r`. -/
def nextToken : List (List Char) → Except RuntimeError (List Char × List (List Char))
  | [] => .error wrongParameter
  | pScheduleToken :: tokens => .ok (pScheduleToken, tokens)

/-- The values of a list, one after the other. -/
def checkList (min max : Int) : List Int → Except RuntimeError Unit
  | [] => .ok ()
  | lValue :: values => do
    require (min ≤ lValue ∧ lValue ≤ max)
    checkList min max values

/-- The range check of one field. -/
def checkField (min max : Int) : Field → Except RuntimeError Unit
  | .list values => checkList min max values
  | .range lValueFrom lValueTo => do
    require (min ≤ lValueFrom ∧ lValueFrom ≤ lValueTo)
    require (lValueTo ≤ max)
  | .value lValue => require (min ≤ lValue ∧ lValue ≤ max)
  | .star => .ok ()

/-- The check "we have a loop". -/
def checkLoop (pYear : List Char) (month : Int) : Field → Except RuntimeError Unit
  | .list values => require (¬(pYear = ['*'] ∧ month = 2 ∧ ¬values.any (· ≤ 30)))
  | .range lValueFrom lValueTo =>
    require (¬(pYear = ['*'] ∧ month = 2 ∧ lValueFrom = 30 ∧ lValueTo = 31))
  | .value lMonthDay => require (¬(pYear = ['*'] ∧ month = 2 ∧ lMonthDay = 30))
  | .star => .ok ()

/-- The block "check range values". -/
def checkRangeValues (schedule : List Char) : Except RuntimeError Unit := do
  let (pYear, tokens) ← nextToken (strtok ' ' schedule)
  let (pMonth, tokens) ← nextToken tokens
  checkField 1 12 (readField pMonth)
  let (pMonthday, tokens) ← nextToken tokens
  checkField 1 31 (readField pMonthday)
  checkLoop pYear (lMonth (readField pMonth)) (readField pMonthday)
  let (pWeekday, tokens) ← nextToken tokens
  checkField 0 6 (readField pWeekday)
  let (pHour, tokens) ← nextToken tokens
  checkField 0 23 (readField pHour)
  let (pMinute, tokens) ← nextToken tokens
  checkField 0 59 (readField pMinute)
  let (pSecond, _) ← nextToken tokens
  checkField 0 59 (readField pSecond)

/-- The checks on the parameter `schedule`. -/
def checkSchedule (schedule : List Char) : Except RuntimeError Unit := do
  require (schedule.length ≤ maxScheduleLength - 1)
  require (schedule.all isScheduleChar)
  require (schedule.count ' ' = 6)
  checkRangeValues schedule

/-- `Times2 (schedule, className)`. -/
def ofSchedule (storage : Times2) (schedule className : List Char) : Except RuntimeError Times2 := do
  checkSchedule schedule
  return { storage with
    pCalendarSchedule := schedule
    ttTimesType := .schTypeCalendar
    pCurrentExpirationDateTime := []
    pNextExpirationDateTime := []
    className := className
    schTimesStatus := .schTimesInitialized }

/-- `Times2 (ulPeriodInMilliSeconds, className)`. -/
def ofPeriod (storage : Times2) (ulPeriodInMilliSeconds : Nat) (className : List Char) : Times2 :=
  { storage with
    ulPeriodInMilliSeconds := ulPeriodInMilliSeconds
    ttTimesType := .schTypePeriodic
    pCurrentExpirationDateTime := []
    pNextExpirationDateTime := []
    className := className
    schTimesStatus := .schTimesInitialized }

/-! ### One pass of the search -/

/-- How the search stops without a date. -/
inductive Stop
  | lastTimeout
  | thrown (e : RuntimeError)
  deriving DecidableEq

/-- `localtime_r (&lUtcTime, &tmNextExpirationDateTime)`, then `continue`. -/
def continueAt (libc : Libc) (lUtcTime : Int) : Pass Tm Stop :=
  match libc.localtimeR lUtcTime with
  | none => .fail (.thrown localtimeRFailed)
  | some tm => .again tm

/-- The first day of the next year. -/
def nextYear (libc : Libc) (tm : Tm) : Pass Tm Stop :=
  continueAt libc (libc.mktime
    { tm with
      tmYear := tm.tmYear + 1
      tmMon := 0
      tmMday := 1
      tmHour := 0
      tmMin := 0
      tmSec := 0
      tmIsdst := -1 })

/-- The test of the year; `none` when it matches. -/
def yearPass (libc : Libc) (tm : Tm) : Field → Option (Pass Tm Stop)
  | .list values =>
    let (bIsYearValid, lMaxYear) := listYears (tm.tmYear + 1900) (-1) values
    if bIsYearValid then none
    else if lMaxYear < tm.tmYear + 1900 then some (.fail .lastTimeout)
    else some (nextYear libc tm)
  | .range lValueFrom lValueTo =>
    if lValueFrom ≤ tm.tmYear + 1900 ∧ tm.tmYear + 1900 ≤ lValueTo then none
    else if lValueTo < tm.tmYear + 1900 then some (.fail .lastTimeout)
    else some (nextYear libc tm)
  | .value lYear =>
    if lYear = tm.tmYear + 1900 then none
    else if lYear < tm.tmYear + 1900 then some (.fail .lastTimeout)
    else some (nextYear libc tm)
  | .star => none

/-- The first day of the next month. -/
def nextMonth (libc : Libc) (tm : Tm) : Pass Tm Stop :=
  let (tmMon, tmYear) :=
    if tm.tmMon = 11 then (0, tm.tmYear + 1) else (tm.tmMon + 1, tm.tmYear)
  continueAt libc (libc.mktime
    { tm with
      tmYear := tmYear
      tmMon := tmMon
      tmMday := 1
      tmHour := 0
      tmMin := 0
      tmSec := 0
      tmIsdst := -1 })

/-- The test of the month. -/
def monthPass (libc : Libc) (tm : Tm) (month : Field) : Option (Pass Tm Stop) :=
  if month.holds (tm.tmMon + 1) then none else some (nextMonth libc tm)

/-- "add 1 day". -/
def nextDay (libc : Libc) (tm : Tm) : Pass Tm Stop :=
  let lUtcTime := libc.mktime
    { tm with
      tmHour := 0
      tmMin := 0
      tmSec := 0
      tmIsdst := -1 } + 60 * 60 * 24
  match libc.localtimeR lUtcTime with
  | none => .fail (.thrown localtimeRFailed)
  | some tm =>
    if tm.tmHour = 0 then .again tm
    else if tm.tmHour = 23 then continueAt libc (lUtcTime + 60 * 60)
    else if tm.tmHour = 1 then continueAt libc (lUtcTime - 60 * 60)
    else .fail (.thrown localtimeRFailed)

/-- The test of the day. -/
def dayPass (libc : Libc) (tm : Tm) (monthday weekday : Field) : Option (Pass Tm Stop) :=
  if isNecessaryAddDay tm monthday weekday then some (nextDay libc tm) else none

/-- "add 1 hour". -/
def nextHour (libc : Libc) (tm : Tm) : Pass Tm Stop :=
  let lUtcTime := libc.mktime
    { tm with
      tmMin := 0
      tmSec := 0
      tmIsdst := -1 } + 60 * 60
  match libc.localtimeR lUtcTime with
  | none => .fail (.thrown localtimeRFailed)
  | some tm' =>
    if tm.tmHour = tm'.tmHour then continueAt libc (lUtcTime + 60 * 60) else .again tm'

/-- The test of the hour. -/
def hourPass (libc : Libc) (tm : Tm) (hour : Field) : Option (Pass Tm Stop) :=
  if hour.holds tm.tmHour then none else some (nextHour libc tm)

/-- The test of the minute. -/
def minutePass (libc : Libc) (tm : Tm) (minute : Field) : Option (Pass Tm Stop) :=
  if minute.holds tm.tmMin then none
  else some (continueAt libc (libc.mktime
    { tm with
      tmSec := 0
      tmIsdst := -1 } + 60))

/-- The test of the second. -/
def secondPass (libc : Libc) (tm : Tm) (second : Field) : Option (Pass Tm Stop) :=
  if second.holds tm.tmSec then none
  else some (continueAt libc (libc.mktime
    { tm with
      tmIsdst := -1 } + 1))

/-- The next field of the schedule, read where the loop comes to it. -/
def onField (tokens : List (List Char)) (k : Field → List (List Char) → Pass Tm Stop) :
    Pass Tm Stop :=
  match tokens with
  | [] => .fail (.thrown strtokRFailed)
  | pScheduleToken :: tokens => k (readField pScheduleToken) tokens

/-- One pass through the loop. -/
def searchBody (libc : Libc) (pCalendarSchedule : List Char) (tm : Tm) : Pass Tm Stop :=
  onField (strtok ' ' pCalendarSchedule) fun year tokens =>
  (yearPass libc tm year).getD <|
  onField tokens fun month tokens =>
  (monthPass libc tm month).getD <|
  onField tokens fun monthday tokens =>
  onField tokens fun weekday tokens =>
  (dayPass libc tm monthday weekday).getD <|
  onField tokens fun hour tokens =>
  (hourPass libc tm hour).getD <|
  onField tokens fun minute tokens =>
  (minutePass libc tm minute).getD <|
  onField tokens fun second _ =>
  (secondPass libc tm second).getD <|
  .done tm

/-! ### The next expiration -/

/-- Where the search begins. -/
def searchStart (libc : Libc) (t : Times2) : Except RuntimeError (Tm × Nat) :=
  match scanDateTime t.pCurrentExpirationDateTime with
  | none => .error sscanfFailed
  | some (tm, ulMilliSeconds) =>
    match libc.localtimeR (libc.mktime
      { tm with
        tmIsdst := t.bCurrentDaylightSavingTime.toInt }) with
    | none => .error localtimeRFailed
    | some tm =>
      match libc.localtimeR (libc.mktime tm + 1) with
      | none => .error localtimeRFailed
      | some tm => .ok (tm, ulMilliSeconds)

/-- `updateNextCalendarExpirationDateTime`, which gives the flag `lastTimeout`. -/
def updateNextCalendarExpirationDateTime (libc : Libc) (fuel : Nat) (t : Times2) :
    Except Fault (Except RuntimeError Bool × Times2) :=
  match t.searchStart libc with
  | .error e => .ok (.error e, t)
  | .ok (tm, ulMilliSeconds) =>
    match loop (searchBody libc t.pCalendarSchedule) fuel tm with
    | .error fault => .error fault
    | .ok (.error (.thrown e)) => .ok (.error e, t)
    | .ok (.error .lastTimeout) => .ok (.ok true, t)
    | .ok (.ok tm) =>
      let text := printDateTime tm ulMilliSeconds
      if maxDateLength - 1 < text.length then .error .outOfBounds
      else
        .ok (.ok false,
          { t with
            pNextExpirationDateTime := text
            bNextDaylightSavingTime := tm.tmIsdst ≠ 0 })

/-- `updateNextPeriodicExpirationDateTime`. -/
def updateNextPeriodicExpirationDateTime (libc : Libc) (t : Times2) :
    Except Fault (Except Times2Error Unit × Times2) := do
  match ← addMilliSecondsToDateTime libc t.pCurrentExpirationDateTime
      t.bCurrentDaylightSavingTime.toInt t.ulPeriodInMilliSeconds with
  | .error _ => return (.error .schTimesAddSecondsToDateTimeFailed, t)
  | .ok (text, bNextDaylightSavingTime) =>
    return (.ok (),
      { t with
        pNextExpirationDateTime := text
        bNextDaylightSavingTime := bNextDaylightSavingTime })

/-! ### The methods -/

/-- The current expiration that `start` sets: the given date, or the time of the clock. -/
def startDateTime (libc : Libc) (now : Option (Int × Nat)) (pStartDateTime : Option (List Char))
    (t : Times2) : Except Fault (Except Times2Error Unit × Times2) :=
  match pStartDateTime with
  | some pStartDateTime =>
    match scanUlDateTime pStartDateTime with
    | none => .ok (.error .schSscanfFailed, t)
    | some (src, ulSrcMilliSeconds) =>
      match addSeconds libc src (-1) 0 with
      | .error _ => .ok (.error .toolsDateTimeAddSecondsFailed, t)
      | .ok (dest, bCurrentDaylightSavingTime) => do
        let text ← dateText (printUlDateTime dest ulSrcMilliSeconds)
        return (.ok (),
          { t with
            pCurrentExpirationDateTime := text
            bCurrentDaylightSavingTime := bCurrentDaylightSavingTime })
  | none =>
    match getTmLocalTime libc now with
    | none => .ok (.error .toolsDateTimeGetTmLocalTimeFailed, t)
    | some (tmDateTime, ulMilliSecs) => do
      let text ← dateText (printDateTime tmDateTime ulMilliSecs)
      return (.ok (),
        { t with
          bCurrentDaylightSavingTime := tmDateTime.tmIsdst = 1
          pCurrentExpirationDateTime := text })

/-- `start`. -/
def start (libc : Libc) (fuel : Nat) (now : Option (Int × Nat))
    (pStartDateTime : Option (List Char)) (t : Times2) :
    Except Fault (Except Times2Failure Unit × Times2) :=
  if t.schTimesStatus ≠ .schTimesInitialized then
    .ok (.error (.returned (.schOperationNotAllowed t.schTimesStatus)), t)
  else do
    match ← t.startDateTime libc now pStartDateTime with
    | (.error err, t) => return (.error (.returned err), t)
    | (.ok (), t) =>
      match t.ttTimesType with
      | .schTypePeriodic =>
        match ← t.updateNextPeriodicExpirationDateTime libc with
        | (.error _, t) =>
          return (.error (.returned .schTimesUpdateNextPeriodicExpirationDateTimeFailed), t)
        | (.ok (), t) => return (.ok (), { t with schTimesStatus := .schTimesStarted })
      | .schTypeCalendar =>
        match ← t.updateNextCalendarExpirationDateTime libc fuel with
        | (.error e, t) => return (.error (.thrown e), t)
        -- `lastTimeout` is a local that nothing reads
        | (.ok _, t) => return (.ok (), { t with schTimesStatus := .schTimesStarted })

/-- `stop`. -/
def stop (t : Times2) : Except Times2Error Unit × Times2 :=
  if t.schTimesStatus ≠ .schTimesStarted then (.error (.schOperationNotAllowed t.schTimesStatus), t)
  else (.ok (), { t with schTimesStatus := .schTimesInitialized })

/-- `updateNextExpirationDateTime`, which gives the flag `lastTimeout`. -/
def updateNextExpirationDateTime (libc : Libc) (fuel : Nat) (t : Times2) :
    Except Fault (Except Times2Failure Bool × Times2) :=
  if t.schTimesStatus ≠ .schTimesStarted then
    .ok (.error (.returned (.schOperationNotAllowed t.schTimesStatus)), t)
  else do
    let t :=
      { t with
        bCurrentDaylightSavingTime := t.bNextDaylightSavingTime
        pCurrentExpirationDateTime := t.pNextExpirationDateTime }
    match t.ttTimesType with
    | .schTypePeriodic =>
      match ← t.updateNextPeriodicExpirationDateTime libc with
      | (.error err, t) => return (.error (.returned err), t)
      | (.ok (), t) => return (.ok false, t)
    | .schTypeCalendar =>
      match ← t.updateNextCalendarExpirationDateTime libc fuel with
      | (.error e, t) => return (.error (.thrown e), t)
      | (.ok true, t) => return (.ok true, { t with schTimesStatus := .schTimesInitialized })
      | (.ok false, t) => return (.ok false, t)

/-- `isExpiredTime`, in any status; `locals` is what `tmDateTime` and `ulMilliSecs` hold where
the clock cannot be read. -/
def isExpiredTime (libc : Libc) (now : Option (Int × Nat)) (locals : Tm × Nat) (t : Times2) :
    Except Fault Bool :=
  let (tmDateTime, ulMilliSecs) := (getTmLocalTime libc now).getD locals
  if tmDateTime.tmIsdst = 1 ∧ t.bCurrentDaylightSavingTime ∧ ¬t.bNextDaylightSavingTime then
    .ok false
  else if tmDateTime.tmIsdst = 0 ∧ t.bCurrentDaylightSavingTime ∧ t.bNextDaylightSavingTime then
    .ok true
  else do
    let pDateTime ← dateText (printDateTime tmDateTime ulMilliSecs)
    return strcmpLe t.pNextExpirationDateTime pDateTime

end Times2

end CatraLibraries
