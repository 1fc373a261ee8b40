/-
# The next expiration of a calendar timer

`Times::updateNextCalendarExpirationDateTime` in `Scheduler/src/Times.cpp`: it reads the
current expiration, adds a second and then tests year, month, day, hour, minute and second
against the schedule.  The first field that does not match moves the date to the beginning
of the next year, month, day, hour, minute or second, and the test begins again with the
year.  `searchBody` is one pass through that loop, `searchLoop` the loop.

The date is kept in a `tm` of the C library, which is a parameter: `mktime` and
`localtime_r`.  `mktime` also normalises its argument, but everywhere `localtime_r` writes
the same `tm` anew before it is read again.
-/
import CatraLibraries.Lib.JumpSearch
import CatraLibraries.Scheduler.Times

namespace CatraLibraries

open Memory Stdio JumpSearch

/-- `struct tm`, the members that are used. -/
structure Tm where
  tmYear : Int
  tmMon : Int
  tmMday : Int
  tmHour : Int
  tmMin : Int
  tmSec : Int
  tmWday : Int
  tmIsdst : Int
  deriving DecidableEq, Repr

/-- The functions of `<time.h>`; `none` is the NULL of `localtime_r`. -/
structure Libc where
  mktime : Tm → Int
  localtimeR : Int → Option Tm

/-- The conversion of an `unsigned long` to an `int`. -/
def toInt (n : Nat) : Int := Int.bmod n (2 ^ 32)

/-- `sscanf (s, "%4lu-%2lu-%2lu %2lu:%2lu:%2lu:%4lu", ...)` and the assignments to the `tm`;
`none` when not all seven numbers are read.  The milliseconds come back as they are. -/
def scanDateTime (s : List Char) : Option (Tm × Nat) := do
  let (ulLocalYear, s) ← scanLu 4 s
  let s ← scanChar '-' s
  let (ulLocalMonth, s) ← scanLu 2 s
  let s ← scanChar '-' s
  let (ulLocalDay, s) ← scanLu 2 s
  let (ulLocalHour, s) ← scanLu 2 (s.dropWhile isspace)
  let s ← scanChar ':' s
  let (ulLocalMinutes, s) ← scanLu 2 s
  let s ← scanChar ':' s
  let (ulLocalSeconds, s) ← scanLu 2 s
  let s ← scanChar ':' s
  let (ulMilliSeconds, _) ← scanLu 4 s
  some (⟨toInt ulLocalYear - 1900, toInt ulLocalMonth - 1, toInt ulLocalDay, toInt ulLocalHour,
    toInt ulLocalMinutes, toInt ulLocalSeconds, 0, 0⟩, ulMilliSeconds)

/-- The conversion of an `int` to an `unsigned long`. -/
def toUnsignedLong (i : Int) : Nat := (i % 2 ^ 64).toNat

/-- The text that `sprintf` makes of a date. -/
def printDateTime (tm : Tm) (ulMilliSeconds : Nat) : List Char :=
  printLu 4 (toUnsignedLong (tm.tmYear + 1900)) ++ '-' :: printLu 2 (toUnsignedLong (tm.tmMon + 1))
    ++ '-' :: printLu 2 (toUnsignedLong tm.tmMday) ++ ' ' :: printLu 2 (toUnsignedLong tm.tmHour)
    ++ ':' :: printLu 2 (toUnsignedLong tm.tmMin) ++ ':' :: printLu 2 (toUnsignedLong tm.tmSec)
    ++ ':' :: printLu 4 ulMilliSeconds

/-! ### One pass of the search -/

/-- `localtime_r (&lUtcTime, &tmNextExpirationDateTime)`, then `continue`. -/
def continueAt (libc : Libc) (lUtcTime : Int) : Pass Tm SchedulerError :=
  match libc.localtimeR lUtcTime with
  | none => .fail .schLocaltimeRFailed
  | some tm => .again tm

/-- The first day of the next year. -/
def nextYear (libc : Libc) (tm : Tm) : Pass Tm SchedulerError :=
  continueAt libc (libc.mktime
    { tm with
      tmYear := tm.tmYear + 1
      tmMon := 0
      tmMday := 1
      tmHour := 0
      tmMin := 0
      tmSec := 0
      tmIsdst := -1 })

/-- The loop over the years of a list: whether the year is among them, and the greatest value
read before the loop ended. -/
def listYears (year lMaxYear : Int) : List Int → Bool × Int
  | [] => (false, lMaxYear)
  | lValue :: values =>
    if lValue = year then (true, max lMaxYear lValue)
    else listYears year (max lMaxYear lValue) values

/-- The test of the year; `none` when it matches. -/
def yearPass (libc : Libc) (tm : Tm) : Field → Option (Pass Tm SchedulerError)
  | .list values =>
    let (bIsYearValid, lMaxYear) := listYears (tm.tmYear + 1900) (-1) values
    if bIsYearValid then none
    else if lMaxYear < tm.tmYear + 1900 then some (.fail .schReachedLastTimeout)
    else some (nextYear libc tm)
  | .range lValueFrom lValueTo =>
    if lValueFrom ≤ tm.tmYear + 1900 ∧ tm.tmYear + 1900 ≤ lValueTo then none
    else if lValueTo < tm.tmYear + 1900 then some (.fail .schReachedLastTimeout)
    else some (nextYear libc tm)
  | .value lYear =>
    if lYear = tm.tmYear + 1900 then none
    else if lYear < tm.tmYear + 1900 then some (.fail .schReachedLastTimeout)
    else some (nextYear libc tm)
  | .star => none

/-- The first day of the next month. -/
def nextMonth (libc : Libc) (tm : Tm) : Pass Tm SchedulerError :=
  let (tmMon, tmYear) :=
    if tm.tmMon = 11 then (0, tm.tmYear + 1) else (tm.tmMon + 1, tm.tmYear)
  continueAt libc (libc.mktime
    { tm with
      tmYear := tmYear
      tmMon := tmMon
      tmMday := 1
      tmHour := 0
      tmMin := 0
      tmSec := 0
      tmIsdst := -1 })

/-- The test of the month. -/
def monthPass (libc : Libc) (tm : Tm) (month : Field) : Option (Pass Tm SchedulerError) :=
  if month.holds (tm.tmMon + 1) then none else some (nextMonth libc tm)

/-- "add 1 day": 24 hours after midnight, corrected by the hour that a change of the
daylight saving time makes them too many or too few. -/
def nextDay (libc : Libc) (tm : Tm) : Pass Tm SchedulerError :=
  let lUtcTime := libc.mktime
    { tm with
      tmHour := 0
      tmMin := 0
      tmSec := 0
      tmIsdst := -1 } + 60 * 60 * 24
  match libc.localtimeR lUtcTime with
  | none => .fail .schLocaltimeRFailed
  | some tm =>
    if tm.tmHour = 0 then .again tm
    else if tm.tmHour = 23 then continueAt libc (lUtcTime + 60 * 60)
    else if tm.tmHour = 1 then continueAt libc (lUtcTime - 60 * 60)
    else .fail .schLocaltimeRFailed

/-- `bIsNecessaryAddDay`, from the two fields of the day. -/
def isNecessaryAddDay (tm : Tm) (monthday weekday : Field) : Bool :=
  let bIsNecessaryAddDayForMonthDay := !monthday.holds tm.tmMday
  let bIsNecessaryAddDayForWeekDay := !weekday.holds tm.tmWday
  if monthday = .star ∧ weekday = .star then false
  else if monthday ≠ .star ∧ weekday = .star then bIsNecessaryAddDayForMonthDay
  else if monthday = .star ∧ weekday ≠ .star then bIsNecessaryAddDayForWeekDay
  else bIsNecessaryAddDayForMonthDay && bIsNecessaryAddDayForWeekDay

/-- The test of the day. -/
def dayPass (libc : Libc) (tm : Tm) (monthday weekday : Field) : Option (Pass Tm SchedulerError) :=
  if isNecessaryAddDay tm monthday weekday then some (nextDay libc tm) else none

/-- "add 1 hour", and one more when the clock was put back meanwhile. -/
def nextHour (libc : Libc) (tm : Tm) : Pass Tm SchedulerError :=
  let lUtcTime := libc.mktime
    { tm with
      tmMin := 0
      tmSec := 0
      tmIsdst := -1 } + 60 * 60
  match libc.localtimeR lUtcTime with
  | none => .fail .schLocaltimeRFailed
  | some tm' =>
    if tm.tmHour = tm'.tmHour then continueAt libc (lUtcTime + 60 * 60) else .again tm'

/-- The test of the hour. -/
def hourPass (libc : Libc) (tm : Tm) (hour : Field) : Option (Pass Tm SchedulerError) :=
  if hour.holds tm.tmHour then none else some (nextHour libc tm)

/-- The test of the minute. -/
def minutePass (libc : Libc) (tm : Tm) (minute : Field) : Option (Pass Tm SchedulerError) :=
  if minute.holds tm.tmMin then none
  else some (continueAt libc (libc.mktime
    { tm with
      tmSec := 0
      tmIsdst := -1 } + 60))

/-- The test of the second. -/
def secondPass (libc : Libc) (tm : Tm) (second : Field) : Option (Pass Tm SchedulerError) :=
  if second.holds tm.tmSec then none
  else some (continueAt libc (libc.mktime
    { tm with
      tmIsdst := -1 } + 1))

/-- The next field of the schedule, read where the loop comes to it. -/
def onField (tokens : List (List Char))
    (k : Field → List (List Char) → Pass Tm SchedulerError) : Pass Tm SchedulerError :=
  match tokens with
  | [] => .fail .schCalendarScheduleWrong
  | pScheduleToken :: tokens => k (readField pScheduleToken) tokens

/-- One pass through the loop. -/
def searchBody (libc : Libc) (pCalendarSchedule : List Char) (tm : Tm) :
    Pass Tm SchedulerError :=
  onField (strtok ' ' pCalendarSchedule) fun year tokens =>
  (yearPass libc tm year).getD <|
  onField tokens fun month tokens =>
  (monthPass libc tm month).getD <|
  onField tokens fun monthday tokens =>
  onField tokens fun weekday tokens =>
  (dayPass libc tm monthday weekday).getD <|
  onField tokens fun hour tokens =>
  (hourPass libc tm hour).getD <|
  onField tokens fun minute tokens =>
  (minutePass libc tm minute).getD <|
  onField tokens fun second _ =>
  (secondPass libc tm second).getD <|
  .done tm

/-- The loop `while (!bIsDateTimeValid)`. -/
def searchLoop (libc : Libc) (pCalendarSchedule : List Char) (fuel : Nat) (tm : Tm) :
    Except Fault (Except SchedulerError Tm) :=
  loop (searchBody libc pCalendarSchedule) fuel tm

/-! ### updateNextCalendarExpirationDateTime -/

namespace Times

/-- Where the search begins: the second after the current expiration, and the milliseconds
that were read with it. -/
def searchStart (libc : Libc) (t : Times) : Except SchedulerError (Tm × Nat) :=
  match scanDateTime t.pCurrentExpirationDateTime with
  | none => .error .schSscanfFailed
  | some (tm, ulMilliSeconds) =>
    match libc.localtimeR (libc.mktime
      { tm with
        tmIsdst := t.bCurrentDaylightSavingTime.toInt }) with
    | none => .error .schLocaltimeRFailed
    | some tm =>
      match libc.localtimeR (libc.mktime tm + 1) with
      | none => .error .schLocaltimeRFailed
      | some tm => .ok (tm, ulMilliSeconds)

/-- `updateNextCalendarExpirationDateTime`.  A date whose text does not fit into
`_pNextExpirationDateTime` is written past its end. -/
def updateNextCalendarExpirationDateTime (libc : Libc) (fuel : Nat) (t : Times) :
    Except Fault (Except SchedulerError Unit × Times) :=
  match t.searchStart libc with
  | .error e => .ok (.error e, t)
  | .ok (tm, ulMilliSeconds) =>
    match searchLoop libc t.pCalendarSchedule fuel tm with
    | .error fault => .error fault
    | .ok (.error e) => .ok (.error e, t)
    | .ok (.ok tm) =>
      let text := printDateTime tm ulMilliSeconds
      if maxDateLength - 1 < text.length then .error .outOfBounds
      else
        .ok (.ok (),
          { t with
            pNextExpirationDateTime := text
            bNextDaylightSavingTime := tm.tmIsdst ≠ 0 })

end Times

end CatraLibraries
