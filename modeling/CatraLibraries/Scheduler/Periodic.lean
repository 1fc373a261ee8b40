/-
# Periodic timers

The other part of `Scheduler/src/Times.cpp`: a `Times` object with a period in milliseconds,
and the methods that periodic and calendar timers share: `start`,
`updateNextExpirationDateTime` and `isExpiredTime`.  The next expiration is the current one plus
the period, carried from text to text by `DateTime::addSeconds` of `Tools/src/DateTime.cpp`.

The clock is a parameter: the second since 1970 and the millisecond that `gettimeofday` gives,
`none` where it fails.
-/
import CatraLibraries.Scheduler.NextExpiration

namespace CatraLibraries

open Memory Stdio

/-! ### Dates as numbers -/

/-- The numbers that `sscanf` reads of a date. -/
structure UlDateTime where
  ulYear : Nat
  ulMonth : Nat
  ulDay : Nat
  ulHour : Nat
  ulMinutes : Nat
  ulSeconds : Nat
  deriving DecidableEq, Repr

/-- `sscanf (s, "%4lu-%2lu-%2lu %2lu:%2lu:%2lu:%4lu", ...)`, with the milliseconds. -/
def scanUlDateTime (s : List Char) : Option (UlDateTime × Nat) := do
  let (ulYear, s) ← scanLu 4 s
  let s ← scanChar '-' s
  let (ulMonth, s) ← scanLu 2 s
  let s ← scanChar '-' s
  let (ulDay, s) ← scanLu 2 s
  let (ulHour, s) ← scanLu 2 (s.dropWhile isspace)
  let s ← scanChar ':' s
  let (ulMinutes, s) ← scanLu 2 s
  let s ← scanChar ':' s
  let (ulSeconds, s) ← scanLu 2 s
  let s ← scanChar ':' s
  let (ulMilliSeconds, _) ← scanLu 4 s
  some (⟨ulYear, ulMonth, ulDay, ulHour, ulMinutes, ulSeconds⟩, ulMilliSeconds)

/-- `sprintf` with "%04lu-%02lu-%02lu %02lu:%02lu:%02lu:%04lu". -/
def printUlDateTime (d : UlDateTime) (ulMilliSeconds : Nat) : List Char :=
  printLu 4 d.ulYear ++ '-' :: printLu 2 d.ulMonth ++ '-' :: printLu 2 d.ulDay ++ ' ' ::
    printLu 2 d.ulHour ++ ':' :: printLu 2 d.ulMinutes ++ ':' :: printLu 2 d.ulSeconds ++ ':' ::
    printLu 4 ulMilliSeconds

/-- The text in an array of `SCH_MAXDATELENGTH` characters. -/
def dateText (text : List Char) : Except Fault (List Char) :=
  if maxDateLength - 1 < text.length then .error .outOfBounds else .ok text

/-- The assignments of the numbers to a `tm`. -/
def UlDateTime.toTm (d : UlDateTime) (tmIsdst : Int) : Tm where
  tmYear := toInt d.ulYear - 1900
  tmMon := toInt d.ulMonth - 1
  tmMday := toInt d.ulDay
  tmHour := toInt d.ulHour
  tmMin := toInt d.ulMinutes
  tmSec := toInt d.ulSeconds
  tmWday := 0
  tmIsdst := tmIsdst

/-- The assignments of a `tm` to the numbers. -/
def Tm.toUlDateTime (tm : Tm) : UlDateTime where
  ulYear := toUnsignedLong (tm.tmYear + 1900)
  ulMonth := toUnsignedLong (tm.tmMon + 1)
  ulDay := toUnsignedLong tm.tmMday
  ulHour := toUnsignedLong tm.tmHour
  ulMinutes := toUnsignedLong tm.tmMin
  ulSeconds := toUnsignedLong tm.tmSec

/-- `DateTime::addSeconds`.  Where there is nothing to add, the numbers and the flag are handed
on as they are, the flag as a `bool`. -/
def addSeconds (libc : Libc) (src : UlDateTime) (lSrcDaylightSavingTime llSecondsToAdd : Int) :
    Except SchedulerError (UlDateTime × Bool) :=
  if llSecondsToAdd = 0 then .ok (src, lSrcDaylightSavingTime ≠ 0)
  else
    match libc.localtimeR (libc.mktime (src.toTm lSrcDaylightSavingTime) + llSecondsToAdd) with
    | none => .error .schLocaltimeRFailed
    | some tm => .ok (tm.toUlDateTime, tm.tmIsdst = 1)

/-- `DateTime::get_tm_LocalTime`. -/
def getTmLocalTime (libc : Libc) (now : Option (Int × Nat)) : Option (Tm × Nat) := do
  let (second, ulMilliSecs) ← now
  let tm ← libc.localtimeR second
  some (tm, ulMilliSecs)

/-- `addMilliSecondsToDateTime`; the sum of the milliseconds is an `unsigned long`. -/
def addMilliSecondsToDateTime (libc : Libc) (pCurrentDateTime : List Char)
    (lCurrentDaylightSavingTime : Int) (ulMilliSeconds : Nat) :
    Except Fault (Except SchedulerError (List Char × Bool)) :=
  match scanUlDateTime pCurrentDateTime with
  | none => .ok (.error .schSscanfFailed)
  | some (current, ulCurrentMilliSeconds) =>
    let sum : Nat := (ulCurrentMilliSeconds + ulMilliSeconds) % 2 ^ 64
    let ulSecondsToAdd : Nat := sum / 1000
    match addSeconds libc current lCurrentDaylightSavingTime ulSecondsToAdd with
    | .error _ => .ok (.error .toolsDateTimeAddSecondsFailed)
    | .ok (next, bNextDaylightSavingTime) => do
      let text ← dateText (printUlDateTime next (sum - ulSecondsToAdd * 1000))
      return .ok (text, bNextDaylightSavingTime)

/-! ### The object -/

/-- A `Times` object with the member that its periodic methods use. -/
structure PeriodicTimes extends Times where
  ulPeriodInMilliSeconds : Nat
  deriving DecidableEq, Repr

namespace PeriodicTimes

/-- `init (ulPeriodInMilliSeconds, pClassName)`; `mutexInit` says whether the mutex could be
initialised. -/
def init (mutexInit : Bool) (ulPeriodInMilliSeconds : Nat) (pClassName : Option (List Char))
    (t : PeriodicTimes) : Except SchedulerError Unit × PeriodicTimes :=
  if t.schTimesStatus ≠ .schTimesBuilded then
    (.error (.schOperationNotAllowed t.schTimesStatus), t)
  else
    let t :=
      { t with
        ulPeriodInMilliSeconds := ulPeriodInMilliSeconds
        ttTimesType := .schTypePeriodic
        pCurrentExpirationDateTime := []
        pNextExpirationDateTime := [] }
    if ¬mutexInit then (.error .threadlibPmutexInitFailed, t)
    else
      let name := pClassName.getD []
      if maxClassNameLength - 1 < name.length then (.error .schClassNameTooLong, t)
      else
        (.ok (),
          { t with
            pClassName := name
            schTimesStatus := .schTimesInitialized })

/-- `updateNextPeriodicExpirationDateTime`. -/
def updateNextPeriodicExpirationDateTime (libc : Libc) (t : PeriodicTimes) :
    Except Fault (Except SchedulerError Unit × PeriodicTimes) := do
  match ← addMilliSecondsToDateTime libc t.pCurrentExpirationDateTime
      t.bCurrentDaylightSavingTime.toInt t.ulPeriodInMilliSeconds with
  | .error _ => return (.error .schTimesAddSecondsToDateTimeFailed, t)
  | .ok (text, bNextDaylightSavingTime) =>
    return (.ok (),
      { t with
        pNextExpirationDateTime := text
        bNextDaylightSavingTime := bNextDaylightSavingTime })

/-- `updateNextCalendarExpirationDateTime`, on the members that it uses. -/
def updateNextCalendarExpirationDateTime (libc : Libc) (fuel : Nat) (t : PeriodicTimes) :
    Except Fault (Except SchedulerError Unit × PeriodicTimes) := do
  let (r, times) ← t.toTimes.updateNextCalendarExpirationDateTime libc fuel
  return (r, { t with toTimes := times })

/-- The current expiration that `start` sets: the given date, or the time of the clock. -/
def startDateTime (libc : Libc) (now : Option (Int × Nat)) (pStartDateTime : Option (List Char))
    (t : PeriodicTimes) : Except Fault (Except SchedulerError Unit × PeriodicTimes) :=
  match pStartDateTime with
  | some pStartDateTime =>
    match scanUlDateTime pStartDateTime with
    | none => .ok (.error .schSscanfFailed, t)
    | some (src, ulSrcMilliSeconds) =>
      match addSeconds libc src (-1) 0 with
      | .error _ => .ok (.error .toolsDateTimeAddSecondsFailed, t)
      | .ok (dest, bCurrentDaylightSavingTime) => do
        let text ← dateText (printUlDateTime dest ulSrcMilliSeconds)
        return (.ok (),
          { t with
            pCurrentExpirationDateTime := text
            bCurrentDaylightSavingTime := bCurrentDaylightSavingTime })
  | none =>
    match getTmLocalTime libc now with
    | none => .ok (.error .toolsDateTimeGetTmLocalTimeFailed, t)
    | some (tmDateTime, ulMilliSecs) => do
      let text ← dateText (printDateTime tmDateTime ulMilliSecs)
      return (.ok (),
        { t with
          bCurrentDaylightSavingTime := tmDateTime.tmIsdst = 1
          pCurrentExpirationDateTime := text })

/-- `start`. -/
def start (libc : Libc) (fuel : Nat) (now : Option (Int × Nat))
    (pStartDateTime : Option (List Char)) (t : PeriodicTimes) :
    Except Fault (Except SchedulerError Unit × PeriodicTimes) :=
  if t.schTimesStatus ≠ .schTimesInitialized then
    .ok (.error (.schOperationNotAllowed t.schTimesStatus), t)
  else do
    match ← t.startDateTime libc now pStartDateTime with
    | (.error e, t) => return (.error e, t)
    | (.ok (), t) =>
      match t.ttTimesType with
      | .schTypePeriodic =>
        match ← t.updateNextPeriodicExpirationDateTime libc with
        | (.error .schReachedLastTimeout, t) | (.ok (), t) =>
          return (.ok (), { t with schTimesStatus := .schTimesStarted })
        | (.error _, t) => return (.error .schTimesUpdateNextPeriodicExpirationDateTimeFailed, t)
      | .schTypeCalendar =>
        match ← t.updateNextCalendarExpirationDateTime libc fuel with
        | (.error e, t) => return (.error e, t)
        | (.ok (), t) => return (.ok (), { t with schTimesStatus := .schTimesStarted })

/-- `updateNextExpirationDateTime`: the next expiration becomes the current one. -/
def updateNextExpirationDateTime (libc : Libc) (fuel : Nat) (t : PeriodicTimes) :
    Except Fault (Except SchedulerError Unit × PeriodicTimes) :=
  if t.schTimesStatus ≠ .schTimesStarted then
    .ok (.error (.schOperationNotAllowed t.schTimesStatus), t)
  else do
    let t :=
      { t with
        bCurrentDaylightSavingTime := t.bNextDaylightSavingTime
        pCurrentExpirationDateTime := t.pNextExpirationDateTime }
    let (r, t) ←
      match t.ttTimesType with
      | .schTypePeriodic => t.updateNextPeriodicExpirationDateTime libc
      | .schTypeCalendar => t.updateNextCalendarExpirationDateTime libc fuel
    match r with
    | .error .schReachedLastTimeout =>
      return (r, { t with schTimesStatus := .schTimesInitialized })
    | _ => return (r, t)

/-- `stop`. -/
def stop (t : PeriodicTimes) : Except SchedulerError Unit × PeriodicTimes :=
  if t.schTimesStatus ≠ .schTimesStarted then (.error (.schOperationNotAllowed t.schTimesStatus), t)
  else (.ok (), { t with schTimesStatus := .schTimesInitialized })

/-- `isExpiredTime`: around the end of the daylight saving time by the flags, else by the text
of the clock. -/
def isExpiredTime (libc : Libc) (now : Option (Int × Nat)) (t : PeriodicTimes) :
    Except Fault (Except SchedulerError Bool) :=
  if t.schTimesStatus ≠ .schTimesStarted then
    .ok (.error (.schOperationNotAllowed t.schTimesStatus))
  else
    match getTmLocalTime libc now with
    | none => .ok (.error .toolsDateTimeGetTmLocalTimeFailed)
    | some (tmDateTime, ulMilliSecs) =>
      if tmDateTime.tmIsdst = 1 ∧ t.bCurrentDaylightSavingTime ∧ ¬t.bNextDaylightSavingTime then
        .ok (.ok false)
      else if tmDateTime.tmIsdst = 0 ∧ t.bCurrentDaylightSavingTime ∧ t.bNextDaylightSavingTime then
        .ok (.ok true)
      else do
        let pDateTime ← dateText (printDateTime tmDateTime ulMilliSecs)
        return .ok (strcmpLe t.pNextExpirationDateTime pDateTime)

end PeriodicTimes

/-- The shortcut of `addSeconds`. -/
theorem addSeconds_zero (libc : Libc) (src : UlDateTime) (lSrcDaylightSavingTime : Int) :
    addSeconds libc src lSrcDaylightSavingTime 0 = .ok (src, decide (lSrcDaylightSavingTime ≠ 0)) :=
  if_pos rfl

/-! ### The texts -/

/-- A `tm` and its numbers have the same text. -/
theorem printUlDateTime_toUlDateTime (tm : Tm) (ulMilliSeconds : Nat) :
    printUlDateTime tm.toUlDateTime ulMilliSeconds = printDateTime tm ulMilliSeconds := rfl

/-- Numbers that are printed in the width of their fields. -/
structure UlDateTime.Fits (d : UlDateTime) (ulMilliSeconds : Nat) : Prop where
  ulYear : d.ulYear < 10 ^ 4
  ulMonth : d.ulMonth < 10 ^ 2
  ulDay : d.ulDay < 10 ^ 2
  ulHour : d.ulHour < 10 ^ 2
  ulMinutes : d.ulMinutes < 10 ^ 2
  ulSeconds : d.ulSeconds < 10 ^ 2
  ulMilliSeconds : ulMilliSeconds < 10 ^ 4

variable {d : UlDateTime} {ulMilliSeconds : Nat}

theorem length_printUlDateTime (d : UlDateTime) (ulMilliSeconds : Nat) :
    (printUlDateTime d ulMilliSeconds).length = (printLu 4 d.ulYear).length
      + (printLu 2 d.ulMonth).length + (printLu 2 d.ulDay).length + (printLu 2 d.ulHour).length
      + (printLu 2 d.ulMinutes).length + (printLu 2 d.ulSeconds).length
      + (printLu 4 ulMilliSeconds).length + 6 := by
  unfold printUlDateTime
  simp only [List.length_append, List.length_cons]
  omega

/-- **A date fits into its array exactly when its numbers fit into their fields.** -/
theorem dateText_eq_ok {text : List Char} :
    dateText (printUlDateTime d ulMilliSeconds) = .ok text ↔
      d.Fits ulMilliSeconds ∧ text = printUlDateTime d ulMilliSeconds := by
  have hlen := length_printUlDateTime d ulMilliSeconds
  unfold dateText maxDateLength
  constructor
  · intro h
    split at h
    · exact absurd h (by simp)
    · next hle =>
      have h4 : ∀ n, 4 ≤ (printLu 4 n).length := le_length_printLu (by omega)
      have h2 : ∀ n, 2 ≤ (printLu 2 n).length := le_length_printLu (by omega)
      have hy := h4 d.ulYear
      have hmo := h2 d.ulMonth
      have hd := h2 d.ulDay
      have hh := h2 d.ulHour
      have hmi := h2 d.ulMinutes
      have hs := h2 d.ulSeconds
      have hms := h4 ulMilliSeconds
      have fits : ∀ {width n : Nat}, 0 < width → (printLu width n).length ≤ width →
          n < 10 ^ width := fun hw hle => by
        by_contra hge
        exact absurd (lt_length_printLu hw (Nat.not_lt.mp hge)) (Nat.not_lt.mpr hle)
      exact ⟨⟨fits (by omega) (by omega), fits (by omega) (by omega), fits (by omega) (by omega),
        fits (by omega) (by omega), fits (by omega) (by omega), fits (by omega) (by omega),
        fits (by omega) (by omega)⟩, (Except.ok.inj h).symm⟩
  · rintro ⟨h, rfl⟩
    rw [length_printLu (by omega) h.ulYear, length_printLu (by omega) h.ulMonth,
      length_printLu (by omega) h.ulDay, length_printLu (by omega) h.ulHour,
      length_printLu (by omega) h.ulMinutes, length_printLu (by omega) h.ulSeconds,
      length_printLu (by omega) h.ulMilliSeconds] at hlen
    rw [if_neg (by omega)]

/-- **The text of numbers that fit gives them back.** -/
theorem scanUlDateTime_printUlDateTime (h : d.Fits ulMilliSeconds) :
    scanUlDateTime (printUlDateTime d ulMilliSeconds) = some (d, ulMilliSeconds) := by
  have scan4 : ∀ {n : Nat} (rest : List Char), n < 10 ^ 4 →
      scanLu 4 (printLu 4 n ++ rest) = some (n, rest) := fun rest hn =>
    scanLu_printLu rest (by omega) hn (by omega)
  have scan2 : ∀ {n : Nat} (rest : List Char), n < 10 ^ 2 →
      scanLu 2 (printLu 2 n ++ rest) = some (n, rest) := fun rest hn =>
    scanLu_printLu rest (by omega) hn (by omega)
  have hmilli := @scanLu_printLu_end 4 _ (by omega) h.ulMilliSeconds
    (h.ulMilliSeconds.trans (by omega))
  have hhour := fun rest => (congrArg _ (dropWhile_blank_printLu 2 d.ulHour rest)).trans
    (scan2 rest h.ulHour)
  unfold printUlDateTime
  simp only [List.append_assoc, List.cons_append]
  -- one field after the other
  refine (bind_of_eq_some (scan4 _ h.ulYear) _).trans ?_
  refine (bind_of_eq_some (scanChar_self _ _) _).trans ?_
  refine (bind_of_eq_some (scan2 _ h.ulMonth) _).trans ?_
  refine (bind_of_eq_some (scanChar_self _ _) _).trans ?_
  refine (bind_of_eq_some (scan2 _ h.ulDay) _).trans ?_
  refine (bind_of_eq_some (hhour _) _).trans ?_
  refine (bind_of_eq_some (scanChar_self _ _) _).trans ?_
  refine (bind_of_eq_some (scan2 _ h.ulMinutes) _).trans ?_
  refine (bind_of_eq_some (scanChar_self _ _) _).trans ?_
  refine (bind_of_eq_some (scan2 _ h.ulSeconds) _).trans ?_
  refine (bind_of_eq_some (scanChar_self _ _) _).trans ?_
  exact bind_of_eq_some hmilli _

/-- The two ways to read a date agree. -/
theorem scanDateTime_eq (s : List Char) :
    scanDateTime s = (scanUlDateTime s).map fun r => (r.1.toTm 0, r.2) := by
  have hstep : ∀ {α β γ : Type} {x : Option α} {f : α → Option γ} {g : α → Option β} {k : β → γ},
      (∀ a, f a = (g a).map k) → (x >>= f) = (x >>= g).map k := by
    intro α β γ x f g k h
    cases x with
    | none => rfl
    | some a => exact h a
  unfold scanDateTime scanUlDateTime
  iterate 12 refine hstep fun _ => ?_
  rfl

end CatraLibraries
