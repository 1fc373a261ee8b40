/-
# Calendar timers

`Scheduler/src/Times.cpp`, the calendar part: a `Times` object keeps a schedule

    year month monthday weekday hour minute second

whose fields are a `*`, a value, a range `a-b` or a list of values `a,b,c`.  `init` checks a
schedule and stores it.  Both `init` and the search for the next expiration read a field with
the same lines, repeated for every field; here `readField` is those lines once, and a field
keeps its own definition where the lines that follow differ.

A `char *` is the list of its characters and NULL is `none`.  The mutex operations are
given by their outcome.
-/
import CatraLibraries.Lib.Memory
import CatraLibraries.Lib.Stdio

namespace CatraLibraries

open Memory Stdio

/-- `TimesStatus_t`. -/
inductive TimesStatus
  | schTimesBuilded | schTimesInitialized | schTimesStarted
  deriving DecidableEq, Repr

/-- `TimesType_t`. -/
inductive TimesType
  | schTypePeriodic | schTypeCalendar
  deriving DecidableEq, Repr

/-- The codes that the modelled functions report, most of them of `SchedulerErrors.h`, with the
arguments of their texts. -/
inductive SchedulerError
  | schOperationNotAllowed (status : TimesStatus)
  | schActivationWrong
  | schCalendarScheduleWrong
  | schScheduleFieldRangeWrong (value : Int) (field : String)
  | schClassNameTooLong
  | schSscanfFailed
  | schLocaltimeRFailed
  | schReachedLastTimeout
  | threadlibPmutexInitFailed
  | schTimesAddSecondsToDateTimeFailed
  | schTimesUpdateNextPeriodicExpirationDateTimeFailed
  | toolsDateTimeAddSecondsFailed
  | toolsDateTimeGetTmLocalTimeFailed
  deriving DecidableEq, Repr

/-- The members of a `Times` object that its calendar methods use. -/
structure Times where
  schTimesStatus : TimesStatus
  ttTimesType : TimesType
  pClassName : List Char
  pCalendarSchedule : List Char
  bNextDaylightSavingTime : Bool
  pNextExpirationDateTime : List Char
  bCurrentDaylightSavingTime : Bool
  pCurrentExpirationDateTime : List Char
  deriving DecidableEq, Repr

/-- `SCH_MAXCLASSNAMELENGTH`. -/
def maxClassNameLength : Nat := 256 + 1

/-- `SCH_MAXDATELENGTH`. -/
def maxDateLength : Nat := 24 + 1

/-- `SCH_MAXSCHEDULELENGTH`. -/
def maxScheduleLength : Nat := 256 + 1

/-! ### Reading a field -/

/-- What a token of the schedule says. -/
inductive Field
  | list (values : List Int)
  | range (valueFrom valueTo : Int)
  | value (v : Int)
  | star
  deriving DecidableEq, Repr

/-- The texts between the commas of a token; the loop ends when its pointer is at the NUL,
so nothing is read after a comma at the end.  `number` is the text read so far, backwards. -/
def listNumbers (number : List Char) : List Char → List (List Char)
  | [] => [number.reverse]
  | c :: s =>
    if c ≠ ',' then listNumbers (c :: number) s
    else if s = [] then [number.reverse]
    else number.reverse :: listNumbers [] s

/-- A comma makes the token a list, else a dash a range, else a `*` in front takes every
value. -/
def readField (pScheduleToken : List Char) : Field :=
  if ',' ∈ pScheduleToken then .list ((listNumbers [] pScheduleToken).map atol)
  else if '-' ∈ pScheduleToken then
    .range (atol (pScheduleToken.takeWhile (· ≠ '-')))
      (atol ((pScheduleToken.dropWhile (· ≠ '-')).drop 1))
  else if pScheduleToken.head? = some '*' then .star
  else .value (atol pScheduleToken)

/-- The test of a field of the date against the schedule. -/
def Field.holds : Field → Int → Bool
  | .list values, v => values.any (· = v)
  | .range valueFrom valueTo, v => valueFrom ≤ v && v ≤ valueTo
  | .value lValue, v => lValue = v
  | .star, _ => true

/-- The next token of `strtok_r`, an error when there is none. -/
def nextToken : List (List Char) → Except SchedulerError (List Char × List (List Char))
  | [] => .error .schCalendarScheduleWrong
  | pScheduleToken :: tokens => .ok (pScheduleToken, tokens)

/-! ### init -/

def ensure (b : Bool) (e : SchedulerError) : Except SchedulerError Unit :=
  if b then .ok () else .error e

/-- The values of a list, one after the other. -/
def checkList (min max : Int) (name : String) : List Int → Except SchedulerError Unit
  | [] => .ok ()
  | lValue :: values => do
    ensure (min ≤ lValue ∧ lValue ≤ max) (.schScheduleFieldRangeWrong lValue name)
    checkList min max name values

/-- The range check of one field.  For a range, the text of every field says `month`. -/
def checkField (min max : Int) (name : String) : Field → Except SchedulerError Unit
  | .list values => checkList min max name values
  | .range lValueFrom lValueTo => do
    ensure (min ≤ lValueFrom ∧ lValueFrom ≤ lValueTo)
      (.schScheduleFieldRangeWrong lValueFrom "month")
    ensure (lValueTo ≤ max) (.schScheduleFieldRangeWrong lValueTo "month")
  | .value lValue =>
    ensure (min ≤ lValue ∧ lValue ≤ max) (.schScheduleFieldRangeWrong lValue name)
  | .star => .ok ()

/-- `lMonth`: the month when it is a single value. -/
def lMonth : Field → Int
  | .value v => v
  | _ => -1

def loopText : String := "monthday (with '*' as year and february as month)"

/-- The check "we have a loop" of the monthday: year `*`, month february, day 30 or 31. -/
def checkLoop (pYear : List Char) (month : Int) : Field → Except SchedulerError Unit
  | .list values =>
    ensure (¬(pYear = ['*'] ∧ month = 2 ∧ ¬values.any (· ≤ 30)))
      (.schScheduleFieldRangeWrong (values.getLastD 0) loopText)
  | .range lValueFrom lValueTo =>
    ensure (¬(pYear = ['*'] ∧ month = 2 ∧ lValueFrom = 30 ∧ lValueTo = 31))
      (.schScheduleFieldRangeWrong lValueFrom loopText)
  | .value lMonthDay =>
    -- the 31st is not tested here
    ensure (¬(pYear = ['*'] ∧ month = 2 ∧ lMonthDay = 30))
      (.schScheduleFieldRangeWrong lMonthDay loopText)
  | .star => .ok ()

/-- The block "check range values". -/
def checkRangeValues (pSchedule : List Char) : Except SchedulerError Unit := do
  let (pYear, tokens) ← nextToken (strtok ' ' pSchedule)
  let (pMonth, tokens) ← nextToken tokens
  checkField 1 12 "month" (readField pMonth)
  let (pMonthday, tokens) ← nextToken tokens
  checkField 1 31 "monthday" (readField pMonthday)
  checkLoop pYear (lMonth (readField pMonth)) (readField pMonthday)
  let (pWeekday, tokens) ← nextToken tokens
  checkField 0 6 "weekday" (readField pWeekday)
  let (pHour, tokens) ← nextToken tokens
  checkField 0 23 "hour" (readField pHour)
  let (pMinute, tokens) ← nextToken tokens
  checkField 0 59 "minute" (readField pMinute)
  let (pSecond, _) ← nextToken tokens
  checkField 0 59 "second" (readField pSecond)

def isScheduleChar (c : Char) : Bool :=
  c.isDigit || c = '*' || c = ',' || c = '-' || c = ' '

/-- The checks on the parameter `pSchedule`. -/
def checkSchedule (pSchedule : List Char) : Except SchedulerError Unit := do
  ensure (pSchedule.length ≤ maxScheduleLength - 1) .schActivationWrong
  ensure (pSchedule.all isScheduleChar) .schActivationWrong
  ensure (pSchedule.count ' ' = 6) .schActivationWrong
  checkRangeValues pSchedule

/-- `init (pSchedule, pClassName)`; `mutexInit` says whether the mutex could be
initialised. -/
def Times.init (mutexInit : Bool) (pSchedule pClassName : Option (List Char)) (t : Times) :
    Except SchedulerError Unit × Times :=
  if t.schTimesStatus ≠ .schTimesBuilded then
    (.error (.schOperationNotAllowed t.schTimesStatus), t)
  else
    match pSchedule with
    | none => (.error .schActivationWrong, t)
    | some pSchedule =>
      match checkSchedule pSchedule with
      | .error e => (.error e, t)
      | .ok () =>
        let t :=
          { t with
            pCalendarSchedule := pSchedule
            ttTimesType := .schTypeCalendar
            pCurrentExpirationDateTime := []
            pNextExpirationDateTime := [] }
        if ¬mutexInit then (.error .threadlibPmutexInitFailed, t)
        else
          let name := pClassName.getD []
          if maxClassNameLength - 1 < name.length then (.error .schClassNameTooLong, t)
          else
            (.ok (),
              { t with
                pClassName := name
                schTimesStatus := .schTimesInitialized })

/-! ### What init accepts -/

theorem ensure_eq_ok {b : Bool} {e : SchedulerError} : ensure b e = .ok () ↔ b = true := by
  cases b <;> simp [ensure]

theorem ensure_bind_eq_ok {b : Bool} {e : SchedulerError} {k : Unit → Except SchedulerError Unit} :
    (ensure b e >>= k) = .ok () ↔ b = true ∧ k () = .ok () := by
  cases b <;> simp [ensure]

theorem nextToken_eq_ok {tokens rest : List (List Char)} {token : List Char} :
    nextToken tokens = .ok (token, rest) ↔ tokens = token :: rest := by
  cases tokens <;> simp [nextToken]

theorem checkList_eq_ok {min max : Int} {name : String} {values : List Int} :
    checkList min max name values = .ok () ↔ ∀ v ∈ values, min ≤ v ∧ v ≤ max := by
  induction values with
  | nil => simp [checkList]
  | cons v values ih => simp [checkList, ensure_bind_eq_ok, ih]

/-- The fields whose values lie in an interval. -/
def Field.InRange (min max : Int) : Field → Prop
  | .list values => ∀ v ∈ values, min ≤ v ∧ v ≤ max
  | .range valueFrom valueTo => (min ≤ valueFrom ∧ valueFrom ≤ valueTo) ∧ valueTo ≤ max
  | .value v => min ≤ v ∧ v ≤ max
  | .star => True

theorem checkField_eq_ok {min max : Int} {name : String} {f : Field} :
    checkField min max name f = .ok () ↔ f.InRange min max := by
  cases f with
  | list values => exact checkList_eq_ok
  | range valueFrom valueTo => simp [checkField, ensure_bind_eq_ok, ensure_eq_ok, Field.InRange]
  | value v => simp [checkField, ensure_eq_ok, Field.InRange]
  | star => simp [checkField, Field.InRange]

theorem checkField_ok {min max : Int} {f : Field} (h : f.InRange min max) (name : String) :
    checkField min max name f = .ok () :=
  checkField_eq_ok.mpr h

/-- A token is cut at its first dash. -/
theorem cut_at_dash {s₁ : List Char} (s₂ : List Char) (h : '-' ∉ s₁) :
    (s₁ ++ '-' :: s₂).takeWhile (· ≠ '-') = s₁ ∧
      ((s₁ ++ '-' :: s₂).dropWhile (· ≠ '-')).drop 1 = s₂ := by
  have hdash : ∀ c ∈ s₁, decide (c ≠ '-') = true := fun c hc =>
    decide_eq_true fun heq => h (heq ▸ hc)
  rw [List.takeWhile_append_of_pos hdash, List.dropWhile_append_of_pos hdash]
  simp

/-- The loop over the commas reads at least one number. -/
theorem listNumbers_ne_nil (number s : List Char) : listNumbers number s ≠ [] := by
  induction s generalizing number with
  | nil => simp [listNumbers]
  | cons c s ih =>
    unfold listNumbers
    split_ifs with hc hs
    · exact ih _
    · simp
    · simp

theorem readField_ne_empty (pScheduleToken : List Char) :
    readField pScheduleToken ≠ .list [] := by
  intro h
  unfold readField at h
  split_ifs at h
  exact listNumbers_ne_nil _ _ (List.map_eq_nil_iff.mp (Field.list.inj h))

/-- A field in range takes a value of its range. -/
theorem Field.exists_holds {min max : Int} {f : Field} (h : f.InRange min max)
    (hne : f ≠ .list []) (hle : min ≤ max) : ∃ v, (min ≤ v ∧ v ≤ max) ∧ f.holds v := by
  cases f with
  | list values =>
    cases values with
    | nil => exact absurd rfl hne
    | cons v values => exact ⟨v, h v (by simp), by simp [holds]⟩
  | range a b => exact ⟨a, ⟨h.1.1, Int.le_trans h.1.2 h.2⟩, by simp [holds, h.1.2]⟩
  | value v => exact ⟨v, h, by simp [holds]⟩
  | star => exact ⟨min, ⟨Int.le_refl min, hle⟩, rfl⟩

theorem checkRangeValues_eq_ok {pSchedule : List Char} :
    checkRangeValues pSchedule = .ok () ↔
      ∃ y mo md wd h mi s rest, strtok ' ' pSchedule = y :: mo :: md :: wd :: h :: mi :: s :: rest ∧
        (readField mo).InRange 1 12 ∧ (readField md).InRange 1 31 ∧
        checkLoop y (lMonth (readField mo)) (readField md) = .ok () ∧
        (readField wd).InRange 0 6 ∧ (readField h).InRange 0 23 ∧
        (readField mi).InRange 0 59 ∧ (readField s).InRange 0 59 := by
  unfold checkRangeValues
  constructor
  · intro hok
    obtain ⟨⟨y, t₁⟩, hy, hok⟩ := bind_eq_ok.mp hok
    obtain ⟨⟨mo, t₂⟩, hmo, hok⟩ := bind_eq_ok.mp hok
    obtain ⟨⟨⟩, hmoRange, hok⟩ := bind_eq_ok.mp hok
    obtain ⟨⟨md, t₃⟩, hmd, hok⟩ := bind_eq_ok.mp hok
    obtain ⟨⟨⟩, hmdRange, hok⟩ := bind_eq_ok.mp hok
    obtain ⟨⟨⟩, hloop, hok⟩ := bind_eq_ok.mp hok
    obtain ⟨⟨wd, t₄⟩, hwd, hok⟩ := bind_eq_ok.mp hok
    obtain ⟨⟨⟩, hwdRange, hok⟩ := bind_eq_ok.mp hok
    obtain ⟨⟨h, t₅⟩, hh, hok⟩ := bind_eq_ok.mp hok
    obtain ⟨⟨⟩, hhRange, hok⟩ := bind_eq_ok.mp hok
    obtain ⟨⟨mi, t₆⟩, hmi, hok⟩ := bind_eq_ok.mp hok
    obtain ⟨⟨⟩, hmiRange, hok⟩ := bind_eq_ok.mp hok
    obtain ⟨⟨s, t₇⟩, hs, hsRange⟩ := bind_eq_ok.mp hok
    rw [nextToken_eq_ok] at hy hmo hmd hwd hh hmi hs
    subst hs hmi hh hwd hmd hmo
    exact ⟨y, mo, md, wd, h, mi, s, t₇, hy, checkField_eq_ok.mp hmoRange,
      checkField_eq_ok.mp hmdRange, hloop, checkField_eq_ok.mp hwdRange,
      checkField_eq_ok.mp hhRange, checkField_eq_ok.mp hmiRange, checkField_eq_ok.mp hsRange⟩
  · rintro ⟨y, mo, md, wd, h, mi, s, rest, htok, hmo, hmd, hloop, hwd, hh, hmi, hs⟩
    simp only [htok, nextToken, ok_bind, checkField_ok hmo, checkField_ok hmd, hloop,
      checkField_ok hwd, checkField_ok hh, checkField_ok hmi, checkField_ok hs]

theorem checkSchedule_eq_ok {pSchedule : List Char} :
    checkSchedule pSchedule = .ok () ↔ pSchedule.length ≤ maxScheduleLength - 1 ∧
      (∀ c ∈ pSchedule, isScheduleChar c) ∧ pSchedule.count ' ' = 6 ∧
      checkRangeValues pSchedule = .ok () := by
  simp only [checkSchedule, ensure_bind_eq_ok, decide_eq_true_eq, List.all_eq_true]

/-- **What `init` accepts**: a schedule that passes the checks, in a new object, with a class
name that is not too long. -/
theorem Times.init_eq_ok {mutexInit : Bool} {pSchedule : List Char} {pClassName : Option (List Char)}
    {t t' : Times} : t.init mutexInit (some pSchedule) pClassName = (.ok (), t') ↔
      (t.schTimesStatus = .schTimesBuilded ∧ checkSchedule pSchedule = .ok () ∧
        mutexInit = true ∧ (pClassName.getD []).length ≤ maxClassNameLength - 1) ∧
      t' = { t with
        pCalendarSchedule := pSchedule
        ttTimesType := .schTypeCalendar
        pCurrentExpirationDateTime := []
        pNextExpirationDateTime := []
        pClassName := pClassName.getD []
        schTimesStatus := .schTimesInitialized } := by
  unfold Times.init
  by_cases hstatus : t.schTimesStatus = .schTimesBuilded
  · cases hcheck : checkSchedule pSchedule with
    | error e => simp [hstatus, hcheck]
    | ok u =>
      cases mutexInit with
      | false => simp [hstatus, hcheck]
      | true =>
        by_cases hname : (pClassName.getD []).length ≤ maxClassNameLength - 1
        · simp [hstatus, hcheck, hname, Nat.not_lt.mpr hname, eq_comm]
        · simp [hstatus, hcheck, hname, Nat.not_le.mp hname]
  · simp [hstatus]

end CatraLibraries
