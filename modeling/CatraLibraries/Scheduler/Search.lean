/-
# The search on the seconds of the local time

A schedule is its seven fields, and `Matches` says which seconds of the local time have it.
`Schedule.pass` is a pass of the search on these seconds: the search of the code on a `tm`
simulates it (`searchLoop_localTm`), and it `Seeks` the seconds that match, since a field
that does not match is constant until the second the pass jumps to (`pass_seeks`).
-/
import Mathlib.Data.Int.Interval
import CatraLibraries.Scheduler.LocalTime

namespace CatraLibraries

open Memory Stdio JumpSearch Calendar

/-- The fields of a calendar schedule. -/
structure Schedule where
  year : Field
  month : Field
  monthday : Field
  weekday : Field
  hour : Field
  minute : Field
  second : Field
  deriving DecidableEq, Repr

/-- The last year that a field can match. -/
def Field.lastYear : Field → Int
  | .list values => values.foldl max (-1)
  | .range _ valueTo => valueTo
  | .value v => v
  | .star => 0

namespace Schedule

/-- The fields of a text of seven tokens. -/
def Reads (S : Schedule) (text : List Char) : Prop :=
  ∃ y mo md wd h mi s rest, strtok ' ' text = y :: mo :: md :: wd :: h :: mi :: s :: rest ∧
    S = ⟨readField y, readField mo, readField md, readField wd, readField h, readField mi,
      readField s⟩

/-- The day matches: a `*` leaves the day to the other field, two given fields add up. -/
def MatchesDay (S : Schedule) (x : Int) : Prop :=
  if S.monthday = .star then S.weekday.holds (Calendar.weekday x) = true
  else if S.weekday = .star then S.monthday.holds (Calendar.monthday x) = true
  else S.monthday.holds (Calendar.monthday x) ∨ S.weekday.holds (Calendar.weekday x)

instance (S : Schedule) (x : Int) : Decidable (S.MatchesDay x) := by
  unfold MatchesDay; infer_instance

/-- The seconds that match the schedule. -/
def Matches (S : Schedule) (x : Int) : Prop :=
  S.year.holds (Calendar.year x) ∧ S.month.holds (Calendar.month x) ∧ S.MatchesDay x ∧
    S.hour.holds (Calendar.hour x) ∧ S.minute.holds (Calendar.minute x) ∧
    S.second.holds (Calendar.second x)

/-- A pass of the search: to the next year, month, day, hour, minute or second. -/
def pass (S : Schedule) (x : Int) : Pass Int SchedulerError :=
  if ¬S.year.holds (Calendar.year x) then
    if S.year.lastYear < Calendar.year x then .fail .schReachedLastTimeout
    else .again (instant (Calendar.year x + 1) 1 1 0 0 0)
  else if ¬S.month.holds (Calendar.month x) then
    .again (instant (Calendar.year x) (Calendar.month x + 1) 1 0 0 0)
  else if ¬S.MatchesDay x then .again ((day x + 1) * 86400)
  else if ¬S.hour.holds (Calendar.hour x) then .again (x - x % 3600 + 3600)
  else if ¬S.minute.holds (Calendar.minute x) then .again (x - x % 60 + 60)
  else if ¬S.second.holds (Calendar.second x) then .again (x + 1)
  else .done x

end Schedule

/-! ### The search of the code follows -/

variable {off x : Int} {S : Schedule} {text : List Char}

theorem listYears_eq (y m : Int) (values : List Int) :
    (listYears y m values).1 = values.any (· = y) ∧
      ((listYears y m values).1 = false → (listYears y m values).2 = values.foldl max m) := by
  induction values generalizing m with
  | nil => exact ⟨rfl, fun _ => rfl⟩
  | cons v values ih =>
    by_cases h : v = y
    · simp [listYears, h]
    · simp only [listYears, List.any_cons, h, decide_false, Bool.false_or,
        List.foldl_cons]
      exact ih (max m v)

theorem yearPass_localTm (f : Field) : yearPass (fixedOffset off) (localTm x) f =
    if f.holds (year x) then none
    else if f.lastYear < year x then some (.fail .schReachedLastTimeout)
    else some (.again (localTm (instant (year x + 1) 1 1 0 0 0))) := by
  have hyear : (localTm x).tmYear + 1900 = year x := by show year x - 1900 + 1900 = _; omega
  cases f with
  | list values =>
    obtain ⟨hvalid, hmax⟩ := listYears_eq (year x) (-1) values
    simp only [yearPass, hyear, nextYear_localTm, Field.holds, ← hvalid]
    cases hl : (listYears (year x) (-1) values).1 with
    | true => rfl
    | false =>
      have hlast : (Field.list values).lastYear = (listYears (year x) (-1) values).2 :=
        (hmax hl).symm
      rw [hlast]
  | range a b =>
    unfold yearPass
    rw [hyear, nextYear_localTm]
    simp only [Field.holds, Bool.and_eq_true, decide_eq_true_eq]
    rfl
  | value v =>
    unfold yearPass
    rw [hyear, nextYear_localTm]
    simp only [Field.holds, decide_eq_true_eq]
    rfl
  | star => rfl

theorem isNecessaryAddDay_localTm :
    isNecessaryAddDay (localTm x) S.monthday S.weekday = !decide (S.MatchesDay x) := by
  have hmd : (localTm x).tmMday = monthday x := rfl
  have hwd : (localTm x).tmWday = weekday x := rfl
  unfold isNecessaryAddDay Schedule.MatchesDay
  rw [hmd, hwd]
  by_cases h : S.monthday = .star
  · by_cases h' : S.weekday = .star
    · simp [h, h', Field.holds]
    · simp [h, h']
  · by_cases h' : S.weekday = .star
    · simp [h, h']
    · simp [h, h']

theorem getD_ite_none {α : Type} (c : Prop) [Decidable c] (o : Option α) (a : α) :
    (if c then none else o).getD a = if c then a else o.getD a := by
  split <;> rfl

theorem getD_ite_some {α : Type} (c : Prop) [Decidable c] (a b d : α) :
    (if c then some a else some b).getD d = if c then a else b := by
  split <;> rfl

/-- **The simulation.**  A pass of the code on the fields of a second is a pass on the
second. -/
theorem searchBody_localTm (h : S.Reads text) :
    searchBody (fixedOffset off) text (localTm x) = (S.pass x).map localTm := by
  obtain ⟨y, mo, md, wd, hr, mi, s, rest, htok, rfl⟩ := h
  have hday := isNecessaryAddDay_localTm (x := x) (S := ⟨readField y, readField mo, readField md,
    readField wd, readField hr, readField mi, readField s⟩)
  have hmonth : (localTm x).tmMon + 1 = month x := by show month x - 1 + 1 = _; omega
  unfold searchBody Schedule.pass
  rw [htok]
  simp only [onField, yearPass_localTm, monthPass, dayPass, hourPass, minutePass, secondPass,
    hmonth, hday, nextMonth_localTm, nextDay_localTm, nextHour_localTm, nextMinute_localTm,
    nextSecond_localTm]
  simp only [getD_ite_none, getD_ite_some, apply_ite (Pass.map localTm), Option.getD_some,
    Bool.not_eq_true', decide_eq_false_iff_not, ite_not]
  rfl

/-- The loop of the code is the loop on the seconds. -/
theorem searchLoop_localTm (h : S.Reads text) (fuel : Nat) :
    searchLoop (fixedOffset off) text fuel (localTm x)
      = (loop S.pass fuel x).map (Except.map localTm) :=
  loop_map (fun _ => searchBody_localTm h) fuel x

/-! ### No second that matches is passed over -/

theorem le_foldl_max (m : Int) (values : List Int) :
    m ≤ values.foldl max m ∧ ∀ v ∈ values, v ≤ values.foldl max m := by
  induction values generalizing m with
  | nil => exact ⟨Int.le_refl m, fun v hv => absurd hv (by simp)⟩
  | cons w values ih =>
    obtain ⟨hle, hmem⟩ := ih (max m w)
    refine ⟨(Int.le_max_left m w).trans hle, fun v hv => ?_⟩
    rcases List.mem_cons.mp hv with rfl | hv
    · exact (Int.le_max_right m v).trans hle
    · exact hmem v hv

/-- Past the last year of a field no year matches it. -/
theorem Field.lastYear_ge {f : Field} {y : Int} (h : f.holds y) (hstar : f ≠ .star) :
    y ≤ f.lastYear := by
  cases f with
  | list values =>
    obtain ⟨v, hv, heq⟩ := List.any_eq_true.mp h
    obtain rfl := of_decide_eq_true heq
    exact (le_foldl_max (-1) values).2 v hv
  | range a b => exact of_decide_eq_true (Bool.and_eq_true_iff.mp h).2
  | value v => exact Int.le_of_eq (of_decide_eq_true h).symm
  | star => exact absurd rfl hstar

theorem matchesDay_congr {u : Int} (h : day u = day x) : S.MatchesDay u ↔ S.MatchesDay x := by
  obtain ⟨-, -, hmd, hwd⟩ := fields_of_day_eq h
  unfold Schedule.MatchesDay
  rw [hmd, hwd]

/-- **A pass passes over no second that matches.** -/
theorem pass_seeks (S : Schedule) : Seeks S.pass S.Matches where
  done {x x'} h := by
    unfold Schedule.pass at h
    split_ifs at h with hy hmo hd hh hmi hs
    injection h with h
    exact ⟨h.symm, hy, hmo, hd, hh, hmi, hs⟩
  again {x x'} h := by
    unfold Schedule.pass at h
    split_ifs at h with hy hmo hd hh hmi hs
    -- the field that does not match, from the second to the year
    all_goals injection h with h
    all_goals subst h
    · refine ⟨by omega, fun u hle hlt hu => hs ?_⟩
      obtain rfl : u = x := by omega
      exact hu.2.2.2.2.2
    · refine ⟨by omega, fun u hle hlt hu => hmi ?_⟩
      rw [← minute_eq_of_lt hle hlt]
      exact hu.2.2.2.2.1
    · refine ⟨by omega, fun u hle hlt hu => hh ?_⟩
      rw [← hour_eq_of_lt hle hlt]
      exact hu.2.2.2.1
    · refine ⟨by unfold day; omega, fun u hle hlt hu => hd ?_⟩
      exact (matchesDay_congr (day_eq_of_lt hle hlt)).mp hu.2.2.1
    · refine ⟨lt_nextMonth x, fun u hle hlt hu => hmo ?_⟩
      rw [← (month_eq_of_lt hle hlt).2]
      exact hu.2.1
    · refine ⟨lt_nextYear x, fun u hle hlt hu => hy ?_⟩
      rw [← year_eq_of_lt hle hlt]
      exact hu.1
  fail {x e} h u hle hu := by
    unfold Schedule.pass at h
    split_ifs at h with hy hmo hd hh hmi hs hl
    have hstar : S.year ≠ .star := fun hs => hy (by rw [hs]; rfl)
    have hlast := Field.lastYear_ge hu.1 hstar
    have hmono := year_mono hle
    omega

/-! ### The method -/

namespace Times

/-- The UTC second that the text of the current expiration denotes in the zone, and its
milliseconds. -/
def currentSecond (off : Int) (t : Times) : Option (Int × Nat) :=
  (scanDateTime t.pCurrentExpirationDateTime).map fun (tm, ulMilliSeconds) =>
    ((fixedOffset off).mktime
      { tm with
        tmIsdst := 0 }, ulMilliSeconds)

/-- The second from which the search goes on: with the flag set, `mktime` takes the current
expiration for daylight saving time. -/
def searchSecond (t : Times) (cur : Int) : Int :=
  cur - if t.bCurrentDaylightSavingTime then 3600 else 0

variable {t t' : Times} {cur : Int} {ulMilliSeconds : Nat}

theorem searchStart_fixedOffset (h : t.currentSecond off = some (cur, ulMilliSeconds)) :
    t.searchStart (fixedOffset off)
      = .ok (localTm (localSecond off (t.searchSecond cur + 1)), ulMilliSeconds) := by
  obtain ⟨⟨tm, ms⟩, hscan, heq⟩ := Option.map_eq_some_iff.mp h
  obtain ⟨hcur, rfl⟩ := Prod.mk.inj heq
  have hfirst : (fixedOffset off).localtimeR ((fixedOffset off).mktime
      { tm with
        tmIsdst := t.bCurrentDaylightSavingTime.toInt })
      = some (localTm (localSecond off (t.searchSecond cur))) := by
    rw [mktime_flag, hcur]
    rfl
  have hsecond : (fixedOffset off).localtimeR ((fixedOffset off).mktime
      (localTm (localSecond off (t.searchSecond cur))) + 1)
      = some (localTm (localSecond off (t.searchSecond cur + 1))) := by
    rw [mktime_localTm]
    show some (localTm (localSecond off (t.searchSecond cur) - (epoch + off) + 1 + (epoch + off))) = _
    congr 2
    unfold localSecond
    omega
  unfold searchStart
  rw [hscan]
  simp only [hfirst, hsecond]

/-- The search of the method, on the seconds of the local time. -/
theorem update_eq (h : S.Reads t.pCalendarSchedule) (fuel : Nat)
    (hcur : t.currentSecond off = some (cur, ulMilliSeconds)) :
    t.updateNextCalendarExpirationDateTime (fixedOffset off) fuel =
      match loop S.pass fuel (localSecond off (t.searchSecond cur + 1)) with
      | .error fault => .error fault
      | .ok (.error e) => .ok (.error e, t)
      | .ok (.ok x) =>
        let text := printDateTime (localTm x) ulMilliSeconds
        if maxDateLength - 1 < text.length then .error .outOfBounds
        else
          .ok (.ok (),
            { t with
              pNextExpirationDateTime := text
              bNextDaylightSavingTime := false }) := by
  unfold updateNextCalendarExpirationDateTime
  rw [searchStart_fixedOffset hcur]
  simp only [searchLoop_localTm h]
  rcases loop S.pass fuel (localSecond off (t.searchSecond cur + 1)) with fault | (e | x)
  · rfl
  · rfl
  · rfl

end Times

end CatraLibraries
