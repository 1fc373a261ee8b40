/-
# Time zones with a fixed offset

In a zone with a fixed offset and no daylight saving time, `mktime` and `localtime_r` are
inverse conversions between the seconds since 1970 and the fields of the Gregorian calendar,
for dates of any year; fields that are marked as those of daylight saving time it takes for one
hour ahead.  There a pass of the search on a `tm` is a pass on the seconds of the
local time, counted as in the calendar: `searchBody_localTm` is the simulation, and the loop
follows it by `loop_map`.
-/
import CatraLibraries.Lib.Calendar
import CatraLibraries.Scheduler.NextExpiration

namespace CatraLibraries

open Memory Stdio JumpSearch Calendar

/-- The fields of a second of local time. -/
def localTm (x : Int) : Tm :=
  ⟨year x - 1900, month x - 1, monthday x, hour x, minute x, second x, weekday x, 0⟩

/-- The first of January 1970. -/
def epoch : Int := instant 1970 1 1 0 0 0

/-- `<time.h>` in a zone `off` seconds ahead of UTC, where daylight saving time is never in force.
`mktime` takes fields beyond their ranges and does not look at `tm_wday`; a positive `tm_isdst`
says that the fields are one hour ahead of those of the zone. -/
def fixedOffset (off : Int) : Libc where
  mktime tm :=
    instant (tm.tmYear + 1900 + tm.tmMon / 12) (tm.tmMon % 12 + 1) tm.tmMday tm.tmHour tm.tmMin
      tm.tmSec - (epoch + off) - if 0 < tm.tmIsdst then 3600 else 0
  localtimeR t := some (localTm (t + (epoch + off)))

/-- The local time of a UTC second. -/
def localSecond (off t : Int) : Int := t + (epoch + off)

/-! ### The conversions -/

variable {off x : Int}

theorem mktime_fixedOffset {tm : Tm} (h : 0 ≤ tm.tmMon) (h' : tm.tmMon ≤ 11)
    (hdst : tm.tmIsdst ≤ 0) :
    (fixedOffset off).mktime tm = instant (tm.tmYear + 1900) (tm.tmMon + 1) tm.tmMday tm.tmHour
      tm.tmMin tm.tmSec - (epoch + off) := by
  show instant (tm.tmYear + 1900 + tm.tmMon / 12) (tm.tmMon % 12 + 1) _ _ _ _ - _ - _ = _
  rw [Int.ediv_eq_zero_of_lt h (by omega), Int.emod_eq_of_lt h (by omega), Int.add_zero,
    if_neg (by omega), Int.sub_zero]

/-- A flag that is set takes one hour off. -/
theorem mktime_flag (tm : Tm) (b : Bool) :
    (fixedOffset off).mktime { tm with tmIsdst := b.toInt } =
      (fixedOffset off).mktime { tm with tmIsdst := 0 } - if b then 3600 else 0 := by
  cases b with
  | false => exact (Int.sub_zero _).symm
  | true =>
    show _ - (3600 : Int) = _ - (0 : Int) - 3600
    rw [Int.sub_zero]

theorem mktime_localTm : (fixedOffset off).mktime (localTm x) = x - (epoch + off) := by
  have hm := month_bounds x
  rw [mktime_fixedOffset (by simp [localTm]; omega) (by simp [localTm]; omega) (Int.le_refl 0)]
  simp only [localTm, Int.sub_add_cancel, instant_fields]

theorem continueAt_fixedOffset (t : Int) :
    continueAt (fixedOffset off) t = .again (localTm (localSecond off t)) := rfl

/-! ### The jumps of the search -/

theorem nextYear_localTm : nextYear (fixedOffset off) (localTm x)
    = .again (localTm (instant (year x + 1) 1 1 0 0 0)) := by
  rw [nextYear, mktime_fixedOffset (by simp) (by simp) (by simp), continueAt_fixedOffset,
    localSecond]
  simp only [localTm]
  rw [Int.sub_add_cancel, show year x - 1900 + 1 + 1900 = year x + 1 by omega, Int.zero_add]

theorem nextMonth_localTm : nextMonth (fixedOffset off) (localTm x)
    = .again (localTm (instant (year x) (month x + 1) 1 0 0 0)) := by
  have hm := month_bounds x
  unfold nextMonth
  by_cases hdec : month x = 12
  · -- december: the month wraps round and the year goes on
    have hmon : (localTm x).tmMon = 11 := by show month x - 1 = 11; omega
    simp only [hmon, if_true]
    rw [mktime_fixedOffset (by simp) (by simp) (by simp), continueAt_fixedOffset, localSecond, hdec]
    simp only [localTm]
    rw [Int.sub_add_cancel, show year x - 1900 + 1 + 1900 = year x + 1 by omega]
    exact congrArg (fun y => Pass.again (localTm y)) (nextMonth_december (year x)).symm
  · have hmon : (localTm x).tmMon ≠ 11 := by show month x - 1 ≠ 11; omega
    simp only [hmon, if_false]
    rw [mktime_fixedOffset (by simp [localTm]; omega) (by simp [localTm]; omega) (by simp),
      continueAt_fixedOffset, localSecond]
    simp only [localTm]
    rw [Int.sub_add_cancel, Int.sub_add_cancel, Int.sub_add_cancel]

/-- The date with another time of day. -/
theorem instant_date (h mi s : Int) : instant (year x) (month x) (monthday x) h mi s
    = day x * 86400 + h * 3600 + mi * 60 + s := by
  rw [instant, date_day]

theorem mktime_localTm_time (h mi s : Int) {dst : Int} (hdst : dst ≤ 0) :
    (fixedOffset off).mktime
      { localTm x with
        tmHour := h
        tmMin := mi
        tmSec := s
        tmIsdst := dst } = day x * 86400 + h * 3600 + mi * 60 + s - (epoch + off) := by
  have hm := month_bounds x
  rw [mktime_fixedOffset (by simp [localTm]; omega) (by simp [localTm]; omega) hdst]
  simp only [localTm, Int.sub_add_cancel, instant_date]

theorem nextDay_localTm : nextDay (fixedOffset off) (localTm x)
    = .again (localTm ((day x + 1) * 86400)) := by
  have hsec : day x * 86400 + 0 * 3600 + 0 * 60 + 0 - (epoch + off) + 60 * 60 * 24 + (epoch + off)
      = (day x + 1) * 86400 := by omega
  have hhour : (localTm ((day x + 1) * 86400)).tmHour = 0 := by
    show hour _ = 0
    unfold hour; omega
  unfold nextDay
  simp only [mktime_localTm_time 0 0 0 (show (-1 : Int) ≤ 0 by decide)]
  simp only [fixedOffset, hsec, hhour, if_true]

theorem nextHour_localTm : nextHour (fixedOffset off) (localTm x)
    = .again (localTm (x - x % 3600 + 3600)) := by
  have hm := month_bounds x
  have hsec : day x * 86400 + hour x * 3600 + 0 * 60 + 0 - (epoch + off) + 60 * 60 + (epoch + off)
      = x - x % 3600 + 3600 := by
    unfold day hour; omega
  -- the hour changes, at midnight from 23 to 0
  have hhour : (localTm x).tmHour ≠ (localTm (x - x % 3600 + 3600)).tmHour := by
    show hour _ ≠ hour _
    unfold hour; omega
  unfold nextHour
  have hmk := @mktime_localTm_time off x (hour x) 0 0 (-1) (by decide)
  simp only [localTm] at hmk ⊢
  simp only [hmk]
  simp only [fixedOffset, hsec]
  exact if_neg hhour

theorem nextMinute_localTm : continueAt (fixedOffset off) ((fixedOffset off).mktime
    { localTm x with
      tmSec := 0
      tmIsdst := -1 } + 60) = .again (localTm (x - x % 60 + 60)) := by
  have hsec : day x * 86400 + hour x * 3600 + minute x * 60 + 0 - (epoch + off) + 60 + (epoch + off)
      = x - x % 60 + 60 := by
    unfold day hour minute; omega
  have hmk := @mktime_localTm_time off x (hour x) (minute x) 0 (-1) (by decide)
  simp only [localTm] at hmk ⊢
  rw [hmk, continueAt_fixedOffset, localSecond, hsec]
  rfl

theorem nextSecond_localTm : continueAt (fixedOffset off) ((fixedOffset off).mktime
    { localTm x with
      tmIsdst := -1 } + 1) = .again (localTm (x + 1)) := by
  have hsec : day x * 86400 + hour x * 3600 + minute x * 60 + second x - (epoch + off) + 1
      + (epoch + off) = x + 1 := by
    unfold day hour minute second; omega
  have hmk := @mktime_localTm_time off x (hour x) (minute x) (second x) (-1) (by decide)
  simp only [localTm] at hmk ⊢
  rw [hmk, continueAt_fixedOffset, localSecond, hsec]
  rfl

/-! ### The text of a date -/

theorem toUnsignedLong_eq {i : Int} (h : 0 ≤ i) (h' : i ≤ 9999) :
    (toUnsignedLong i : Int) = i ∧ toUnsignedLong i ≤ 9999 := by
  unfold toUnsignedLong; omega

theorem toInt_toUnsignedLong {i : Int} (h : 0 ≤ i) (h' : i ≤ 9999) :
    toInt (toUnsignedLong i) = i := by
  unfold toInt
  rw [(toUnsignedLong_eq h h').1]
  exact Int.bmod_eq_of_le (by omega) (by omega)

end CatraLibraries
