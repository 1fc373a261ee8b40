/-
# Time zones with daylight saving time

A zone with a standard offset and a daylight offset one hour greater.  `localtime_r` gives the
local time of an instant with its `tm_isdst`.  `mktime` reads a local time by the sign of
`tm_isdst`: positive as daylight saving time, zero as standard time, negative as what is in force
there.  A local time that exists twice, or not at all, may then be read either way.
-/
import CatraLibraries.Scheduler.LocalTime

namespace CatraLibraries

open Stdio Calendar

/-- The second of local time that the fields stand for; fields beyond their ranges are taken. -/
def Tm.localSecond (tm : Tm) : Int :=
  instant (tm.tmYear + 1900 + tm.tmMon / 12) (tm.tmMon % 12 + 1) tm.tmMday tm.tmHour tm.tmMin
    tm.tmSec

/-- A zone: the seconds that its standard time is ahead of UTC, the instants at which daylight
saving time is in force, and what `mktime` takes a local time for that is not exactly once. -/
structure Zone where
  off : Int
  daylight : Int → Bool
  reading : Tm → Bool

namespace Zone

/-- The second of local time at an instant. -/
def localSecond (z : Zone) (t : Int) : Int :=
  t + (epoch + z.off) + if z.daylight t then 3600 else 0

/-- The instant of a local time, read as daylight saving time or as standard time. -/
def utc (z : Zone) (x : Int) (dst : Bool) : Int :=
  x - (epoch + z.off) - if dst then 3600 else 0

/-- Whether `mktime` takes a local time for daylight saving time when it is not told. -/
def inDaylight (z : Zone) (tm : Tm) : Bool :=
  let dst := z.daylight (z.utc tm.localSecond true)
  if dst = z.daylight (z.utc tm.localSecond false) then dst else z.reading tm

/-- The fields of an instant. -/
def tmOf (z : Zone) (t : Int) : Tm :=
  { localTm (z.localSecond t) with tmIsdst := if z.daylight t then 1 else 0 }

/-- `<time.h>` in the zone. -/
def libc (z : Zone) : Libc where
  mktime tm :=
    z.utc tm.localSecond (if tm.tmIsdst < 0 then z.inDaylight tm else 0 < tm.tmIsdst)
  localtimeR t := some (z.tmOf t)

variable {z : Zone} {t x : Int}

/-! ### The conversions -/

/-- The fields of a second stand for it. -/
theorem localSecond_localTm {tm : Tm} (hy : tm.tmYear = year x - 1900)
    (hm : tm.tmMon = month x - 1) (hd : tm.tmMday = monthday x) (hh : tm.tmHour = hour x)
    (hmi : tm.tmMin = minute x) (hs : tm.tmSec = second x) : tm.localSecond = x := by
  have hb := month_bounds x
  unfold Tm.localSecond
  rw [hy, hm, hd, hh, hmi, hs, Int.ediv_eq_zero_of_lt (by omega) (by omega),
    Int.emod_eq_of_lt (by omega) (by omega), Int.add_zero, Int.sub_add_cancel, Int.sub_add_cancel,
    instant_fields]

/-- **The flag tells the two readings apart.** -/
theorem utc_localSecond (z : Zone) (t : Int) : z.utc (z.localSecond t) (z.daylight t) = t := by
  unfold utc localSecond
  omega

/-- The local time of an instant is that of the date, up to the hour of daylight saving time. -/
theorem localSecond_utc_add (z : Zone) (x s : Int) (dst : Bool) :
    x + s - 3600 ≤ z.localSecond (z.utc x dst + s) ∧
      z.localSecond (z.utc x dst + s) ≤ x + s + 3600 := by
  unfold localSecond utc
  constructor
  · split <;> split <;> omega
  · split <;> split <;> omega

/-- `mktime` finds the instant again from its fields and its flag. -/
theorem mktime_of_fields {tm : Tm} (hx : tm.localSecond = z.localSecond t)
    (hdst : tm.tmIsdst = if z.daylight t then 1 else 0) : z.libc.mktime tm = t := by
  have hflag : (if tm.tmIsdst < 0 then z.inDaylight tm else decide (0 < tm.tmIsdst))
      = z.daylight t := by
    rw [hdst]
    cases z.daylight t <;> rfl
  show z.utc tm.localSecond (if tm.tmIsdst < 0 then z.inDaylight tm else 0 < tm.tmIsdst) = t
  rw [hflag, hx, utc_localSecond]

/-- **A zone with a fixed offset is one without daylight saving time.** -/
theorem libc_eq_fixedOffset (off : Int) (reading : Tm → Bool) :
    (⟨off, fun _ => false, reading⟩ : Zone).libc = fixedOffset off := by
  have hmk : (⟨off, fun _ => false, reading⟩ : Zone).libc.mktime = (fixedOffset off).mktime := by
    funext tm
    have hflag : ((if tm.tmIsdst < 0 then
        (⟨off, fun _ => false, reading⟩ : Zone).inDaylight tm else decide (0 < tm.tmIsdst)) = true)
        = (0 < tm.tmIsdst) := by
      by_cases hneg : tm.tmIsdst < 0
      · rw [if_pos hneg]
        exact propext (iff_of_false Bool.false_ne_true (by omega))
      · rw [if_neg hneg]
        exact propext decide_eq_true_iff
    show Zone.utc _ tm.localSecond (if tm.tmIsdst < 0 then _ else decide (0 < tm.tmIsdst)) = _
    unfold utc
    simp only [hflag]
    rfl
  have hlocal : (⟨off, fun _ => false, reading⟩ : Zone).libc.localtimeR
      = (fixedOffset off).localtimeR := by
    funext t
    show some { localTm (t + (epoch + off) + 0) with tmIsdst := 0 } = some (localTm (t + (epoch + off)))
    rw [Int.add_zero]
    rfl
  exact congrArg₂ Libc.mk hmk hlocal

end Zone

end CatraLibraries
