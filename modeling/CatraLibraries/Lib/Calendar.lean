/-
# The Gregorian calendar

Days and seconds are integers, counted from the first of January of the year 0 of the
proleptic Gregorian calendar, midnight.  A year begins after `daysBeforeYear`, a month after
`daysBeforeMonth` days of its year; `yearOf` and `monthOf` find the year and the month of a
day by division.

The date and the time of day of a second are its calendar fields (`year`, `month`, ...,
`second`), and `instant` is the second with given fields.  What a caller needs is that the
two are inverse, and that every year, month, day, hour and minute is an interval of seconds
on which its field is constant.
-/
import Mathlib.Algebra.Order.Ring.Int
import Mathlib.Data.Int.ConditionallyCompleteOrder
import Mathlib.Order.Monotone.Basic
import Mathlib.Order.SuccPred.Basic
import Mathlib.Tactic.IntervalCases
import Mathlib.Tactic.NormNum

namespace Calendar

/-! ### Years -/

/-- The years of 366 days. -/
def Leap (y : Int) : Prop := y % 4 = 0 ∧ (y % 100 ≠ 0 ∨ y % 400 = 0)

instance (y : Int) : Decidable (Leap y) := inferInstanceAs (Decidable (_ ∧ _))

/-- The days before the first of January of the year `y`. -/
def daysBeforeYear (y : Int) : Int := 365 * y + (y + 3) / 4 - (y + 99) / 100 + (y + 399) / 400

/-- The days of the year `y`. -/
def yearLength (y : Int) : Int := if Leap y then 366 else 365

/-- The year of the day `n`: 400 years are 146097 days, and the quotient is at most one year
off. -/
def yearOf (n : Int) : Int :=
  let y := 400 * n / 146097
  if n < daysBeforeYear y then y - 1
  else if daysBeforeYear (y + 1) ≤ n then y + 1
  else y

theorem daysBeforeYear_succ (y : Int) :
    daysBeforeYear (y + 1) = daysBeforeYear y + yearLength y := by
  unfold daysBeforeYear yearLength
  by_cases hl : Leap y
  · rw [if_pos hl]
    unfold Leap at hl
    omega
  · rw [if_neg hl]
    unfold Leap at hl
    omega

theorem yearLength_pos (y : Int) : 0 < yearLength y := by
  unfold yearLength; split <;> omega

theorem daysBeforeYear_strictMono : StrictMono daysBeforeYear := by
  apply strictMono_int_of_lt_succ
  intro y
  rw [daysBeforeYear_succ]
  exact Int.lt_add_of_pos_right _ (yearLength_pos y)

theorem daysBeforeYear_yearOf_le (n : Int) : daysBeforeYear (yearOf n) ≤ n := by
  unfold yearOf daysBeforeYear
  dsimp only
  split
  · omega
  · split <;> omega

theorem lt_daysBeforeYear_yearOf (n : Int) : n < daysBeforeYear (yearOf n + 1) := by
  unfold yearOf
  dsimp only
  split
  · next h => rwa [Int.sub_add_cancel]
  · split
    · unfold daysBeforeYear; omega
    · next h => exact Int.not_le.mp h

/-- A year is determined by one of its days. -/
theorem yearOf_eq {n y : Int} (h : daysBeforeYear y ≤ n) (h' : n < daysBeforeYear (y + 1)) :
    yearOf n = y := by
  have hle : yearOf n < y + 1 :=
    daysBeforeYear_strictMono.lt_iff_lt.mp ((daysBeforeYear_yearOf_le n).trans_lt h')
  have hge : y < yearOf n + 1 :=
    daysBeforeYear_strictMono.lt_iff_lt.mp (h.trans_lt (lt_daysBeforeYear_yearOf n))
  omega

theorem yearOf_mono {n n' : Int} (h : n ≤ n') : yearOf n ≤ yearOf n' := by
  have hlt := (daysBeforeYear_yearOf_le n).trans_lt (h.trans_lt (lt_daysBeforeYear_yearOf n'))
  exact Int.lt_add_one_iff.mp (daysBeforeYear_strictMono.lt_iff_lt.mp hlt)

/-! ### Months -/

/-- The days of the year `y` before the first of its month `m`; `m` is 13 at the year's end. -/
def daysBeforeMonth (y m : Int) : Int :=
  (367 * m - 362) / 12 - if m ≤ 2 then 0 else if Leap y then 1 else 2

/-- The days of the month `m` of the year `y`. -/
def monthLength (y m : Int) : Int :=
  if m = 2 then if Leap y then 29 else 28
  else if m = 4 ∨ m = 6 ∨ m = 9 ∨ m = 11 then 30
  else 31

/-- The days that the month `m` has in the longest year. -/
def maxMonthLength (m : Int) : Int := monthLength 0 m

/-- The month of the day `r` of the year `y`, counted from 0. -/
def monthOf (y r : Int) : Int :=
  (12 * (r + if r < daysBeforeMonth y 3 then 0 else if Leap y then 1 else 2) + 373) / 367

theorem daysBeforeMonth_one (y : Int) : daysBeforeMonth y 1 = 0 := rfl

theorem daysBeforeMonth_succ (y : Int) {m : Int} (h : 1 ≤ m) (h' : m ≤ 12) :
    daysBeforeMonth y (m + 1) = daysBeforeMonth y m + monthLength y m := by
  unfold daysBeforeMonth monthLength
  by_cases hl : Leap y
  all_goals simp only [hl, if_true, if_false]
  all_goals interval_cases m <;> rfl

theorem daysBeforeMonth_thirteen (y : Int) : daysBeforeMonth y 13 = yearLength y := by
  unfold daysBeforeMonth yearLength
  by_cases hl : Leap y
  · simp [hl]
  · simp [hl]

theorem daysBeforeMonth_nonneg (y : Int) {m : Int} (h : 1 ≤ m) (h' : m ≤ 12) :
    0 ≤ daysBeforeMonth y m := by
  unfold daysBeforeMonth
  by_cases hl : Leap y
  all_goals simp only [hl, if_true, if_false]
  all_goals interval_cases m <;> decide

theorem daysBeforeMonth_le (y : Int) {m : Int} (h : 1 ≤ m) (h' : m ≤ 12) :
    daysBeforeMonth y m + monthLength y m ≤ yearLength y := by
  unfold daysBeforeMonth monthLength yearLength
  by_cases hl : Leap y
  all_goals simp only [hl, if_true, if_false]
  all_goals interval_cases m <;> decide

/-- The month found by division is the one that the day lies in. -/
theorem monthOf_spec {y r : Int} (h : 0 ≤ r) (h' : r < yearLength y) :
    (1 ≤ monthOf y r ∧ monthOf y r ≤ 12) ∧ daysBeforeMonth y (monthOf y r) ≤ r ∧
      r < daysBeforeMonth y (monthOf y r) + monthLength y (monthOf y r) := by
  unfold yearLength at h'
  unfold monthOf daysBeforeMonth monthLength
  by_cases hl : Leap y
  · simp only [hl, if_true] at h' ⊢
    norm_num
    omega
  · simp only [hl, if_false] at h' ⊢
    norm_num
    omega

/-- A month is determined by one of its days. -/
theorem monthOf_eq {y r m : Int} (hm : 1 ≤ m) (hm' : m ≤ 12) (h : daysBeforeMonth y m ≤ r)
    (h' : r < daysBeforeMonth y m + monthLength y m) : monthOf y r = m := by
  unfold monthOf
  unfold daysBeforeMonth monthLength at *
  by_cases hl : Leap y
  · simp only [hl, if_true] at h h' ⊢
    norm_num
    interval_cases m <;> norm_num at h h' <;> omega
  · simp only [hl, if_false] at h h' ⊢
    norm_num
    interval_cases m <;> norm_num at h h' <;> omega

theorem monthLength_ge (y m : Int) : 28 ≤ monthLength y m := by
  unfold monthLength; split_ifs <;> omega

theorem monthLength_le_max (y m : Int) : monthLength y m ≤ maxMonthLength m := by
  have hl : Leap 0 := by decide
  unfold maxMonthLength monthLength
  rw [if_pos hl]
  split_ifs <;> omega

theorem maxMonthLength_le (m : Int) : maxMonthLength m ≤ 31 := by
  unfold maxMonthLength monthLength; split_ifs <;> omega

theorem monthLength_of_leap {y : Int} (h : Leap y) (m : Int) :
    monthLength y m = maxMonthLength m := by
  have hl : Leap 0 := by decide
  unfold maxMonthLength monthLength
  rw [if_pos hl, if_pos h]

/-! ### The calendar fields of a second -/

def day (t : Int) : Int := t / 86400

def year (t : Int) : Int := yearOf (day t)

def yearDay (t : Int) : Int := day t - daysBeforeYear (year t)

def month (t : Int) : Int := monthOf (year t) (yearDay t)

def monthday (t : Int) : Int := yearDay t - daysBeforeMonth (year t) (month t) + 1

/-- The day of the week, 0 for a Sunday; the count of days begins on a Saturday. -/
def weekday (t : Int) : Int := (day t + 6) % 7

def hour (t : Int) : Int := t % 86400 / 3600

def minute (t : Int) : Int := t % 3600 / 60

def second (t : Int) : Int := t % 60

/-- The day of a date; days past the end of a month run on into the next one. -/
def date (y m d : Int) : Int := daysBeforeYear y + daysBeforeMonth y m + (d - 1)

/-- The dates of the calendar. -/
def ValidDate (y m d : Int) : Prop := (1 ≤ m ∧ m ≤ 12) ∧ 1 ≤ d ∧ d ≤ monthLength y m

/-- The second of a date and a time of day. -/
def instant (y m d h mi s : Int) : Int := date y m d * 86400 + h * 3600 + mi * 60 + s

theorem yearDay_bounds (t : Int) : 0 ≤ yearDay t ∧ yearDay t < yearLength (year t) := by
  have hle := daysBeforeYear_yearOf_le (day t)
  have hlt := lt_daysBeforeYear_yearOf (day t)
  rw [daysBeforeYear_succ] at hlt
  unfold yearDay year
  omega

theorem month_bounds (t : Int) : 1 ≤ month t ∧ month t ≤ 12 :=
  (monthOf_spec (yearDay_bounds t).1 (yearDay_bounds t).2).1

theorem monthday_bounds (t : Int) :
    1 ≤ monthday t ∧ monthday t ≤ monthLength (year t) (month t) := by
  obtain ⟨-, hle, hlt⟩ := monthOf_spec (yearDay_bounds t).1 (yearDay_bounds t).2
  unfold monthday month
  omega

theorem time_bounds (t : Int) : (0 ≤ hour t ∧ hour t ≤ 23) ∧ (0 ≤ minute t ∧ minute t ≤ 59) ∧
    0 ≤ second t ∧ second t ≤ 59 := by
  unfold hour minute second; omega

theorem date_day (t : Int) : date (year t) (month t) (monthday t) = day t := by
  unfold date monthday yearDay; omega

/-- **The fields of a second determine it.** -/
theorem instant_fields (t : Int) :
    instant (year t) (month t) (monthday t) (hour t) (minute t) (second t) = t := by
  rw [instant, date_day]
  unfold day hour minute second
  omega

/-- **A date is the date of its day.** -/
theorem fields_of_date {t y m d : Int} (hv : ValidDate y m d) (h : day t = date y m d) :
    year t = y ∧ month t = m ∧ monthday t = d := by
  obtain ⟨⟨hm, hm'⟩, hd, hd'⟩ := hv
  have hpos := daysBeforeMonth_nonneg y hm hm'
  have hend := daysBeforeMonth_le y hm hm'
  unfold date at h
  have hy : year t = y := by
    apply yearOf_eq
    · omega
    · rw [daysBeforeYear_succ]; omega
  have hr : yearDay t = daysBeforeMonth y m + (d - 1) := by
    rw [yearDay, hy]; omega
  have hmonth : month t = m := by
    rw [month, hy, hr]
    exact monthOf_eq hm hm' (by omega) (by omega)
  refine ⟨hy, hmonth, ?_⟩
  rw [monthday, hr, hy, hmonth]
  omega

/-- **A time of day is the time of its second.** -/
theorem time_of_instant {y m d h mi s : Int} (hh : 0 ≤ h ∧ h ≤ 23) (hmi : 0 ≤ mi ∧ mi ≤ 59)
    (hs : 0 ≤ s ∧ s ≤ 59) : day (instant y m d h mi s) = date y m d ∧
      hour (instant y m d h mi s) = h ∧ minute (instant y m d h mi s) = mi ∧
      second (instant y m d h mi s) = s := by
  unfold instant day hour minute second
  omega

/-! ### The intervals of constant fields -/

/-- The date is a function of the day. -/
theorem fields_of_day_eq {t u : Int} (h : day u = day t) :
    year u = year t ∧ month u = month t ∧ monthday u = monthday t ∧ weekday u = weekday t := by
  have hy : year u = year t := by rw [year, h, ← year]
  have hr : yearDay u = yearDay t := by rw [yearDay, h, hy, ← yearDay]
  have hm : month u = month t := by rw [month, hy, hr, ← month]
  refine ⟨hy, hm, ?_, ?_⟩
  · rw [monthday, hr, hy, hm, ← monthday]
  · rw [weekday, h, ← weekday]

theorem year_mono {t u : Int} (h : t ≤ u) : year t ≤ year u :=
  yearOf_mono (Int.ediv_le_ediv (by decide) h)

theorem lt_nextYear (t : Int) : t < instant (year t + 1) 1 1 0 0 0 := by
  have := lt_daysBeforeYear_yearOf (day t)
  unfold instant date
  rw [daysBeforeMonth_one]
  unfold year day at *
  omega

theorem year_eq_of_lt {t u : Int} (h : t ≤ u) (h' : u < instant (year t + 1) 1 1 0 0 0) :
    year u = year t := by
  have hle := daysBeforeYear_yearOf_le (day t)
  unfold instant date at h'
  rw [daysBeforeMonth_one] at h'
  apply yearOf_eq
  · unfold year day at *; omega
  · unfold year day at *; omega

theorem lt_nextMonth (t : Int) : t < instant (year t) (month t + 1) 1 0 0 0 := by
  have hm := month_bounds t
  have hd := monthday_bounds t
  have := date_day t
  unfold instant
  unfold date at *
  rw [daysBeforeMonth_succ _ hm.1 hm.2]
  have : day t = t / 86400 := rfl
  omega

theorem month_eq_of_lt {t u : Int} (h : t ≤ u)
    (h' : u < instant (year t) (month t + 1) 1 0 0 0) : year u = year t ∧ month u = month t := by
  have hm := month_bounds t
  have hd := monthday_bounds t
  have ht := date_day t
  -- the day of `u` as a date of the same month
  have hu : day u = date (year t) (month t) (monthday t + (day u - day t)) := by
    unfold date at *; omega
  have hvalid : ValidDate (year t) (month t) (monthday t + (day u - day t)) := by
    refine ⟨hm, ?_, ?_⟩
    · unfold day; omega
    · unfold instant date at h'
      rw [daysBeforeMonth_succ _ hm.1 hm.2] at h'
      unfold date at ht
      unfold day at *
      omega
  obtain ⟨hyear, hmonth, -⟩ := fields_of_date hvalid hu
  exact ⟨hyear, hmonth⟩

theorem nextMonth_december (y : Int) : instant y 13 1 0 0 0 = instant (y + 1) 1 1 0 0 0 := by
  unfold instant date
  rw [daysBeforeMonth_thirteen, daysBeforeMonth_one, daysBeforeYear_succ]
  omega

theorem day_eq_of_lt {t u : Int} (h : t ≤ u) (h' : u < (day t + 1) * 86400) : day u = day t := by
  unfold day at *; omega

theorem hour_eq_of_lt {t u : Int} (h : t ≤ u) (h' : u < t - t % 3600 + 3600) :
    hour u = hour t := by
  unfold hour; omega

theorem minute_eq_of_lt {t u : Int} (h : t ≤ u) (h' : u < t - t % 60 + 60) :
    minute u = minute t := by
  unfold minute; omega

/-! ### The order of the fields -/

theorem lt_of_year_lt {t u : Int} (h : year t < year u) : t < u := by
  by_contra hle
  exact absurd (year_mono (Int.not_lt.mp hle)) (Int.not_le.mpr h)

/-- Later months begin later. -/
theorem daysBeforeMonth_mono (y : Int) {m n : Int} (hm : 1 ≤ m) (hmn : m ≤ n) (hn : n ≤ 13) :
    daysBeforeMonth y m ≤ daysBeforeMonth y n := by
  induction n, hmn using Int.leInduction with
  | base => exact Int.le_refl _
  | succ n hmn ih =>
    have hstep := daysBeforeMonth_succ y (Int.le_trans hm hmn) (show n ≤ 12 by omega)
    have hlength := monthLength_ge y n
    have hrec := ih (by omega)
    omega

theorem lt_of_month_lt {t u : Int} (hy : year t = year u) (h : month t < month u) : t < u := by
  have ht := lt_nextMonth t
  have hmt := month_bounds t
  have hmu := month_bounds u
  have hmono := daysBeforeMonth_mono (year u) (show 1 ≤ month t + 1 by omega)
    (show month t + 1 ≤ month u by omega) (by omega)
  have hd := monthday_bounds u
  have hu := date_day u
  unfold instant date at ht
  unfold date at hu
  rw [hy] at ht
  unfold day at hu
  omega

theorem day_lt_of_monthday_lt {t u : Int} (hy : year t = year u) (hm : month t = month u)
    (h : monthday t < monthday u) : day t < day u := by
  have ht := date_day t
  have hu := date_day u
  unfold date at ht hu
  rw [hy, hm] at ht
  omega

theorem day_eq_of_fields {t u : Int} (hy : year t = year u) (hm : month t = month u)
    (hd : monthday t = monthday u) : day t = day u := by
  rw [← date_day t, ← date_day u, hy, hm, hd]

/-! ### Four hundred years -/

/-- The days of 400 years. -/
theorem daysBeforeYear_add_400 (y : Int) : daysBeforeYear (y + 400) = daysBeforeYear y + 146097 := by
  unfold daysBeforeYear
  omega

/-- **The calendar begins again after 400 years**, which are whole weeks. -/
theorem fields_add_400 (t : Int) : year (t + 146097 * 86400) = year t + 400 ∧
    month (t + 146097 * 86400) = month t ∧ monthday (t + 146097 * 86400) = monthday t ∧
    weekday (t + 146097 * 86400) = weekday t := by
  have hleap : Leap (year t + 400) ↔ Leap (year t) := by
    unfold Leap
    omega
  have hday : day (t + 146097 * 86400) = day t + 146097 := by
    unfold day
    omega
  have hm := month_bounds t
  have hd := monthday_bounds t
  have hvalid : ValidDate (year t + 400) (month t) (monthday t) := by
    refine ⟨hm, hd.1, ?_⟩
    unfold monthLength at *
    simp only [hleap]
    exact hd.2
  have hdate : date (year t + 400) (month t) (monthday t) = date (year t) (month t) (monthday t)
      + 146097 := by
    unfold date daysBeforeMonth
    rw [daysBeforeYear_add_400]
    simp only [hleap]
    omega
  obtain ⟨hyear, hmonth, hmonthday⟩ :=
    fields_of_date hvalid (by rw [hday, hdate, date_day])
  refine ⟨hyear, hmonth, hmonthday, ?_⟩
  unfold weekday
  rw [hday]
  omega

end Calendar
