/-
# Which schedules let the search end

`Times::init` refuses some schedules for which the search of the next expiration would not
end ("we have a loop"), but not all of them.  In a zone with a fixed offset the search of an
accepted schedule ends exactly when the schedule `CanMatch`: some year is given, or a
weekday, or no monthday, or one of the months has one of the monthdays in a leap year.
-/
import CatraLibraries.Scheduler.Search

namespace CatraLibraries

open Memory Stdio JumpSearch Calendar

namespace Schedule

/-- The condition under which the search comes to an end. -/
def CanMatch (S : Schedule) : Prop :=
  S.year ≠ .star ∨ S.weekday ≠ .star ∨ S.monthday = .star ∨
    ∃ m d, S.month.holds m ∧ S.monthday.holds d ∧ (1 ≤ m ∧ m ≤ 12) ∧ 1 ≤ d ∧ d ≤ maxMonthLength m

/-- The fields whose ranges `init` checks, and which a token can give. -/
structure Checked (S : Schedule) : Prop where
  month : S.month.InRange 1 12
  month_ne : S.month ≠ .list []
  weekday : S.weekday.InRange 0 6
  weekday_ne : S.weekday ≠ .list []
  hour : S.hour.InRange 0 23
  hour_ne : S.hour ≠ .list []
  minute : S.minute.InRange 0 59
  minute_ne : S.minute ≠ .list []
  second : S.second.InRange 0 59
  second_ne : S.second ≠ .list []

variable {S : Schedule} {x : Int}

theorem pass_fail {e : SchedulerError} (h : S.pass x = .fail e) : e = .schReachedLastTimeout := by
  unfold pass at h
  split_ifs at h
  exact (Pass.fail.inj h).symm

/-! ### A year is given -/

theorem lt_of_year_le {y : Int} (h : Calendar.year x ≤ y) : x < instant (y + 1) 1 1 0 0 0 := by
  have hlt := lt_nextYear x
  have hmono := daysBeforeYear_strictMono.monotone (Int.add_le_add_right h 1)
  unfold instant date at *
  rw [daysBeforeMonth_one] at *
  omega

/-- After the last year that it gives the search stops. -/
theorem halts_of_year (hy : S.year ≠ .star) (x : Int) : ∃ n r, loop S.pass n x = .ok r := by
  refine (pass_seeks S).halts_of_bound (b := instant (S.year.lastYear + 1) 1 1 0 0 0)
    (fun t t' h => lt_of_year_le ?_) x
  by_cases hholds : S.year.holds (Calendar.year t)
  · exact Field.lastYear_ge hholds hy
  · unfold pass at h
    rw [if_pos hholds] at h
    split_ifs at h with hlast
    omega

/-! ### Any year -/

/-- In a leap year after a given second. -/
theorem exists_leap_after (x : Int) : ∃ y, Leap y ∧ Calendar.year x < y := by
  refine ⟨400 * (|Calendar.year x| + 1), ⟨by omega, Or.inr (by omega)⟩, ?_⟩
  have := le_abs_self (Calendar.year x)
  have := abs_nonneg (Calendar.year x)
  omega

/-- Every weekday comes in the first seven days of a month. -/
theorem exists_weekday (y m : Int) {w : Int} (h : 0 ≤ w) (h' : w ≤ 6) :
    ∃ d, (1 ≤ d ∧ d ≤ 7) ∧ (date y m d + 6) % 7 = w := by
  refine ⟨1 + (w - (date y m 1 + 6)) % 7, ⟨by omega, by omega⟩, ?_⟩
  unfold date
  omega

/-- In a leap year, a month of the schedule has a day that matches. -/
theorem exists_day (hS : S.Checked) (hcan : S.CanMatch) (hy : S.year = .star) {y : Int}
    (hleap : Leap y) : ∃ m d, ValidDate y m d ∧ S.month.holds m ∧
      ∀ u, day u = date y m d → S.MatchesDay u := by
  obtain ⟨m, hmRange, hm⟩ := Field.exists_holds hS.month hS.month_ne (by decide)
  have hlen := monthLength_ge y m
  by_cases hwd : S.weekday = .star
  · by_cases hmd : S.monthday = .star
    · -- both stars: the first of the month
      refine ⟨m, 1, ⟨hmRange, Int.le_refl 1, by omega⟩, hm, fun u _ => ?_⟩
      rw [MatchesDay, if_pos hmd, hwd]
      rfl
    · -- the monthday alone: the one that the condition names
      obtain h | h | h | ⟨m, d, hm, hd, hmRange, hd1, hdmax⟩ := hcan
      · exact absurd hy h
      · exact absurd hwd h
      · exact absurd h hmd
      · have hvalid : ValidDate y m d := ⟨hmRange, hd1, by rwa [monthLength_of_leap hleap]⟩
        refine ⟨m, d, hvalid, hm, fun u hu => ?_⟩
        rw [MatchesDay, if_neg hmd, if_pos hwd, (fields_of_date hvalid hu).2.2]
        exact hd
  · -- a weekday: one of the first seven days
    obtain ⟨w, hwRange, hw⟩ := Field.exists_holds hS.weekday hS.weekday_ne (by decide)
    obtain ⟨d, hdRange, hdw⟩ := exists_weekday y m hwRange.1 hwRange.2
    refine ⟨m, d, ⟨hmRange, hdRange.1, by omega⟩, hm, fun u hu => ?_⟩
    have hday : Calendar.weekday u = w := by rw [Calendar.weekday, hu, hdw]
    rw [MatchesDay, hday, if_neg hwd]
    split_ifs
    · exact hw
    · exact Or.inr hw

/-- A schedule with any year that can match has a second that matches after every second. -/
theorem exists_matches_after (hS : S.Checked) (hcan : S.CanMatch) (hy : S.year = .star)
    (x : Int) : ∃ u, x ≤ u ∧ S.Matches u := by
  obtain ⟨y, hleap, hlater⟩ := exists_leap_after x
  obtain ⟨m, d, hvalid, hm, hmatch⟩ := exists_day hS hcan hy hleap
  obtain ⟨h, hhRange, hh⟩ := Field.exists_holds hS.hour hS.hour_ne (by decide)
  obtain ⟨mi, hmiRange, hmi⟩ := Field.exists_holds hS.minute hS.minute_ne (by decide)
  obtain ⟨s, hsRange, hs⟩ := Field.exists_holds hS.second hS.second_ne (by decide)
  obtain ⟨hday, hhour, hminute, hsecond⟩ := @time_of_instant y m d h mi s hhRange hmiRange hsRange
  obtain ⟨hyear, hmonth, -⟩ := fields_of_date hvalid hday
  refine ⟨instant y m d h mi s, ?_, ?_⟩
  · by_contra hlt
    have hmono := year_mono (Int.le_of_lt (Int.not_le.mp hlt))
    omega
  · refine ⟨by rw [hy]; rfl, by rwa [hmonth], hmatch _ hday, by rwa [hhour], by rwa [hminute],
      by rwa [hsecond]⟩

/-! ### When it ends -/

/-- Without the condition no second matches. -/
theorem not_matches (hcan : ¬S.CanMatch) (x : Int) : ¬S.Matches x := by
  rintro ⟨-, hm, hday, -⟩
  simp only [CanMatch, not_or, not_not] at hcan
  obtain ⟨-, hwd, hmd, hnone⟩ := hcan
  rw [MatchesDay, if_neg hmd, if_pos hwd] at hday
  have hd := monthday_bounds x
  exact hnone ⟨Calendar.month x, Calendar.monthday x, hm, hday, month_bounds x, hd.1,
    hd.2.trans (monthLength_le_max _ _)⟩

/-- **The search of a checked schedule ends exactly when the schedule can match.** -/
theorem ends_iff (hS : S.Checked) (x : Int) : (∃ n r, loop S.pass n x = .ok r) ↔ S.CanMatch := by
  constructor
  · intro ⟨n, r, hr⟩
    by_contra hcan
    -- without a match and with any year, every pass asks for another one
    have hy : S.year = .star := by_contra fun hy => hcan (Or.inl hy)
    have hagain : ∀ t, True → ∃ t', S.pass t = .again t' ∧ True := fun t _ => by
      cases hp : S.pass t with
      | done t' => exact absurd ((pass_seeks S).done hp).2 (not_matches hcan t)
      | again t' => exact ⟨t', rfl, trivial⟩
      | fail e =>
        unfold pass at hp
        rw [if_neg (by rw [hy]; simp [Field.holds])] at hp
        split_ifs at hp
    rw [loop_diverges hagain n trivial] at hr
    exact absurd hr (by simp)
  · intro hcan
    by_cases hy : S.year = .star
    · obtain ⟨u, hle, hu⟩ := exists_matches_after hS hcan hy x
      exact (pass_seeks S).halts_of_exists hle hu
    · exact halts_of_year hy x

end Schedule

/-! ### The schedules that init accepts -/

/-- An accepted schedule is read in seven fields with checked ranges. -/
theorem checked_of_checkSchedule {pSchedule : List Char} (h : checkSchedule pSchedule = .ok ()) :
    ∃ S : Schedule, S.Reads pSchedule ∧ S.Checked := by
  obtain ⟨-, -, -, hrange⟩ := checkSchedule_eq_ok.mp h
  obtain ⟨y, mo, md, wd, h, mi, s, rest, htok, hmo, -, -, hwd, hh, hmi, hs⟩ :=
    checkRangeValues_eq_ok.mp hrange
  exact ⟨_, ⟨y, mo, md, wd, h, mi, s, rest, htok, rfl⟩, ⟨hmo, readField_ne_empty mo, hwd,
    readField_ne_empty wd, hh, readField_ne_empty h, hmi, readField_ne_empty mi, hs,
    readField_ne_empty s⟩⟩

theorem Schedule.Reads.unique {S S' : Schedule} {text : List Char} (h : S.Reads text)
    (h' : S'.Reads text) : S = S' := by
  obtain ⟨y, mo, md, wd, hr, mi, s, rest, htok, rfl⟩ := h
  obtain ⟨y', mo', md', wd', hr', mi', s', rest', htok', rfl⟩ := h'
  obtain ⟨rfl, rfl, rfl, rfl, rfl, rfl, rfl, -⟩ := by simpa [htok] using htok'
  rfl

namespace Times

/-- The search begins at the fields of some second. -/
theorem exists_localTm_of_searchStart {off : Int} {t : Times} {tm : Tm} {ulMilliSeconds : Nat}
    (h : t.searchStart (fixedOffset off) = .ok (tm, ulMilliSeconds)) : ∃ x, tm = localTm x := by
  unfold searchStart at h
  split at h
  · exact absurd h (by simp)
  · obtain ⟨rfl, -⟩ := Prod.mk.inj (Except.ok.inj h)
    exact ⟨_, rfl⟩

/-- The search finds a date or reports the last timeout. -/
def SearchEnds (libc : Libc) (pCalendarSchedule : List Char) (tm : Tm) : Prop :=
  ∃ fuel r, searchLoop libc pCalendarSchedule fuel tm = .ok r ∧
    (r = .error .schReachedLastTimeout ∨ ∃ tm', r = .ok tm')

theorem searchEnds_localTm_iff {off x : Int} {S : Schedule} {text : List Char}
    (hreads : S.Reads text) (hchecked : S.Checked) :
    SearchEnds (fixedOffset off) text (localTm x) ↔ S.CanMatch := by
  rw [← Schedule.ends_iff hchecked x]
  unfold SearchEnds
  simp only [searchLoop_localTm hreads]
  constructor
  · rintro ⟨n, r, hr, -⟩
    cases hl : loop S.pass n x with
    | error fault => rw [hl] at hr; exact absurd hr (by simp [Except.map])
    | ok r' => exact ⟨n, r', hl⟩
  · rintro ⟨n, r, hr⟩
    refine ⟨n, r.map localTm, by rw [hr]; rfl, ?_⟩
    cases r with
    | ok x' => exact Or.inr ⟨localTm x', rfl⟩
    | error e =>
      obtain ⟨x', hfail⟩ := exists_fail_of_loop hr
      rw [Schedule.pass_fail hfail]
      exact Or.inl rfl

/-- **When the search of an accepted schedule ends.**  For every schedule that `init`
accepts and every current expiration, the search ends if and only if the schedule can
match. -/
theorem searchLoop_ends_iff (off : Int) {mutexInit : Bool} {pSchedule : List Char}
    {pClassName : Option (List Char)} {t₀ t₁ t : Times} {tm : Tm} {ulMilliSeconds : Nat}
    (hinit : t₀.init mutexInit (some pSchedule) pClassName = (.ok (), t₁))
    (ht : t.pCalendarSchedule = t₁.pCalendarSchedule)
    (hstart : t.searchStart (fixedOffset off) = .ok (tm, ulMilliSeconds)) :
    SearchEnds (fixedOffset off) t.pCalendarSchedule tm
      ↔ ∃ S : Schedule, S.Reads pSchedule ∧ S.CanMatch := by
  obtain ⟨⟨-, hcheck, -⟩, rfl⟩ := init_eq_ok.mp hinit
  obtain ⟨S, hreads, hchecked⟩ := checked_of_checkSchedule hcheck
  obtain ⟨x, rfl⟩ := exists_localTm_of_searchStart hstart
  rw [ht, searchEnds_localTm_iff hreads hchecked]
  constructor
  · exact fun hcan => ⟨S, hreads, hcan⟩
  · rintro ⟨S', hreads', hcan⟩
    rwa [hreads.unique hreads']

/-! ### The thirty-first of february -/

/-- A new object, as the constructor leaves it. -/
def newTimes : Times where
  schTimesStatus := .schTimesBuilded
  ttTimesType := .schTypePeriodic
  pClassName := []
  pCalendarSchedule := []
  bNextDaylightSavingTime := false
  pNextExpirationDateTime := []
  bCurrentDaylightSavingTime := false
  pCurrentExpirationDateTime := []

/-- A timer that `init` has given a schedule, on the first of January 2024. -/
def scheduledTimes (pSchedule : String) : Times :=
  { (newTimes.init true (some pSchedule.toList) none).2 with
    pCurrentExpirationDateTime := "2024-01-01 00:00:00:0000".toList }

/-- The twenty-ninth of february comes again. -/
theorem february29_ends : SearchEnds (fixedOffset 0) "* 2 29 * 0 0 0".toList
    (localTm (localSecond 0 1704067201)) := by
  have hinit : newTimes.init true (some "* 2 29 * 0 0 0".toList) none
      = (.ok (), (newTimes.init true (some "* 2 29 * 0 0 0".toList) none).2) := by
    decide +kernel
  have hstart : (scheduledTimes "* 2 29 * 0 0 0").searchStart (fixedOffset 0)
      = .ok (localTm (localSecond 0 1704067201), 0) := by
    decide +kernel
  refine (searchLoop_ends_iff 0 hinit (t := scheduledTimes "* 2 29 * 0 0 0") rfl hstart).mpr
    ⟨⟨.star, .value 2, .value 29, .star, .value 0, .value 0, .value 0⟩, ?_, ?_⟩
  · exact ⟨['*'], ['2'], ['2', '9'], ['*'], ['0'], ['0'], ['0'], [], by decide +kernel,
      by decide +kernel⟩
  · exact Or.inr (Or.inr (Or.inr ⟨2, 29, by decide⟩))

/-- `init` accepts a schedule whose search never ends: every year, the thirty-first of
february. -/
theorem february31_never_ends :
    ¬∀ (pSchedule : List Char) (t₁ t : Times) (tm : Tm) (ulMilliSeconds : Nat),
      newTimes.init true (some pSchedule) none = (.ok (), t₁) →
      t.pCalendarSchedule = t₁.pCalendarSchedule →
      t.searchStart (fixedOffset 0) = .ok (tm, ulMilliSeconds) →
      SearchEnds (fixedOffset 0) t.pCalendarSchedule tm := by
  intro hall
  have hinit : newTimes.init true (some "* 2 31 * 0 0 0".toList) none
      = (.ok (), (newTimes.init true (some "* 2 31 * 0 0 0".toList) none).2) := by
    decide +kernel
  have hstart : (scheduledTimes "* 2 31 * 0 0 0").searchStart (fixedOffset 0)
      = .ok (localTm (localSecond 0 1704067201), 0) := by
    decide +kernel
  have hends := hall _ _ (scheduledTimes "* 2 31 * 0 0 0") _ _ hinit rfl hstart
  have hreads : Schedule.Reads
      ⟨.star, .value 2, .value 31, .star, .value 0, .value 0, .value 0⟩
      "* 2 31 * 0 0 0".toList :=
    ⟨['*'], ['2'], ['3', '1'], ['*'], ['0'], ['0'], ['0'], [], by decide +kernel,
      by decide +kernel⟩
  obtain ⟨⟨-, hcheck, -⟩, -⟩ := init_eq_ok.mp hinit
  obtain ⟨S, hreads', hchecked⟩ := checked_of_checkSchedule hcheck
  obtain rfl := hreads.unique hreads'
  have hcan := (searchEnds_localTm_iff hreads hchecked).mp hends
  obtain h | h | h | ⟨m, d, hm, hd, -, -, hle⟩ := hcan
  · exact h rfl
  · exact h rfl
  · exact absurd h (by decide)
  · obtain rfl := of_decide_eq_true hm
    obtain rfl := of_decide_eq_true hd
    exact absurd hle (by decide)

end Times

end CatraLibraries
