/-
# Starting a periodic timer with a date

`start` hands the date to `DateTime::addSeconds` with the flag -1, "not known", and nothing to
add.  The shortcut of `addSeconds` copies the flag into a `bool`: the date then counts as daylight
saving time whatever the date is.  The next expiration is computed from there, one period after
the date read as daylight saving time.
-/
import CatraLibraries.Scheduler.DaylightZone
import CatraLibraries.Scheduler.PeriodicDates

namespace CatraLibraries

open Memory Stdio Calendar

/-- The milliseconds since 1970 that a date denotes with a flag of the daylight saving time. -/
def denotes (libc : Libc) (text : List Char) (tmIsdst : Int) : Option Int :=
  (scanUlDateTime text).map fun r => libc.mktime (r.1.toTm tmIsdst) * 1000 + r.2

section

variable {d : UlDateTime} {ms p : Nat} {x : Int}

/-- The date of numbers that fit lies between the years -1 and 10008. -/
theorem localSecond_toTm_bounds (h : d.Fits ms) (tmIsdst : Int) :
    -10 ^ 9 ≤ (d.toTm tmIsdst).localSecond ∧ (d.toTm tmIsdst).localSecond ≤ 10 ^ 12 := by
  obtain ⟨hy, hmo, hd, hh, hmi, hs, -⟩ := h
  have small : ∀ {n : Nat}, n < 10 ^ 4 → toInt n = n := fun hn =>
    Int.bmod_eq_of_le (by omega) (by omega)
  unfold UlDateTime.toTm Tm.localSecond
  dsimp only
  rw [small hy, small (by omega), small (by omega), small (by omega), small (by omega),
    small (by omega), Int.sub_add_cancel]
  have hm : 1 ≤ ((d.ulMonth : Int) - 1) % 12 + 1 := by omega
  have hm' : ((d.ulMonth : Int) - 1) % 12 + 1 ≤ 12 := by omega
  have hdiv : -1 ≤ ((d.ulMonth : Int) - 1) / 12 ∧ ((d.ulMonth : Int) - 1) / 12 ≤ 8 := by omega
  generalize ((d.ulMonth : Int) - 1) % 12 + 1 = m at hm hm' ⊢
  generalize ((d.ulMonth : Int) - 1) / 12 = c at hdiv ⊢
  have hpos := daysBeforeMonth_nonneg (d.ulYear + c) hm hm'
  have hle := daysBeforeMonth_le (d.ulYear + c) hm hm'
  have hlen := monthLength_ge (d.ulYear + c) m
  have hyear : yearLength (d.ulYear + c) ≤ 366 := by unfold yearLength; split <;> omega
  unfold instant date daysBeforeYear
  omega

/-- A second whose fields fit, and which is not too far away, is one of the four-digit years. -/
theorem fourDigits_of_fits (hx : -10 ^ 10 ≤ x) (hx' : x ≤ 10 ^ 17)
    (h : (localTm x).toUlDateTime.Fits ms) : FourDigits x := by
  have hlow : year (-10 ^ 10) = -317 := by decide +kernel
  have hhigh : year (10 ^ 17) = 3168873850 := by decide +kernel
  have hmono := year_mono hx
  have hmono' := year_mono hx'
  have hy : toUnsignedLong (year x - 1900 + 1900) < 10 ^ 4 := h.ulYear
  unfold toUnsignedLong at hy
  unfold FourDigits
  omega

end

section

variable {z : Zone} {d : UlDateTime} {u : Int} {ms p fuel : Nat} {text next : List Char}
  {b : Bool} {t t' : PeriodicTimes} {now : Option (Int × Nat)}

theorem denotes_printUlDateTime (h : d.Fits ms) (libc : Libc) (tmIsdst : Int) :
    denotes libc (printUlDateTime d ms) tmIsdst
      = some (libc.mktime (d.toTm tmIsdst) * 1000 + ms) := by
  unfold denotes
  rw [scanUlDateTime_printUlDateTime h, Option.map_some]

/-- **The text of an instant denotes it**, with its flag. -/
theorem denotes_tmOf (hx : FourDigits (z.localSecond u)) (hms : ms < 10 ^ 4) :
    denotes z.libc (printUlDateTime (z.tmOf u).toUlDateTime ms)
      (decide ((z.tmOf u).tmIsdst = 1)).toInt = some (u * 1000 + ms) := by
  have hflag : (decide ((z.tmOf u).tmIsdst = 1)).toInt = if z.daylight u then 1 else 0 := by
    unfold Zone.tmOf
    cases z.daylight u <;> rfl
  have hfits : (z.tmOf u).toUlDateTime.Fits ms := fits_localTm hx hms
  have hmk : z.libc.mktime ((z.tmOf u).toUlDateTime.toTm (if z.daylight u then 1 else 0)) = u := by
    have htm := toTm_localTm hx (if z.daylight u then 1 else 0)
    apply Zone.mktime_of_fields
    · show ((localTm (z.localSecond u)).toUlDateTime.toTm _).localSecond = _
      rw [htm]
      exact Zone.localSecond_localTm rfl rfl rfl rfl rfl rfl
    · rfl
  rw [denotes_printUlDateTime hfits, hflag, hmk]

/-- The local time of an instant is that of its date, up to the hour of daylight saving time. -/
theorem localSecond_mktime_add (z : Zone) (tm : Tm) (s : Int) :
    tm.localSecond + s - 3600 ≤ z.localSecond (z.libc.mktime tm + s) ∧
      z.localSecond (z.libc.mktime tm + s) ≤ tm.localSecond + s + 3600 :=
  z.localSecond_utc_add tm.localSecond s _

/-- **`addMilliSecondsToDateTime` adds to the instant** that the date and its flag denote. -/
theorem addMilliSeconds_denotes (dst : Bool) (hd : d.Fits ms)
    (h : addMilliSecondsToDateTime z.libc (printUlDateTime d ms) dst.toInt p
      = .ok (.ok (next, b))) :
    denotes z.libc next b.toInt
      = some (z.libc.mktime (d.toTm dst.toInt) * 1000 + ((ms + p) % 2 ^ 64 : Nat)) := by
  unfold addMilliSecondsToDateTime addSeconds at h
  rw [scanUlDateTime_printUlDateTime hd] at h
  dsimp only at h
  have hsum : (ms + p) % 2 ^ 64 < 2 ^ 64 := Nat.mod_lt _ (by decide)
  generalize (ms + p) % 2 ^ 64 = sum at h hsum ⊢
  by_cases hzero : ((sum / 1000 : Nat) : Int) = 0
  · -- nothing to add: the numbers and the flag are handed on
    rw [if_pos hzero] at h
    have hmod : sum - sum / 1000 * 1000 = sum := by omega
    dsimp only at h
    rw [hmod] at h
    cases htext : dateText (printUlDateTime d sum) with
    | error fault => rw [htext] at h; cases h
    | ok text =>
      rw [htext] at h
      obtain ⟨hfits, rfl⟩ := dateText_eq_ok.mp htext
      cases h
      have hflag : (decide (dst.toInt ≠ 0)).toInt = dst.toInt := by cases dst <;> rfl
      rw [hflag, denotes_printUlDateTime hfits]
  · rw [if_neg hzero] at h
    have hbounds := localSecond_toTm_bounds hd dst.toInt
    have hloc : z.libc.localtimeR (z.libc.mktime (d.toTm dst.toInt) + (sum / 1000 : Nat))
        = some (z.tmOf (z.libc.mktime (d.toTm dst.toInt) + (sum / 1000 : Nat))) := rfl
    rw [hloc] at h
    dsimp only at h
    cases htext : dateText (printUlDateTime (z.tmOf (z.libc.mktime (d.toTm dst.toInt)
        + (sum / 1000 : Nat))).toUlDateTime (sum - sum / 1000 * 1000)) with
    | error fault => rw [htext] at h; cases h
    | ok text =>
      rw [htext] at h
      obtain ⟨hfits, rfl⟩ := dateText_eq_ok.mp htext
      cases h
      have hnear := localSecond_mktime_add z (d.toTm dst.toInt) (sum / 1000 : Nat)
      generalize z.libc.mktime (d.toTm dst.toInt) = u at hnear hfits ⊢
      generalize (d.toTm dst.toInt).localSecond = x at hbounds hnear
      have hx : FourDigits (z.localSecond (u + (sum / 1000 : Nat))) := by
        refine fourDigits_of_fits ?_ ?_ hfits
        · clear hfits htext hloc
          omega
        · clear hfits htext hloc
          omega
      rw [denotes_tmOf hx (by omega)]
      clear hfits htext hloc
      congr 1
      omega

/-- What `start` keeps of a date: its numbers, and a flag that is always set. -/
theorem startDateTime_eq_ok {libc : Libc} :
    t.startDateTime libc now (some text) = .ok (.ok (), t') ↔
      ∃ d ms, scanUlDateTime text = some (d, ms) ∧ d.Fits ms ∧ t' = { t with
        pCurrentExpirationDateTime := printUlDateTime d ms
        bCurrentDaylightSavingTime := true } := by
  unfold PeriodicTimes.startDateTime
  constructor
  · intro h
    dsimp only at h
    cases hscan : scanUlDateTime text with
    | none => rw [hscan] at h; cases h
    | some r =>
      obtain ⟨d, ms⟩ := r
      rw [hscan] at h
      dsimp only at h
      rw [addSeconds_zero] at h
      dsimp only at h
      cases htext : dateText (printUlDateTime d ms) with
      | error fault => rw [htext] at h; cases h
      | ok text =>
        rw [htext] at h
        obtain ⟨hfits, rfl⟩ := dateText_eq_ok.mp htext
        cases h
        exact ⟨d, ms, rfl, hfits, rfl⟩
  · rintro ⟨d, ms, hscan, hfits, rfl⟩
    dsimp only
    rw [hscan]
    dsimp only
    rw [addSeconds_zero]
    dsimp only
    rw [dateText_eq_ok.mpr ⟨hfits, rfl⟩]
    rfl

/-- **The first expiration after a date** is one period after the date read as daylight saving
time, with the sum of the milliseconds cut to an `unsigned long`. -/
theorem start_denotes (htype : t.ttTimesType = .schTypePeriodic)
    (h : t.start z.libc fuel now (some text) = .ok (.ok (), t')) :
    ∃ d ms, scanUlDateTime text = some (d, ms) ∧
      t'.ulPeriodInMilliSeconds = t.ulPeriodInMilliSeconds ∧
      denotes z.libc t'.pNextExpirationDateTime t'.bNextDaylightSavingTime.toInt
        = some (z.libc.mktime (d.toTm 1) * 1000
          + ((ms + t.ulPeriodInMilliSeconds) % 2 ^ 64 : Nat)) := by
  unfold PeriodicTimes.start at h
  split at h
  · cases h
  · cases hset : t.startDateTime z.libc now (some text) with
    | error fault => rw [hset] at h; cases h
    | ok r =>
      obtain ⟨r, t₁⟩ := r
      rw [hset, ok_bind] at h
      cases r with
      | error e => cases h
      | ok _ =>
        obtain ⟨d, ms, hscan, hfits, rfl⟩ := startDateTime_eq_ok.mp hset
        refine ⟨d, ms, hscan, ?_⟩
        dsimp only at h
        rw [htype] at h
        unfold PeriodicTimes.updateNextPeriodicExpirationDateTime at h
        dsimp only at h
        cases hadd : addMilliSecondsToDateTime z.libc (printUlDateTime d ms) (true).toInt
            t.ulPeriodInMilliSeconds with
        | error fault => rw [hadd] at h; cases h
        | ok r =>
          rw [hadd] at h
          cases r with
          | error e => cases h
          | ok r =>
            cases h
            exact ⟨rfl, addMilliSeconds_denotes true hfits hadd⟩

/-- The first expiration is the instant of the given date plus the period. -/
def FirstAfterPeriod (libc : Libc) (text : List Char) (t : PeriodicTimes) : Prop :=
  ∃ T, denotes libc text (-1) = some T ∧
    denotes libc t.pNextExpirationDateTime t.bNextDaylightSavingTime.toInt
      = some (T + t.ulPeriodInMilliSeconds)

/-- A date in daylight saving time, with a period that can be added to its milliseconds. -/
def DaylightDate (z : Zone) (text : List Char) (ulPeriodInMilliSeconds : Nat) : Prop :=
  ∃ d ms, scanUlDateTime text = some (d, ms) ∧ z.inDaylight (d.toTm (-1)) = true ∧
    ms + ulPeriodInMilliSeconds < 2 ^ 64

/-- **The first expiration is one period after the date exactly when the date is in daylight
saving time.** -/
theorem firstAfterPeriod_iff (htype : t.ttTimesType = .schTypePeriodic)
    (h : t.start z.libc fuel now (some text) = .ok (.ok (), t')) :
    FirstAfterPeriod z.libc text t' ↔ DaylightDate z text t.ulPeriodInMilliSeconds := by
  obtain ⟨d, ms, hscan, hperiod, hnext⟩ := start_denotes htype h
  have hgiven : denotes z.libc text (-1) = some (z.libc.mktime (d.toTm (-1)) * 1000 + ms) := by
    unfold denotes
    rw [hscan, Option.map_some]
  have hdst : z.libc.mktime (d.toTm 1) = z.utc (d.toTm (-1)).localSecond true := rfl
  have hforce : z.libc.mktime (d.toTm (-1))
      = z.utc (d.toTm (-1)).localSecond (z.inDaylight (d.toTm (-1))) := rfl
  have hmod := Nat.mod_le (ms + t.ulPeriodInMilliSeconds) (2 ^ 64)
  have hdate : DaylightDate z text t.ulPeriodInMilliSeconds ↔
      z.inDaylight (d.toTm (-1)) = true ∧ ms + t.ulPeriodInMilliSeconds < 2 ^ 64 := by
    constructor
    · rintro ⟨d', ms', hread, h'⟩
      cases hscan.symm.trans hread
      exact h'
    · exact fun h' => ⟨d, ms, hscan, h'⟩
  unfold FirstAfterPeriod
  rw [hdate, hgiven, hnext, hperiod, hdst, hforce]
  generalize z.inDaylight (d.toTm (-1)) = dst
  generalize (d.toTm (-1)).localSecond = x
  unfold Zone.utc
  constructor
  · rintro ⟨T, hT, hsum⟩
    obtain rfl := Option.some.inj hT
    have heq := Option.some.inj hsum
    cases dst with
    | true =>
      refine ⟨rfl, ?_⟩
      have hcut : (ms + t.ulPeriodInMilliSeconds) % 2 ^ 64 = ms + t.ulPeriodInMilliSeconds := by
        omega
      rw [← hcut]
      exact Nat.mod_lt _ (by decide)
    | false =>
      -- an hour too early, and the sum cannot make up for it
      simp only [if_true, Bool.false_eq_true, if_false] at heq
      omega
  · rintro ⟨rfl, hlt⟩
    refine ⟨_, rfl, ?_⟩
    rw [Nat.mod_eq_of_lt hlt, Nat.cast_add, Int.add_assoc]

/-- An hour ahead of UTC, and two from the last sunday of march to the last of october 2024. -/
def summerZone : Zone where
  off := 3600
  daylight t := 1711846800 ≤ t ∧ t < 1729990800
  reading _ := false

/-- A timer of one hour. -/
def hourTimes : PeriodicTimes := PeriodicTimes.periodicTimes 3600000

/-- In july the first expiration is at one o'clock. -/
theorem firstAfterPeriod_july :
    FirstAfterPeriod summerZone.libc "2024-07-01 12:00:00:0000".toList
      { hourTimes with
        schTimesStatus := .schTimesStarted
        pCurrentExpirationDateTime := "2024-07-01 12:00:00:0000".toList
        bCurrentDaylightSavingTime := true
        pNextExpirationDateTime := "2024-07-01 13:00:00:0000".toList
        bNextDaylightSavingTime := true } :=
  (firstAfterPeriod_iff (z := summerZone) (t := hourTimes) rfl
    (show hourTimes.start summerZone.libc 0 none (some "2024-07-01 12:00:00:0000".toList) = _
      by decide +kernel)).mpr
    ⟨⟨2024, 7, 1, 12, 0, 0⟩, 0, by decide +kernel, by decide +kernel, by decide⟩

/-- In january it is at twelve o'clock, when the timer is started. -/
theorem not_firstAfterPeriod_january :
    ¬∀ (z : Zone) (fuel : Nat) (now : Option (Int × Nat)) (text : List Char)
      (t t' : PeriodicTimes), t.ttTimesType = .schTypePeriodic →
      t.start z.libc fuel now (some text) = .ok (.ok (), t') →
      FirstAfterPeriod z.libc text t' := by
  intro hall
  obtain ⟨T, hT, hnext⟩ := hall summerZone 0 none "2024-01-15 12:00:00:0000".toList hourTimes
    { hourTimes with
      schTimesStatus := .schTimesStarted
      pCurrentExpirationDateTime := "2024-01-15 12:00:00:0000".toList
      bCurrentDaylightSavingTime := true
      pNextExpirationDateTime := "2024-01-15 12:00:00:0000".toList
      bNextDaylightSavingTime := false } rfl (by decide +kernel)
  have hgiven : denotes summerZone.libc "2024-01-15 12:00:00:0000".toList (-1)
      = some 1705316400000 := by decide +kernel
  have hfirst : denotes summerZone.libc "2024-01-15 12:00:00:0000".toList 0
      = some 1705316400000 := by decide +kernel
  cases hgiven.symm.trans hT
  exact absurd (hfirst.symm.trans hnext) (by decide)

end

end CatraLibraries
