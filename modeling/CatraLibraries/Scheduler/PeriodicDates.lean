/-
# The expirations of a periodic timer

In a zone with a fixed offset the text of an expiration stands for a millisecond of the local
time, and `addMilliSecondsToDateTime` adds the period to it: there is no drift, however often
the next expiration is computed.  `isExpiredTime` compares texts, and the order of the texts is
the order of the dates.

All this is so while the flags of the daylight saving time are unset.  `start` with a date sets the
flag of the current expiration.  Then a first period that ends in the same second hands it on, and
the timer counts as expired from the start; a longer one is added by `mktime`, which takes the date
for daylight saving time, and the first expiration is one hour early.
-/
import CatraLibraries.Scheduler.DateOrder
import CatraLibraries.Scheduler.Periodic
import Mathlib.Tactic.Ring

namespace CatraLibraries

open Memory Stdio Calendar

/-! ### Milliseconds of the local time -/

/-- The text of a millisecond of the local time. -/
def milliText (T : Int) : List Char := printDateTime (localTm (T / 1000)) (T % 1000).toNat

/-- A year that is printed with four digits. -/
def FourDigits (x : Int) : Prop := 0 ≤ year x ∧ year x ≤ 9999

section

variable {x : Int} {ms : Nat}

/-- The numbers of a second fit into their fields. -/
theorem fits_localTm (hx : FourDigits x) (hms : ms < 10 ^ 4) :
    (localTm x).toUlDateTime.Fits ms := by
  have hy := hx
  unfold FourDigits at hy
  have hm := month_bounds x
  have hd := monthday_bounds x
  have hd' := (monthLength_le_max (year x) (month x)).trans (maxMonthLength_le (month x))
  obtain ⟨hh, hmi, hs⟩ := time_bounds x
  have fit : ∀ {i : Int} {n : Nat}, 0 ≤ i → i < n → n ≤ 2 ^ 64 → toUnsignedLong i < n :=
    fun h h' hn => by unfold toUnsignedLong; omega
  constructor
  · exact fit (show 0 ≤ year x - 1900 + 1900 by omega) (show year x - 1900 + 1900 < _ by omega)
      (by omega)
  · exact fit (show 0 ≤ month x - 1 + 1 by omega) (show month x - 1 + 1 < _ by omega) (by omega)
  · exact fit (show 0 ≤ monthday x by omega) (show monthday x < _ by omega) (by omega)
  · exact fit hh.1 (show hour x < _ by omega) (by omega)
  · exact fit hmi.1 (show minute x < _ by omega) (by omega)
  · exact fit hs.1 (show second x < _ by omega) (by omega)
  · exact hms

theorem scanUlDateTime_localTm (hx : FourDigits x) (hms : ms < 10 ^ 4) :
    scanUlDateTime (printDateTime (localTm x) ms) = some ((localTm x).toUlDateTime, ms) := by
  rw [← printUlDateTime_toUlDateTime]
  exact scanUlDateTime_printUlDateTime (fits_localTm hx hms)

theorem dateText_localTm (hx : FourDigits x) (hms : ms < 10 ^ 4) :
    dateText (printDateTime (localTm x) ms) = .ok (printDateTime (localTm x) ms) := by
  rw [← printUlDateTime_toUlDateTime]
  exact dateText_eq_ok.mpr ⟨fits_localTm hx hms, rfl⟩

/-- The numbers of a second, assigned to a `tm` again. -/
theorem toTm_localTm (hx : FourDigits x) (tmIsdst : Int) :
    (localTm x).toUlDateTime.toTm tmIsdst
      = { localTm x with tmWday := 0, tmIsdst := tmIsdst } := by
  have hy := hx
  unfold FourDigits at hy
  have hm := month_bounds x
  have hd := monthday_bounds x
  have hd' := (monthLength_le_max (year x) (month x)).trans (maxMonthLength_le (month x))
  obtain ⟨hh, hmi, hs⟩ := time_bounds x
  unfold UlDateTime.toTm Tm.toUlDateTime localTm
  simp only [Int.sub_add_cancel]
  rw [toInt_toUnsignedLong hy.1 hy.2, toInt_toUnsignedLong (by omega) (by omega),
    toInt_toUnsignedLong (by omega) (by omega), toInt_toUnsignedLong hh.1 (by omega),
    toInt_toUnsignedLong hmi.1 (by omega), toInt_toUnsignedLong hs.1 (by omega)]

/-- With its flag unset a date stands for its second, with the flag set for one an hour before. -/
theorem mktime_toTm (off : Int) (hx : FourDigits x) (b : Bool) :
    (fixedOffset off).mktime ((localTm x).toUlDateTime.toTm b.toInt)
      = x - (if b then 3600 else 0) - (epoch + off) := by
  have hsecond : (fixedOffset off).mktime
      { localTm x with
        tmWday := 0
        tmIsdst := 0 } = x - (epoch + off) := mktime_localTm
  rw [toTm_localTm hx]
  refine (mktime_flag { localTm x with tmWday := 0 } b).trans ?_
  rw [hsecond]
  omega

/-- The first second after the year 9999. -/
theorem lt_of_year_le (h : year x ≤ 9999) : x < 315569520000 := by
  by_contra hle
  have hyear : year 315569520000 = 10000 := by decide +kernel
  have hmono := year_mono (Int.not_lt.mp hle)
  omega

theorem nonneg_of_year_nonneg (h : 0 ≤ year x) : 0 ≤ x := by
  by_contra hlt
  have hyear : year (-1) = -1 := by decide +kernel
  have hmono := year_mono (show x ≤ -1 by omega)
  omega

/-! ### One period -/

/-- The milliseconds of a second and a period make a millisecond of a later second. -/
theorem add_milli (x : Int) (ms p : Nat) :
    (x * 1000 + ms + p) / 1000 = x + ((ms + p) / 1000 : Nat) ∧
      ((x * 1000 + ms + p) % 1000).toNat = ms + p - (ms + p) / 1000 * 1000 := by
  omega

/-- A period that ends in the same second: the numbers and the flag are handed on. -/
theorem addMilliSeconds_short (off : Int) (b : Bool) {p : Nat} (hx : FourDigits x)
    (hms : ms < 10 ^ 4) (hshort : ms + p < 1000) :
    addMilliSecondsToDateTime (fixedOffset off) (printDateTime (localTm x) ms) b.toInt p
      = .ok (.ok (milliText (x * 1000 + ms + p), b)) := by
  obtain ⟨hdiv, hmod⟩ := add_milli x ms p
  have hzero : (ms + p) / 1000 = 0 := Nat.div_eq_of_lt hshort
  have hsum : (ms + p) % 2 ^ 64 = ms + p := Nat.mod_eq_of_lt (by omega)
  have hflag : decide (b.toInt ≠ 0) = b := by cases b <;> rfl
  have htext : dateText (printDateTime (localTm x) (ms + p - 0 * 1000))
      = .ok (milliText (x * 1000 + ms + p)) := by
    rw [dateText_localTm hx (by omega), milliText, hdiv, hmod, hzero, Nat.cast_zero, Int.add_zero]
  unfold addMilliSecondsToDateTime
  rw [scanUlDateTime_localTm hx hms]
  dsimp only
  rw [hsum, hzero, Nat.cast_zero, addSeconds_zero, hflag]
  dsimp only
  rw [printUlDateTime_toUlDateTime, htext]
  rfl

/-- A longer period is added by `mktime` and `localtime_r`. -/
theorem addMilliSeconds_long (off : Int) (b : Bool) {p : Nat} (hx : FourDigits x)
    (hms : ms < 10 ^ 4) (hlong : 1000 ≤ ms + p) (hsum : ms + p < 2 ^ 64) :
    addMilliSecondsToDateTime (fixedOffset off) (printDateTime (localTm x) ms) b.toInt p
      = do
        let text ← dateText (printDateTime
          (localTm (x - (if b then 3600 else 0) + ((ms + p) / 1000 : Nat)))
          (ms + p - (ms + p) / 1000 * 1000))
        return .ok (text, false) := by
  have hne : ((ms + p) / 1000 : Nat) ≠ (0 : Int) := by omega
  have hsecond : (fixedOffset off).localtimeR
      (x - (if b then 3600 else 0) - (epoch + off) + ((ms + p) / 1000 : Nat))
        = some (localTm (x - (if b then 3600 else 0) + ((ms + p) / 1000 : Nat))) := by
    show some (localTm (_ + (epoch + off))) = _
    congr 2
    omega
  unfold addMilliSecondsToDateTime
  rw [scanUlDateTime_localTm hx hms]
  dsimp only
  rw [Nat.mod_eq_of_lt hsum]
  unfold addSeconds
  rw [if_neg hne, mktime_toTm off hx, hsecond]
  rfl

/-- **`addMilliSecondsToDateTime` adds the period** where the flag is unset. -/
theorem addMilliSeconds_unset (off : Int) {p : Nat} (hx : FourDigits x) (hms : ms < 10 ^ 4)
    (hnext : year ((x * 1000 + ms + p) / 1000) ≤ 9999) :
    addMilliSecondsToDateTime (fixedOffset off) (printDateTime (localTm x) ms) (false).toInt p
      = .ok (.ok (milliText (x * 1000 + ms + p), false)) := by
  by_cases hshort : ms + p < 1000
  · exact addMilliSeconds_short off false hx hms hshort
  · have hlt := lt_of_year_le hnext
    have hx0 := nonneg_of_year_nonneg hx.1
    obtain ⟨hdiv, hmod⟩ := add_milli x ms p
    have hx' : FourDigits (x + ((ms + p) / 1000 : Nat)) := by
      rw [hdiv] at hnext
      exact ⟨Int.le_trans hx.1 (year_mono (by omega)), hnext⟩
    have hsame : x - (if false = true then 3600 else 0) + ((ms + p) / 1000 : Nat)
        = x + ((ms + p) / 1000 : Nat) := congrArg (· + _) (Int.sub_zero x)
    rw [addMilliSeconds_long off false hx hms (by omega) (by omega), hsame,
      dateText_localTm hx' (by omega), milliText, hdiv, hmod]
    rfl

/-- One hour before, the text is another one. -/
theorem printDateTime_hour_ne (hx : FourDigits x) (hms : ms < 10 ^ 4) {text : List Char}
    (htext : dateText (printDateTime (localTm (x - 3600)) ms) = .ok text) :
    text ≠ printDateTime (localTm x) ms := by
  rintro rfl
  rw [← printUlDateTime_toUlDateTime] at htext
  obtain ⟨hfits, hsame⟩ := dateText_eq_ok.mp htext
  have hscan := scanUlDateTime_localTm hx hms
  rw [hsame, scanUlDateTime_printUlDateTime hfits] at hscan
  have hhour : toUnsignedLong (hour (x - 3600)) = toUnsignedLong (hour x) :=
    congrArg UlDateTime.ulHour (Prod.mk.inj (Option.some.inj hscan)).1
  have h := (time_bounds x).1
  have h' := (time_bounds (x - 3600)).1
  unfold toUnsignedLong at hhour
  have heq : hour (x - 3600) = hour x := by omega
  unfold hour at heq
  omega

end

/-! ### The timer -/

namespace PeriodicTimes

/-- `k` calls of `updateNextExpirationDateTime` that succeed. -/
def updates (libc : Libc) (fuel : Nat) : Nat → PeriodicTimes → Option PeriodicTimes
  | 0, t => some t
  | k + 1, t =>
    match t.updateNextExpirationDateTime libc fuel with
    | .ok (.ok (), t) => updates libc fuel k t
    | _ => none

/-- The timer is started in the second `x` of the local time and its millisecond `ms`: with a
date that `sscanf` reads as the fields of `x`, or with the time of the clock. -/
def StartsAt (off : Int) (now : Option (Int × Nat)) (pStartDateTime : Option (List Char)) (x : Int)
    (ms : Nat) : Prop :=
  FourDigits x ∧
    match pStartDateTime with
    | some text => scanUlDateTime text = some ((localTm x).toUlDateTime, ms) ∧ ms < 10 ^ 4
    | none => ∃ second, now = some (second, ms) ∧ localSecond off second = x ∧ ms < 1000

/-- After `start` at the millisecond `T` and `k` updates the next expiration is `k + 1` periods
later, and `isExpiredTime` says whether the clock has come to it. -/
def OnTime (off : Int) (fuel : Nat) (now : Option (Int × Nat))
    (pStartDateTime : Option (List Char)) (T : Int) (t : PeriodicTimes) : Prop :=
  ∀ k : Nat, year ((T + (k + 1) * t.ulPeriodInMilliSeconds) / 1000) ≤ 9999 →
    ∃ t₁ t₂, t.start (fixedOffset off) fuel now pStartDateTime = .ok (.ok (), t₁) ∧
      updates (fixedOffset off) fuel k t₁ = some t₂ ∧
      t₂.pNextExpirationDateTime = milliText (T + (k + 1) * t.ulPeriodInMilliSeconds) ∧
      ∀ second milli, FourDigits (localSecond off second) → milli < 1000 →
        ∃ b, t₂.isExpiredTime (fixedOffset off) (some (second, milli)) = .ok (.ok b) ∧
          (b = true ↔ T + (k + 1) * t.ulPeriodInMilliSeconds
            ≤ localSecond off second * 1000 + milli)

variable {off x T : Int} {ms p fuel : Nat} {t : PeriodicTimes} {now : Option (Int × Nat)}
  {pStartDateTime : Option (List Char)}

/-- A started periodic timer whose next expiration is `T`. -/
structure Awaits (t : PeriodicTimes) (T : Int) (p : Nat) : Prop where
  status : t.schTimesStatus = .schTimesStarted
  type : t.ttTimesType = .schTypePeriodic
  period : t.ulPeriodInMilliSeconds = p
  next : t.pNextExpirationDateTime = milliText T

theorem updateNextPeriodic_eq (hcur : t.pCurrentExpirationDateTime = printDateTime (localTm x) ms)
    (hx : FourDigits x) (hms : ms < 10 ^ 4)
    (hnext : year ((x * 1000 + ms + t.ulPeriodInMilliSeconds) / 1000) ≤ 9999)
    (hflag : t.bCurrentDaylightSavingTime = false) :
    t.updateNextPeriodicExpirationDateTime (fixedOffset off) = .ok (.ok (),
      { t with
        pNextExpirationDateTime := milliText (x * 1000 + ms + t.ulPeriodInMilliSeconds)
        bNextDaylightSavingTime := false }) := by
  unfold updateNextPeriodicExpirationDateTime
  rw [hcur, hflag, addMilliSeconds_unset off hx hms hnext, ok_bind]
  rfl

/-- The current expiration that `start` sets: its flag says whether it was given a date. -/
theorem startDateTime_eq (hstart : StartsAt off now pStartDateTime x ms) (t : PeriodicTimes) :
    ms < 10 ^ 4 ∧ t.startDateTime (fixedOffset off) now pStartDateTime = .ok (.ok (),
      { t with
        pCurrentExpirationDateTime := printDateTime (localTm x) ms
        bCurrentDaylightSavingTime := pStartDateTime.isSome }) := by
  obtain ⟨hx, hdate⟩ := hstart
  cases pStartDateTime with
  | some text =>
    obtain ⟨hscan, hms⟩ := hdate
    refine ⟨hms, ?_⟩
    unfold startDateTime
    dsimp only
    rw [hscan]
    dsimp only
    rw [addSeconds_zero]
    dsimp only
    rw [printUlDateTime_toUlDateTime, dateText_localTm hx hms]
    rfl
  | none =>
    obtain ⟨second, rfl, rfl, hms⟩ := hdate
    refine ⟨by omega, ?_⟩
    have hclock : getTmLocalTime (fixedOffset off) (some (second, ms))
        = some (localTm (localSecond off second), ms) := rfl
    unfold startDateTime
    dsimp only
    rw [hclock]
    dsimp only
    rw [dateText_localTm hx (by omega)]
    rfl

/-- `start`, once the current expiration is set. -/
theorem start_of_startDateTime {t' : PeriodicTimes} (fuel : Nat)
    (hstatus : t.schTimesStatus = .schTimesInitialized)
    (hset : t.startDateTime (fixedOffset off) now pStartDateTime = .ok (.ok (), t'))
    (htype : t'.ttTimesType = .schTypePeriodic)
    {r : Except Fault (Except SchedulerError (List Char × Bool))}
    (hadd : addMilliSecondsToDateTime (fixedOffset off) t'.pCurrentExpirationDateTime
      t'.bCurrentDaylightSavingTime.toInt t'.ulPeriodInMilliSeconds = r) :
    (∀ fault, r = .error fault → t.start (fixedOffset off) fuel now pStartDateTime = .error fault) ∧
      ∀ text b, r = .ok (.ok (text, b)) →
        t.start (fixedOffset off) fuel now pStartDateTime = .ok (.ok (),
          { t' with
            pNextExpirationDateTime := text
            bNextDaylightSavingTime := b
            schTimesStatus := .schTimesStarted }) := by
  unfold start
  rw [if_neg (not_not.mpr hstatus), hset, ok_bind]
  dsimp only
  rw [htype]
  dsimp only
  unfold updateNextPeriodicExpirationDateTime
  rw [hadd]
  refine ⟨fun fault h => ?_, fun text b h => ?_⟩
  · rw [h]
    rfl
  · rw [h, ← htype]
    rfl

/-- **`start` without a date**: the first expiration is one period after the start. -/
theorem start_awaits (fuel : Nat) (hstart : StartsAt off now none x ms)
    (hstatus : t.schTimesStatus = .schTimesInitialized) (htype : t.ttTimesType = .schTypePeriodic)
    (hnext : year ((x * 1000 + ms + t.ulPeriodInMilliSeconds) / 1000) ≤ 9999) :
    ∃ t₁, t.start (fixedOffset off) fuel now none = .ok (.ok (), t₁) ∧
      t₁.Awaits (x * 1000 + ms + t.ulPeriodInMilliSeconds) t.ulPeriodInMilliSeconds ∧
      t₁.bNextDaylightSavingTime = false := by
  obtain ⟨hms, hset⟩ := startDateTime_eq hstart t
  exact ⟨_, (start_of_startDateTime fuel hstatus hset htype
    (addMilliSeconds_unset off hstart.1 hms hnext)).2 _ _ rfl, ⟨rfl, htype, rfl, rfl⟩, rfl⟩

/-- One more update: the next expiration becomes the current one, with its flag. -/
theorem update_awaits (off : Int) (fuel : Nat) (ht : t.Awaits T p) (hT : FourDigits (T / 1000))
    (hnext : year ((T + p) / 1000) ≤ 9999) (hflag : t.bNextDaylightSavingTime = false) :
    ∃ t', t.updateNextExpirationDateTime (fixedOffset off) fuel = .ok (.ok (), t') ∧
      t'.Awaits (T + p) p ∧ t'.bNextDaylightSavingTime = false := by
  have hms : (T % 1000).toNat < 10 ^ 4 := by omega
  have hsplit : T / 1000 * 1000 + ((T % 1000).toNat : Int) = T := by omega
  have hperiod := ht.period
  have hadd : year ((T / 1000 * 1000 + ((T % 1000).toNat : Int) + t.ulPeriodInMilliSeconds) / 1000)
      ≤ 9999 := by
    rw [hsplit, hperiod]
    exact hnext
  unfold updateNextExpirationDateTime
  rw [if_neg (not_not.mpr ht.status)]
  dsimp only
  rw [ht.type]
  dsimp only
  have hup : ∀ t' : PeriodicTimes, t'.pCurrentExpirationDateTime = milliText T →
      t'.ulPeriodInMilliSeconds = t.ulPeriodInMilliSeconds →
      t'.bCurrentDaylightSavingTime = false →
      t'.updateNextPeriodicExpirationDateTime (fixedOffset off) = .ok (.ok (),
        { t' with
          pNextExpirationDateTime := milliText (T + p)
          bNextDaylightSavingTime := false }) := by
    intro t' hcur hper hunset
    have hsum : T / 1000 * 1000 + ((T % 1000).toNat : Int) + t'.ulPeriodInMilliSeconds = T + p := by
      rw [hsplit, hper, hperiod]
    rw [← hper] at hadd
    rw [updateNextPeriodic_eq hcur hT hms hadd hunset, hsum]
  rw [hup, ok_bind]
  · exact ⟨_, rfl, ⟨ht.status, rfl, hperiod, rfl⟩, rfl⟩
  · exact ht.next
  · rfl
  · exact hflag

/-- `k` updates add `k` periods. -/
theorem updates_awaits (off : Int) (fuel k : Nat) (ht : t.Awaits T p) (hT : 0 ≤ year (T / 1000))
    (hyear : year ((T + k * p) / 1000) ≤ 9999) (hflag : t.bNextDaylightSavingTime = false) :
    ∃ t', updates (fixedOffset off) fuel k t = some t' ∧ t'.Awaits (T + k * p) p ∧
      t'.bNextDaylightSavingTime = false := by
  induction k generalizing t T with
  | zero =>
    refine ⟨t, rfl, ?_, hflag⟩
    rwa [Nat.cast_zero, Int.zero_mul, Int.add_zero]
  | succ k ih =>
    have hsum : T + ((k + 1 : Nat) : Int) * p = T + p + k * p := by push_cast; ring
    have hkp : (0 : Int) ≤ k * p := Int.mul_nonneg (by omega) (by omega)
    rw [hsum] at hyear ⊢
    -- the dates before the last one are not later than it
    have hfirst : year ((T + p) / 1000) ≤ 9999 :=
      (year_mono (Int.ediv_le_ediv (by omega) (by omega))).trans hyear
    have hcur : year (T / 1000) ≤ 9999 :=
      (year_mono (Int.ediv_le_ediv (by omega) (by omega))).trans hfirst
    have hpos : 0 ≤ year ((T + p) / 1000) :=
      hT.trans (year_mono (Int.ediv_le_ediv (by omega) (by omega)))
    obtain ⟨t', hup, ht', hflag'⟩ := update_awaits off fuel ht ⟨hT, hcur⟩ hfirst hflag
    obtain ⟨t₂, hups, ht₂, hflag₂⟩ := ih ht' hpos hyear hflag'
    refine ⟨t₂, ?_, ht₂, hflag₂⟩
    show (match t.updateNextExpirationDateTime (fixedOffset off) fuel with
      | .ok (.ok (), t) => updates (fixedOffset off) fuel k t
      | _ => none) = some t₂
    rw [hup]
    exact hups

/-- **`isExpiredTime`** compares the dates, unless both flags are set. -/
theorem isExpiredTime_eq {second : Int} {milli : Nat} (ht : t.Awaits T p)
    (hT : FourDigits (T / 1000)) (hs : FourDigits (localSecond off second)) (hmilli : milli < 1000) :
    t.isExpiredTime (fixedOffset off) (some (second, milli)) = .ok (.ok
      (if t.bCurrentDaylightSavingTime ∧ t.bNextDaylightSavingTime then true
        else decide (T ≤ localSecond off second * 1000 + milli))) := by
  have hclock : getTmLocalTime (fixedOffset off) (some (second, milli))
      = some (localTm (localSecond off second), milli) := rfl
  have hms : (T % 1000).toNat < 1000 := by omega
  have hsplit : T / 1000 * 1000 + ((T % 1000).toNat : Int) = T := by omega
  have horder := strcmpLe_printDateTime hT hs hms hmilli
  rw [hsplit] at horder
  unfold isExpiredTime
  rw [if_neg (not_not.mpr ht.status), hclock]
  dsimp only
  rw [if_neg (fun h => absurd h.1 (show (0 : Int) ≠ 1 by decide))]
  by_cases hflags : t.bCurrentDaylightSavingTime ∧ t.bNextDaylightSavingTime
  · rw [if_pos ⟨rfl, hflags⟩, if_pos hflags]
  · rw [if_neg (fun h => hflags h.2), if_neg hflags, dateText_localTm hs (by omega), ok_bind,
      ht.next]
    show Except.ok (Except.ok (strcmpLe _ _)) = _
    rw [milliText, horder]

/-- **With a date the timer is not on time**: it counts as expired at once when the first period ends
in the second of the start, else its first expiration is another one. -/
theorem not_onTime_of_date {text : List Char} (hstart : StartsAt off now (some text) x ms)
    (hstatus : t.schTimesStatus = .schTimesInitialized) (htype : t.ttTimesType = .schTypePeriodic)
    (hperiod : 0 < t.ulPeriodInMilliSeconds)
    (hyear : year ((x * 1000 + ms + t.ulPeriodInMilliSeconds) / 1000) ≤ 9999) :
    ¬OnTime off fuel now (some text) (x * 1000 + ms) t := by
  intro h
  have hx : FourDigits x := hstart.1
  have hone : x * 1000 + (ms : Int) + ((0 : Nat) + 1) * t.ulPeriodInMilliSeconds
      = x * 1000 + ms + t.ulPeriodInMilliSeconds := by push_cast; ring
  obtain ⟨hms, hset⟩ := startDateTime_eq hstart t
  obtain ⟨t₁, t₂, hs₁, hups, hnext, hexpired⟩ := h 0 (by rw [hone]; exact hyear)
  obtain rfl : t₁ = t₂ := Option.some.inj hups
  rw [hone] at hnext
  by_cases hshort : ms + t.ulPeriodInMilliSeconds < 1000
  · -- both flags are set
    have hstarted := (start_of_startDateTime fuel hstatus hset htype
      (addMilliSeconds_short off true hx hms hshort)).2 _ _ rfl
    rw [hs₁] at hstarted
    have ht₁ := (Prod.mk.inj (Except.ok.inj hstarted)).2
    have hawaits : t₁.Awaits (x * 1000 + ms + t.ulPeriodInMilliSeconds) t.ulPeriodInMilliSeconds := by
      rw [ht₁]
      exact ⟨rfl, htype, rfl, rfl⟩
    have hflags : t₁.bCurrentDaylightSavingTime ∧ t₁.bNextDaylightSavingTime := by
      rw [ht₁]
      exact ⟨rfl, rfl⟩
    have hsecond : (x * 1000 + ms + t.ulPeriodInMilliSeconds) / 1000 = x := by omega
    -- the clock is read in the millisecond of the start
    have hclock : localSecond off (x - (epoch + off)) = x := by unfold localSecond; omega
    obtain ⟨b, hb, hiff⟩ := hexpired (x - (epoch + off)) ms (by rw [hclock]; exact hx) (by omega)
    rw [isExpiredTime_eq hawaits (by rw [hsecond]; exact hx) (by rw [hclock]; exact hx) (by omega),
      if_pos hflags] at hb
    cases hb
    have hle := hiff.mp rfl
    rw [hone, hclock] at hle
    omega
  · -- `mktime` takes the date for one hour before
    have hlt := lt_of_year_le hyear
    have hx0 := nonneg_of_year_nonneg hx.1
    obtain ⟨hdiv, hmod⟩ := add_milli x ms t.ulPeriodInMilliSeconds
    have hnew : FourDigits (x + ((ms + t.ulPeriodInMilliSeconds) / 1000 : Nat)) := by
      rw [hdiv] at hyear
      exact ⟨Int.le_trans hx.1 (year_mono (by omega)), hyear⟩
    have hhour : x - (if true = true then 3600 else 0) + ((ms + t.ulPeriodInMilliSeconds) / 1000 : Nat)
        = x + ((ms + t.ulPeriodInMilliSeconds) / 1000 : Nat) - 3600 := by
      rw [if_pos rfl]
      omega
    have hadd := addMilliSeconds_long off true hx hms (Nat.not_lt.mp hshort) (by omega)
    rw [hhour] at hadd
    obtain ⟨hfault, hok⟩ := start_of_startDateTime fuel hstatus hset htype hadd
    cases htext : dateText (printDateTime
        (localTm (x + ((ms + t.ulPeriodInMilliSeconds) / 1000 : Nat) - 3600))
        (ms + t.ulPeriodInMilliSeconds - (ms + t.ulPeriodInMilliSeconds) / 1000 * 1000)) with
    | error fault =>
      rw [htext] at hfault
      rw [hfault fault rfl] at hs₁
      cases hs₁
    | ok text' =>
      rw [htext] at hok
      rw [hok text' false rfl] at hs₁
      cases hs₁
      have hexpiration : text' = printDateTime
          (localTm (x + ((ms + t.ulPeriodInMilliSeconds) / 1000 : Nat)))
          (ms + t.ulPeriodInMilliSeconds - (ms + t.ulPeriodInMilliSeconds) / 1000 * 1000) := by
        rw [← hdiv, ← hmod]
        exact hnext
      exact printDateTime_hour_ne hnew (by omega) htext hexpiration

/-- Without a date the flags stay unset. -/
theorem onTime_of_clock (hstart : StartsAt off now none x ms)
    (hstatus : t.schTimesStatus = .schTimesInitialized) (htype : t.ttTimesType = .schTypePeriodic) :
    OnTime off fuel now none (x * 1000 + ms) t := by
  intro k hk
  have hsum : x * 1000 + (ms : Int) + (k + 1) * t.ulPeriodInMilliSeconds
      = x * 1000 + ms + t.ulPeriodInMilliSeconds + k * t.ulPeriodInMilliSeconds := by ring
  have hkp : (0 : Int) ≤ k * t.ulPeriodInMilliSeconds := Int.mul_nonneg (by omega) (by omega)
  rw [hsum] at hk ⊢
  have hfirst : year ((x * 1000 + ms + t.ulPeriodInMilliSeconds) / 1000) ≤ 9999 :=
    (year_mono (Int.ediv_le_ediv (by omega) (by omega))).trans hk
  have hpos : 0 ≤ year ((x * 1000 + ms + t.ulPeriodInMilliSeconds) / 1000) :=
    hstart.1.1.trans (year_mono (by omega))
  obtain ⟨t₁, hs₁, hawaits, hflag⟩ := start_awaits fuel hstart hstatus htype hfirst
  obtain ⟨t₂, hups, hawaits₂, hflag₂⟩ :=
    updates_awaits off fuel k hawaits hpos hk hflag
  have hlast : FourDigits ((x * 1000 + ms + t.ulPeriodInMilliSeconds
      + k * t.ulPeriodInMilliSeconds) / 1000) :=
    ⟨hpos.trans (year_mono (Int.ediv_le_ediv (by omega) (by omega))), hk⟩
  refine ⟨t₁, t₂, hs₁, hups, hawaits₂.next, fun second milli hs hmilli => ⟨_,
    isExpiredTime_eq hawaits₂ hlast hs hmilli, ?_⟩⟩
  rw [if_neg (fun h => by rw [hflag₂] at h; exact absurd h.2 Bool.false_ne_true)]
  exact decide_eq_true_iff

/-- **A periodic timer is on time exactly when it is started without a date**, for a period that
ends before the year 10000. -/
theorem onTime_iff (hstart : StartsAt off now pStartDateTime x ms)
    (hstatus : t.schTimesStatus = .schTimesInitialized) (htype : t.ttTimesType = .schTypePeriodic)
    (hperiod : 0 < t.ulPeriodInMilliSeconds)
    (hyear : year ((x * 1000 + ms + t.ulPeriodInMilliSeconds) / 1000) ≤ 9999) :
    OnTime off fuel now pStartDateTime (x * 1000 + ms) t ↔ pStartDateTime = none := by
  cases pStartDateTime with
  | none => exact iff_of_true (onTime_of_clock hstart hstatus htype) rfl
  | some text => exact iff_of_false (not_onTime_of_date hstart hstatus htype hperiod hyear) nofun

/-- A timer that `init` has given a period. -/
def periodicTimes (ulPeriodInMilliSeconds : Nat) : PeriodicTimes :=
  (init true ulPeriodInMilliSeconds none
    { schTimesStatus := .schTimesBuilded
      ttTimesType := .schTypePeriodic
      pClassName := []
      pCalendarSchedule := []
      bNextDaylightSavingTime := false
      pNextExpirationDateTime := []
      bCurrentDaylightSavingTime := false
      pCurrentExpirationDateTime := []
      ulPeriodInMilliSeconds := 0 }).2

/-- Half a second from the first of January 2024 on, by the clock. -/
theorem onTime_half_second :
    OnTime 0 0 (some (1704067200, 250)) none (localSecond 0 1704067200 * 1000 + (250 : Nat))
      (periodicTimes 500) := by
  have hstart : StartsAt 0 (some (1704067200, 250)) none (localSecond 0 1704067200) 250 :=
    ⟨⟨by decide +kernel, by decide +kernel⟩, 1704067200, rfl, rfl, by omega⟩
  exact (onTime_iff hstart rfl rfl (show 0 < 500 by decide) (by decide +kernel)).mpr rfl

/-- A second from a date on: the timer waits for a moment an hour before. -/
theorem not_onTime_second :
    ¬∀ (off x : Int) (ms fuel : Nat) (now : Option (Int × Nat)) (pStartDateTime : Option (List Char))
      (t : PeriodicTimes), StartsAt off now pStartDateTime x ms →
      t.schTimesStatus = .schTimesInitialized → t.ttTimesType = .schTypePeriodic →
      0 < t.ulPeriodInMilliSeconds → OnTime off fuel now pStartDateTime (x * 1000 + ms) t := by
  intro hall
  have hstart : StartsAt 0 none (some "2024-01-01 00:00:00:0000".toList)
      (localSecond 0 1704067200) 0 :=
    ⟨⟨by decide +kernel, by decide +kernel⟩, by decide +kernel, by omega⟩
  have hontime : OnTime 0 0 none (some "2024-01-01 00:00:00:0000".toList)
      (localSecond 0 1704067200 * 1000 + (0 : Nat)) (periodicTimes 1000) :=
    hall _ _ _ _ _ _ _ hstart rfl rfl (show 0 < 1000 by decide)
  exact not_onTime_of_date hstart rfl rfl (show 0 < 1000 by decide) (by decide +kernel) hontime

end PeriodicTimes

end CatraLibraries
