/-
# The first second that matches

For a documented schedule the next expiration of a calendar timer should be the least second after
the current one that the schedule matches, and the last timeout be reported only where no later
second matches (`NextIsLeast`).  In a zone with a fixed offset it is so as long as the flag of the
current expiration is unset.  `start` with a date sets the flag; `mktime` then takes the current
expiration for daylight saving time and the search begins one hour before it (`nextIsLeast_iff`).
-/
import CatraLibraries.Scheduler.Grammar
import CatraLibraries.Scheduler.Periodic

namespace CatraLibraries

open Memory Stdio JumpSearch Calendar

/-! ### Seconds and their texts -/

section

variable {x y : Int} {ms : Nat} {S : CalendarSchedule}

/-- Two seconds with one text, which fits into its array, are one second when their years are not
a multiple of 2^64 apart. -/
theorem eq_of_printDateTime (hfits : (printDateTime (localTm x) ms).length < maxDateLength)
    (htext : printDateTime (localTm x) ms = printDateTime (localTm y) ms)
    (hyear : toUnsignedLong (year x) = toUnsignedLong (year y) → year x = year y) : x = y := by
  have hscan : ∀ z, (printDateTime (localTm z) ms).length < maxDateLength →
      scanUlDateTime (printDateTime (localTm z) ms) = some ((localTm z).toUlDateTime, ms) := by
    intro z hz
    rw [← printUlDateTime_toUlDateTime] at hz ⊢
    have harray : dateText (printUlDateTime (localTm z).toUlDateTime ms)
        = .ok (printUlDateTime (localTm z).toUlDateTime ms) := by
      unfold dateText
      rw [if_neg (Nat.not_lt.mpr (Nat.le_sub_one_of_lt hz))]
    exact scanUlDateTime_printUlDateTime (dateText_eq_ok.mp harray).1
  have hx := hscan x hfits
  rw [htext] at hx hfits
  rw [hscan y hfits] at hx
  have hsame := (Prod.mk.inj (Option.some.inj hx)).1
  have hmx := month_bounds x
  have hmy := month_bounds y
  have hdx := monthday_bounds x
  have hdy := monthday_bounds y
  have hlx := (monthLength_le_max (year x) (month x)).trans (maxMonthLength_le (month x))
  have hly := (monthLength_le_max (year y) (month y)).trans (maxMonthLength_le (month y))
  obtain ⟨hhx, hmix, hsx⟩ := time_bounds x
  obtain ⟨hhy, hmiy, hsy⟩ := time_bounds y
  unfold Tm.toUlDateTime localTm at hsame
  simp only [UlDateTime.mk.injEq, Int.sub_add_cancel] at hsame
  obtain ⟨hy', hmo, hd, hh, hmi, hs⟩ := hsame
  have hunsigned : ∀ {i j : Int}, 0 ≤ i → i ≤ 99 → 0 ≤ j → j ≤ 99 →
      toUnsignedLong j = toUnsignedLong i → i = j := by
    intro i j hi hi' hj hj' h
    unfold toUnsignedLong at h
    omega
  rw [← instant_fields x, ← instant_fields y, hyear hy'.symm,
    hunsigned (by omega) (by omega) (by omega) (by omega) hmo,
    hunsigned (by omega) (by omega) (by omega) (by omega) hd,
    hunsigned hhx.1 (by omega) hhy.1 (by omega) hh,
    hunsigned hmix.1 (by omega) hmiy.1 (by omega) hmi,
    hunsigned hsx.1 (by omega) hsy.1 (by omega) hs]

/-- The year of a schedule that gives years fits into a `long`. -/
theorem year_of_matches (h : S.Matches x) (hyear : S.year ≠ .any) :
    0 ≤ year x ∧ year x < 2 ^ 63 := by
  have hrange := S.year_inRange
  have hhas := h.1
  cases hy : S.year with
  | any => exact absurd hy hyear
  | one v =>
    rw [hy] at hrange hhas
    unfold FieldSpec.InRange FieldSpec.Has at *
    omega
  | between a b =>
    rw [hy] at hrange hhas
    unfold FieldSpec.InRange FieldSpec.Has at *
    omega
  | among values =>
    rw [hy] at hrange hhas
    obtain ⟨v, hv, heq⟩ := hhas
    have hbound := hrange.2 v hv
    omega

/-- Where any year will do, a second that matches comes again after 400 years. -/
theorem matches_add_400 (h : S.Matches x) (hyear : S.year = .any) :
    S.Matches (x + 146097 * 86400) := by
  obtain ⟨-, hmonth, hday, hhour, hminute, hsecond⟩ := h
  obtain ⟨-, hmo, hmd, hwd⟩ := fields_add_400 x
  have htime : hour (x + 146097 * 86400) = hour x ∧ minute (x + 146097 * 86400) = minute x ∧
      second (x + 146097 * 86400) = second x := by
    unfold hour minute second
    omega
  unfold CalendarSchedule.MatchesDay at hday
  unfold CalendarSchedule.Matches CalendarSchedule.MatchesDay
  rw [hmo, hmd, hwd, htime.1, htime.2.1, htime.2.2, hyear]
  exact ⟨trivial, hmonth, hday, hhour, hminute, hsecond⟩

end

namespace Times

variable {off cur : Int} {ulMilliSeconds : Nat} {S : CalendarSchedule} {t t' : Times}

/-- The UTC seconds after a given one that match a schedule. -/
def later (S : CalendarSchedule) (off s : Int) : Set Int :=
  {u | s < u ∧ S.Matches (localSecond off u)}

/-- The text of a UTC second in the zone. -/
def secondText (off u : Int) (ulMilliSeconds : Nat) : List Char :=
  printDateTime (localTm (localSecond off u)) ulMilliSeconds

/-- **What the next expiration should be**: the least second after the current one that matches the
schedule, and no later second matches where the last timeout is reported. -/
structure NextIsLeast (S : CalendarSchedule) (off s : Int) (ulMilliSeconds : Nat)
    (r : Except Fault (Except SchedulerError Unit × Times)) : Prop where
  found : ∀ t', r = .ok (.ok (), t') → ∃ next, IsLeast (later S off s) next ∧
    t'.pNextExpirationDateTime = secondText off next ulMilliSeconds
  last : ∀ t', r = .ok (.error .schReachedLastTimeout, t') → later S off s = ∅

/-! ### What the search finds -/

/-- **The search finds the first second after the one that it goes on from.** -/
theorem nextIsLeast_searchSecond (hS : S.Writes t.pCalendarSchedule)
    (hcur : t.currentSecond off = some (cur, ulMilliSeconds)) (fuel : Nat) :
    NextIsLeast S off (t.searchSecond cur) ulMilliSeconds
      (t.updateNextCalendarExpirationDateTime (fixedOffset off) fuel) := by
  obtain ⟨S', hreads, hmatches⟩ := hS.reads
  generalize hs : t.searchSecond cur = s
  have hlater : ∀ u, s < u ↔ localSecond off (s + 1) ≤ localSecond off u := fun u => by
    unfold localSecond; omega
  rw [update_eq hreads fuel hcur, hs]
  cases hloop : loop S'.pass fuel (localSecond off (s + 1)) with
  | error fault => exact ⟨nofun, nofun⟩
  | ok r =>
    cases r with
    | error e =>
      have hnone := (pass_seeks S').none_of_error hloop
      refine ⟨nofun, fun t' _ => Set.eq_empty_of_forall_notMem fun u hu => ?_⟩
      exact hnone _ ((hlater u).mp hu.1) ((hmatches _).mpr hu.2)
    | ok x =>
      obtain ⟨⟨hle, hx⟩, hleast⟩ := (pass_seeks S').isLeast hloop
      have hnext : localSecond off (x - (epoch + off)) = x := by unfold localSecond; omega
      refine ⟨fun t' h => ⟨x - (epoch + off), ⟨⟨?_, ?_⟩, fun u hu => ?_⟩, ?_⟩, fun t' h => ?_⟩
      · rwa [hlater, hnext]
      · show S.Matches (localSecond off (x - (epoch + off)))
        rw [hnext]
        exact (hmatches x).mp hx
      · have := hleast ⟨(hlater u).mp hu.1, (hmatches _).mpr hu.2⟩
        unfold localSecond at this
        omega
      · unfold secondText
        rw [hnext]
        dsimp only at h
        split at h
        · cases h
        · cases h
          rfl
      · dsimp only at h
        split at h
        · cases h
        · cases h

/-- The text that the method writes fits into its array. -/
theorem length_of_update {fuel : Nat}
    (h : t.updateNextCalendarExpirationDateTime (fixedOffset off) fuel = .ok (.ok (), t')) :
    t'.pNextExpirationDateTime.length < maxDateLength := by
  unfold updateNextCalendarExpirationDateTime at h
  split at h
  · cases h
  · split at h
    · cases h
    · cases h
    · dsimp only at h
      split at h
      · cases h
      · next hle =>
        cases h
        exact Nat.lt_of_le_sub_one (by decide) (Nat.not_lt.mp hle)

/-- With a second that matches ahead, whose text fits, the search comes to it. -/
theorem exists_update_of_isLeast (hS : S.Writes t.pCalendarSchedule)
    (hcur : t.currentSecond off = some (cur, ulMilliSeconds)) {next : Int}
    (hnext : IsLeast (later S off (t.searchSecond cur)) next)
    (hfits : (secondText off next ulMilliSeconds).length < maxDateLength) :
    ∃ fuel t', t.updateNextCalendarExpirationDateTime (fixedOffset off) fuel = .ok (.ok (), t') ∧
      t'.pNextExpirationDateTime = secondText off next ulMilliSeconds := by
  obtain ⟨S', hreads, hmatches⟩ := hS.reads
  have hahead : localSecond off (t.searchSecond cur + 1) ≤ localSecond off next := by
    have := hnext.1.1
    unfold localSecond
    omega
  have hmatch : S'.Matches (localSecond off next) := (hmatches _).mpr hnext.1.2
  obtain ⟨fuel, r, hloop⟩ := (pass_seeks S').halts_of_exists hahead hmatch
  have hupdate := update_eq hreads fuel hcur
  rw [hloop] at hupdate
  cases r with
  | error e => exact absurd hmatch ((pass_seeks S').none_of_error hloop _ hahead)
  | ok x =>
    -- what the loop found is the least one
    have hx : x = localSecond off next := by
      obtain ⟨⟨hle, hx⟩, hleast⟩ := (pass_seeks S').isLeast hloop
      have hback : localSecond off (x - (epoch + off)) = x := by unfold localSecond; omega
      have hge : next ≤ x - (epoch + off) := by
        refine hnext.2 ⟨?_, ?_⟩
        · unfold localSecond at hle
          omega
        · show S.Matches (localSecond off (x - (epoch + off)))
          rw [hback]
          exact (hmatches x).mp hx
      have hle' : x ≤ localSecond off next := hleast ⟨hahead, hmatch⟩
      unfold localSecond at hle' ⊢
      omega
    subst hx
    dsimp only at hupdate
    unfold secondText at hfits
    rw [if_neg (Nat.not_lt.mpr (Nat.le_sub_one_of_lt hfits))] at hupdate
    exact ⟨fuel, _, hupdate, rfl⟩

/-- A first match after a second, and the first one after a later second, have one text only when
they are the same. -/
theorem eq_of_secondText {s s' next next' : Int} (h : IsLeast (later S off s) next)
    (h' : IsLeast (later S off s') next') (hs : s ≤ s') (hnear : s' < s + 146097 * 86400)
    (hfits : (secondText off next ulMilliSeconds).length < maxDateLength)
    (htext : secondText off next ulMilliSeconds = secondText off next' ulMilliSeconds) :
    next = next' := by
  have hle : next ≤ next' := h.2 ⟨hs.trans_lt h'.1.1, h'.1.2⟩
  have hmono : year (localSecond off next) ≤ year (localSecond off next') :=
    year_mono (by unfold localSecond; omega)
  have heq := eq_of_printDateTime hfits htext fun hyear => ?_
  · unfold localSecond at heq
    omega
  · have hmod : year (localSecond off next) % 2 ^ 64 = year (localSecond off next') % 2 ^ 64 := by
      unfold toUnsignedLong at hyear
      omega
    by_cases hany : S.year = .any
    · -- within 400 years the schedule matches again
      have hagain : S.Matches (localSecond off (next + 146097 * 86400)) := by
        have hshift : localSecond off (next + 146097 * 86400)
            = localSecond off next + 146097 * 86400 := by unfold localSecond; omega
        rw [hshift]
        exact matches_add_400 h.1.2 hany
      have hbefore : next' ≤ next + 146097 * 86400 :=
        h'.2 ⟨by have := h.1.1; omega, hagain⟩
      have hyears : year (localSecond off next') ≤ year (localSecond off next) + 400 := by
        rw [← (fields_add_400 (localSecond off next)).1]
        exact year_mono (by unfold localSecond; omega)
      omega
    · have hlow := year_of_matches h.1.2 hany
      have hhigh := year_of_matches h'.1.2 hany
      omega

/-- **The next expiration is the first that matches** exactly when the flag of the current
expiration is unset, or no second of the hour before it matches (or the first one that does has a
text too long for its array). -/
theorem nextIsLeast_iff (S : CalendarSchedule) (off : Int) (t : Times)
    (hS : S.Writes t.pCalendarSchedule)
    (hcur : t.currentSecond off = some (cur, ulMilliSeconds)) :
    (∀ fuel, NextIsLeast S off cur ulMilliSeconds
        (t.updateNextCalendarExpirationDateTime (fixedOffset off) fuel)) ↔
      t.bCurrentDaylightSavingTime = false ∨
        ∀ first, IsLeast (later S off (cur - 3600)) first →
          (secondText off first ulMilliSeconds).length < maxDateLength → cur < first := by
  have hsearch := nextIsLeast_searchSecond hS hcur
  constructor
  · intro h
    refine or_iff_not_imp_left.mpr fun hflag first hfirst hfits => ?_
    have hsecond : t.searchSecond cur = cur - 3600 := by
      unfold searchSecond
      rw [if_pos (Bool.eq_true_of_not_eq_false hflag)]
    obtain ⟨fuel, t', hup, htext⟩ :=
      exists_update_of_isLeast hS hcur (hsecond ▸ hfirst) hfits
    obtain ⟨next, hnext, htext'⟩ := (h fuel).found t' hup
    obtain rfl := eq_of_secondText hfirst hnext (by omega) (by omega) hfits
      (htext.symm.trans htext')
    exact hnext.1.1
  · rintro (hflag | hnone) fuel
    · have hsecond : t.searchSecond cur = cur := by
        unfold searchSecond
        rw [hflag]
        exact Int.sub_zero cur
      exact hsecond ▸ hsearch fuel
    · by_cases hflag : t.bCurrentDaylightSavingTime = true
      · have hsecond : t.searchSecond cur = cur - 3600 := by
          unfold searchSecond
          rw [if_pos hflag]
        obtain ⟨hfound, hlast⟩ := hsecond ▸ hsearch fuel
        refine ⟨fun t' hup => ?_, fun t' hup => ?_⟩
        · obtain ⟨next, hnext, htext⟩ := hfound t' hup
          have hfits : (secondText off next ulMilliSeconds).length < maxDateLength :=
            htext ▸ length_of_update hup
          have hlt := hnone next hnext hfits
          refine ⟨next, ⟨⟨hlt, hnext.1.2⟩, fun u hu => hnext.2 ⟨?_, hu.2⟩⟩, htext⟩
          have := hu.1
          omega
        · refine Set.eq_empty_of_forall_notMem fun u hu => ?_
          have hin : u ∈ later S off (cur - 3600) := ⟨by have := hu.1; omega, hu.2⟩
          rw [hlast t' hup] at hin
          exact hin
      · have hsecond : t.searchSecond cur = cur := by
          unfold searchSecond
          rw [if_neg hflag]
          exact Int.sub_zero cur
        exact hsecond ▸ hsearch fuel

/-- One hour ahead of UTC, the next expiration after the first monday is the following one. -/
theorem daysTimes_next : ∃ next, IsLeast (later daysSchedule 3600 1704149999) next ∧
    secondText 3600 next 0 = "2024-01-08 00:00:00:0000".toList := by
  have hcur : daysTimes.currentSecond 3600 = some (1704149999, 0) := by decide +kernel
  obtain ⟨next, hleast, htext⟩ := ((nextIsLeast_iff daysSchedule 3600 daysTimes daysSchedule_writes
    hcur).mpr (Or.inl rfl) 10).found
    { daysTimes with pNextExpirationDateTime := "2024-01-08 00:00:00:0000".toList }
    (by decide +kernel)
  exact ⟨next, hleast, htext.symm⟩

/-- Every midnight. -/
def midnightSchedule : CalendarSchedule :=
  { daysSchedule with
    monthday := .any
    weekday := .any
    monthday_inRange := trivial
    weekday_inRange := trivial }

theorem midnightSchedule_writes : midnightSchedule.Writes "* * * * 0 0 0".toList := by
  have hzero : FieldSpec.WritesNumber ['0'] 0 :=
    ⟨⟨by simp, List.forall_mem_singleton.mpr (by decide)⟩, by decide⟩
  exact ⟨['*'], ['*'], ['*'], ['*'], ['0'], ['0'], ['0'], by decide, rfl, rfl, rfl, rfl, hzero, hzero,
    hzero⟩

/-- A timer for every midnight that `start` has given a date half an hour after one. -/
def halfPastMidnight : PeriodicTimes where
  schTimesStatus := .schTimesInitialized
  ttTimesType := .schTypeCalendar
  pClassName := []
  pCalendarSchedule := "* * * * 0 0 0".toList
  bNextDaylightSavingTime := false
  pNextExpirationDateTime := []
  bCurrentDaylightSavingTime := true
  pCurrentExpirationDateTime := "2024-01-15 00:30:00:0000".toList
  ulPeriodInMilliSeconds := 0

/-- Started with this date in UTC, the timer waits for the midnight before. -/
theorem not_nextIsLeast_midnight :
    ¬∀ (S : CalendarSchedule) (off cur : Int) (ulMilliSeconds fuel : Nat) (t t' : PeriodicTimes)
      (now : Option (Int × Nat)) (pStartDateTime : Option (List Char)),
      S.Writes t.pCalendarSchedule →
      t.startDateTime (fixedOffset off) now pStartDateTime = .ok (.ok (), t') →
      t'.toTimes.currentSecond off = some (cur, ulMilliSeconds) →
      NextIsLeast S off cur ulMilliSeconds
        (t'.toTimes.updateNextCalendarExpirationDateTime (fixedOffset off) fuel) := by
  intro hall
  have hcur : halfPastMidnight.toTimes.currentSecond 0 = some (1705278600, 0) := by decide +kernel
  have hstart : { halfPastMidnight with
        bCurrentDaylightSavingTime := false
        pCurrentExpirationDateTime := [] : PeriodicTimes }.startDateTime (fixedOffset 0) none
      (some "2024-01-15 00:30:00:0000".toList) = .ok (.ok (), halfPastMidnight) := by
    decide +kernel
  have hupdate : halfPastMidnight.toTimes.updateNextCalendarExpirationDateTime (fixedOffset 0) 50 =
      .ok (.ok (), { halfPastMidnight.toTimes with
        pNextExpirationDateTime := "2024-01-15 00:00:00:0000".toList }) := by
    decide +kernel
  obtain ⟨next, hnext, htext⟩ := (hall midnightSchedule 0 1705278600 0 50 _ _ none _
    midnightSchedule_writes hstart hcur).found _ hupdate
  obtain ⟨first, hfirst, htext'⟩ :=
    (nextIsLeast_searchSecond midnightSchedule_writes hcur 50).found _ hupdate
  have hlength : ("2024-01-15 00:00:00:0000".toList).length < maxDateLength := by decide
  have heq : first = next := eq_of_secondText hfirst hnext (by decide) (by decide)
    (htext' ▸ hlength) (htext'.symm.trans htext)
  -- the midnight before is one of those that the search looks at
  have hbefore : (1705276800 : Int) ∈
      later midnightSchedule 0 (halfPastMidnight.toTimes.searchSecond 1705278600) := by
    refine ⟨by decide, trivial, trivial, trivial, ?_, ?_, ?_⟩
    · show hour _ = _
      decide +kernel
    · show minute _ = _
      decide +kernel
    · show second _ = _
      decide +kernel
  have hle := hfirst.2 hbefore
  have hlt := hnext.1.1
  omega

end Times

end CatraLibraries
