/-
# Times2 in the place of Times

The checks and the search of `Times2` are those of `Times` with other names for the ways to
stop: `checkSchedule_eq` and `searchBody_eq` say so, and `StandsFor` relates an object of the one
to an object of the other.  Every method keeps the relation and gives the same answer, but for
`start`: it does not look at `lastTimeout`, and a timer whose last date is past is started all the
same.
-/
import CatraLibraries.Lib.Agreement
import CatraLibraries.Lib.Transition
import CatraLibraries.Scheduler.Termination
import CatraLibraries.Scheduler.Times2

namespace CatraLibraries

open Memory Stdio JumpSearch Agreement Transition

namespace Times2

/-! ### The checks -/

/-- Every error of the checks is the one exception. -/
def refusal (_ : SchedulerError) : RuntimeError := wrongParameter

theorem mapError_bind {α β : Type} (x : Except SchedulerError α) (f : α → Except SchedulerError β) :
    (x >>= f).mapError refusal = x.mapError refusal >>= fun a => (f a).mapError refusal := by
  cases x with
  | error e => rfl
  | ok a => rfl

theorem require_eq (b : Bool) (e : SchedulerError) :
    require b = (ensure b e).mapError refusal := by
  cases b with
  | false => rfl
  | true => rfl

theorem nextToken_eq (tokens : List (List Char)) :
    nextToken tokens = (CatraLibraries.nextToken tokens).mapError refusal := by
  cases tokens with
  | nil => rfl
  | cons token tokens => rfl

theorem checkList_eq (min max : Int) (name : String) (values : List Int) :
    checkList min max values = (CatraLibraries.checkList min max name values).mapError refusal := by
  induction values with
  | nil => rfl
  | cons v values ih =>
    unfold checkList CatraLibraries.checkList
    rw [mapError_bind, ← require_eq, ih]

theorem checkField_eq (min max : Int) (name : String) (f : Field) :
    checkField min max f = (CatraLibraries.checkField min max name f).mapError refusal := by
  cases f with
  | list values => exact checkList_eq min max name values
  | range a b =>
    unfold checkField CatraLibraries.checkField
    rw [mapError_bind, ← require_eq]
    simp only [← require_eq]
  | value v => exact require_eq _ _
  | star => rfl

theorem checkLoop_eq (pYear : List Char) (month : Int) (f : Field) :
    checkLoop pYear month f = (CatraLibraries.checkLoop pYear month f).mapError refusal := by
  cases f with
  | list values => exact require_eq _ _
  | range a b => exact require_eq _ _
  | value v => exact require_eq _ _
  | star => rfl

theorem checkRangeValues_eq (schedule : List Char) :
    checkRangeValues schedule = (CatraLibraries.checkRangeValues schedule).mapError refusal := by
  unfold checkRangeValues CatraLibraries.checkRangeValues
  simp only [mapError_bind, ← nextToken_eq, ← checkField_eq, ← checkLoop_eq]

/-- **The constructor makes the checks of `init`.** -/
theorem checkSchedule_eq (schedule : List Char) :
    checkSchedule schedule = (CatraLibraries.checkSchedule schedule).mapError refusal := by
  unfold checkSchedule CatraLibraries.checkSchedule
  simp only [mapError_bind, ← require_eq, ← checkRangeValues_eq]

/-! ### The search -/

/-- What the search of `Times2` makes of an error of the search of `Times`. -/
def stopOf : SchedulerError → Stop
  | .schReachedLastTimeout => .lastTimeout
  | .schLocaltimeRFailed => .thrown localtimeRFailed
  | _ => .thrown strtokRFailed

variable {libc : Libc} {tm : Tm}

theorem continueAt_eq (libc : Libc) (lUtcTime : Int) :
    continueAt libc lUtcTime = (CatraLibraries.continueAt libc lUtcTime).mapFail stopOf := by
  unfold continueAt CatraLibraries.continueAt
  cases libc.localtimeR lUtcTime with
  | none => rfl
  | some tm => rfl

theorem nextYear_eq : nextYear libc tm = (CatraLibraries.nextYear libc tm).mapFail stopOf :=
  continueAt_eq libc _

/-- The test of a year that may be past the last one, in both searches. -/
theorem yearTest_eq {c past : Prop} [Decidable c] [Decidable past] {p : Pass Tm Stop}
    {p' : Pass Tm SchedulerError} (h : p = p'.mapFail stopOf) :
    (if c then none else if past then some (.fail .lastTimeout) else some p)
      = (if c then none else if past then some (.fail .schReachedLastTimeout)
          else some p').map (Pass.mapFail stopOf) := by
  subst h
  split_ifs
  · rfl
  · rfl
  · rfl

theorem yearPass_eq (f : Field) : yearPass libc tm f
    = (CatraLibraries.yearPass libc tm f).map (Pass.mapFail stopOf) := by
  cases f with
  | list values => exact yearTest_eq nextYear_eq
  | range a b => exact yearTest_eq nextYear_eq
  | value v => exact yearTest_eq nextYear_eq
  | star => rfl

theorem nextMonth_eq : nextMonth libc tm = (CatraLibraries.nextMonth libc tm).mapFail stopOf :=
  continueAt_eq libc _

theorem nextDay_eq : nextDay libc tm = (CatraLibraries.nextDay libc tm).mapFail stopOf := by
  unfold nextDay CatraLibraries.nextDay
  dsimp only
  cases libc.localtimeR _ with
  | none => rfl
  | some tm =>
    dsimp only
    rw [continueAt_eq, continueAt_eq]
    split_ifs
    · rfl
    · rfl
    · rfl
    · rfl

theorem nextHour_eq : nextHour libc tm = (CatraLibraries.nextHour libc tm).mapFail stopOf := by
  unfold nextHour CatraLibraries.nextHour
  dsimp only
  cases libc.localtimeR _ with
  | none => rfl
  | some tm =>
    dsimp only
    rw [continueAt_eq]
    split_ifs
    · rfl
    · rfl

/-- A test that moves the date on, in both searches. -/
theorem test_eq {c : Prop} [Decidable c] {p : Pass Tm Stop} {p' : Pass Tm SchedulerError}
    (h : p = p'.mapFail stopOf) :
    (if c then none else some p) = (if c then none else some p').map (Pass.mapFail stopOf) := by
  subst h
  split_ifs
  · rfl
  · rfl

theorem monthPass_eq (f : Field) : monthPass libc tm f
    = (CatraLibraries.monthPass libc tm f).map (Pass.mapFail stopOf) :=
  test_eq nextMonth_eq

theorem dayPass_eq (md wd : Field) : dayPass libc tm md wd
    = (CatraLibraries.dayPass libc tm md wd).map (Pass.mapFail stopOf) := by
  unfold dayPass CatraLibraries.dayPass
  rw [nextDay_eq]
  split_ifs
  · rfl
  · rfl

theorem hourPass_eq (f : Field) : hourPass libc tm f
    = (CatraLibraries.hourPass libc tm f).map (Pass.mapFail stopOf) :=
  test_eq nextHour_eq

theorem minutePass_eq (f : Field) : minutePass libc tm f
    = (CatraLibraries.minutePass libc tm f).map (Pass.mapFail stopOf) :=
  test_eq (continueAt_eq libc _)

theorem secondPass_eq (f : Field) : secondPass libc tm f
    = (CatraLibraries.secondPass libc tm f).map (Pass.mapFail stopOf) :=
  test_eq (continueAt_eq libc _)

theorem onField_eq {tokens : List (List Char)} {k : Field → List (List Char) → Pass Tm Stop}
    {k' : Field → List (List Char) → Pass Tm SchedulerError}
    (h : ∀ f tokens, k f tokens = (k' f tokens).mapFail stopOf) :
    onField tokens k = (CatraLibraries.onField tokens k').mapFail stopOf := by
  cases tokens with
  | nil => rfl
  | cons token tokens => exact h _ _

theorem getD_mapFail {o : Option (Pass Tm Stop)} {o' : Option (Pass Tm SchedulerError)}
    {p : Pass Tm Stop} {p' : Pass Tm SchedulerError} (ho : o = o'.map (Pass.mapFail stopOf))
    (hp : p = p'.mapFail stopOf) : o.getD p = (o'.getD p').mapFail stopOf := by
  subst ho hp
  cases o' with
  | none => rfl
  | some q => rfl

/-- **A pass of the one search is a pass of the other.** -/
theorem searchBody_eq (libc : Libc) (text : List Char) (tm : Tm) :
    searchBody libc text tm = (CatraLibraries.searchBody libc text tm).mapFail stopOf := by
  apply onField_eq
  intro year tokens
  apply getD_mapFail (yearPass_eq year)
  apply onField_eq
  intro month tokens
  apply getD_mapFail (monthPass_eq month)
  apply onField_eq
  intro monthday tokens
  apply onField_eq
  intro weekday tokens
  apply getD_mapFail (dayPass_eq monthday weekday)
  apply onField_eq
  intro hour tokens
  apply getD_mapFail (hourPass_eq hour)
  apply onField_eq
  intro minute tokens
  apply getD_mapFail (minutePass_eq minute)
  apply onField_eq
  intro second tokens
  exact getD_mapFail (secondPass_eq second) rfl

/-! ### The objects -/

/-- The status of the same name. -/
def statusOf : Times2Status → TimesStatus
  | .schTimesInitialized => .schTimesInitialized
  | .schTimesStarted => .schTimesStarted

/-- An object of `Times2` has the members of an object of `Times`.  A constructor sets the
period or the schedule and leaves the flags as they are; they are equal once the timer is
started. -/
structure StandsFor (t2 : Times2) (t : PeriodicTimes) : Prop where
  schTimesStatus : t.schTimesStatus = statusOf t2.schTimesStatus
  ttTimesType : t.ttTimesType = t2.ttTimesType
  period : t.ttTimesType = .schTypePeriodic → t.ulPeriodInMilliSeconds = t2.ulPeriodInMilliSeconds
  schedule : t.ttTimesType = .schTypeCalendar → t.pCalendarSchedule = t2.pCalendarSchedule
  current : t.pCurrentExpirationDateTime = t2.pCurrentExpirationDateTime
  next : t.pNextExpirationDateTime = t2.pNextExpirationDateTime
  flags : t.schTimesStatus = .schTimesStarted →
    t.bCurrentDaylightSavingTime = t2.bCurrentDaylightSavingTime ∧
      t.bNextDaylightSavingTime = t2.bNextDaylightSavingTime

variable {t : PeriodicTimes} {t2 : Times2} {fuel : Nat} {now : Option (Int × Nat)}

/-- The two ways to end the search of the next date, side by side. -/
inductive Searched (t : PeriodicTimes) (t2 : Times2) :
    Except SchedulerError Unit × PeriodicTimes → Except RuntimeError Bool × Times2 → Prop
  | failed {e : SchedulerError} (he : e ≠ .schReachedLastTimeout) (e2 : RuntimeError) :
    Searched t t2 (.error e, t) (.error e2, t2)
  | lastTimeout : Searched t t2 (.error .schReachedLastTimeout, t) (.ok true, t2)
  | found (text : List Char) (flag : Bool) :
    Searched t t2
      (.ok (),
        { t with
          pNextExpirationDateTime := text
          bNextDaylightSavingTime := flag })
      (.ok false,
        { t2 with
          pNextExpirationDateTime := text
          bNextDaylightSavingTime := flag })

/-- **The searches of the next date agree.** -/
theorem updateNextCalendar_agree (libc : Libc) (fuel : Nat) (h : t2.StandsFor t)
    (htype : t.ttTimesType = .schTypeCalendar)
    (hflag : t.bCurrentDaylightSavingTime = t2.bCurrentDaylightSavingTime) :
    Agree (Searched t t2) (t.updateNextCalendarExpirationDateTime libc fuel)
      (t2.updateNextCalendarExpirationDateTime libc fuel) := by
  unfold PeriodicTimes.updateNextCalendarExpirationDateTime
    Times.updateNextCalendarExpirationDateTime updateNextCalendarExpirationDateTime
    Times.searchStart searchStart searchLoop
  have hscan := congrArg scanDateTime h.current
  have hdst := congrArg Bool.toInt hflag
  have hbody := congrArg (CatraLibraries.searchBody libc) (h.schedule htype)
  rw [hscan, hdst, hbody]
  cases scanDateTime t2.pCurrentExpirationDateTime with
  | none => exact Agree.ok (Searched.failed (by simp) _)
  | some r =>
    obtain ⟨tm, ulMilliSeconds⟩ := r
    dsimp only
    cases libc.localtimeR (libc.mktime
        { tm with
          tmIsdst := t2.bCurrentDaylightSavingTime.toInt }) with
    | none => exact Agree.ok (Searched.failed (by simp) _)
    | some tm =>
      dsimp only
      cases libc.localtimeR (libc.mktime tm + 1) with
      | none => exact Agree.ok (Searched.failed (by simp) _)
      | some tm =>
        dsimp only
        rw [loop_mapFail (searchBody_eq libc t2.pCalendarSchedule)]
        cases loop (CatraLibraries.searchBody libc t2.pCalendarSchedule) fuel tm with
        | error fault => exact Agree.error fault
        | ok r =>
          cases r with
          | ok tm =>
            show Agree _ ((if _ then _ else _) >>= _) (if _ then _ else _)
            split_ifs
            · exact Agree.error _
            · exact Agree.ok (Searched.found _ _)
          | error e =>
            by_cases he : e = .schReachedLastTimeout
            · subst he
              exact Agree.ok Searched.lastTimeout
            · have hstop : ∃ e2, stopOf e = .thrown e2 := by
                cases e <;> first | exact ⟨_, rfl⟩ | exact absurd rfl he
              obtain ⟨e2, he2⟩ := hstop
              have hmap : (Except.ok (Except.error e) : Except Fault (Except SchedulerError Tm)).map
                  (Except.mapError stopOf) = .ok (.error (stopOf e)) := rfl
              rw [hmap, he2]
              exact Agree.ok (Searched.failed he e2)

/-- The two ways to add the period. -/
inductive Added (t : PeriodicTimes) (t2 : Times2) :
    Except SchedulerError Unit × PeriodicTimes → Except Times2Error Unit × Times2 → Prop
  | failed :
    Added t t2 (.error .schTimesAddSecondsToDateTimeFailed, t)
      (.error .schTimesAddSecondsToDateTimeFailed, t2)
  | found (text : List Char) (flag : Bool) :
    Added t t2
      (.ok (),
        { t with
          pNextExpirationDateTime := text
          bNextDaylightSavingTime := flag })
      (.ok (),
        { t2 with
          pNextExpirationDateTime := text
          bNextDaylightSavingTime := flag })

theorem updateNextPeriodic_agree (h : t2.StandsFor t) (htype : t.ttTimesType = .schTypePeriodic)
    (hflag : t.bCurrentDaylightSavingTime = t2.bCurrentDaylightSavingTime) :
    Agree (Added t t2) (t.updateNextPeriodicExpirationDateTime libc)
      (t2.updateNextPeriodicExpirationDateTime libc) := by
  unfold PeriodicTimes.updateNextPeriodicExpirationDateTime updateNextPeriodicExpirationDateTime
  have hsum : addMilliSecondsToDateTime libc t.pCurrentExpirationDateTime
      t.bCurrentDaylightSavingTime.toInt t.ulPeriodInMilliSeconds
      = addMilliSecondsToDateTime libc t2.pCurrentExpirationDateTime
        t2.bCurrentDaylightSavingTime.toInt t2.ulPeriodInMilliSeconds := by
    rw [h.current, hflag, h.period htype]
  rw [hsum]
  refine Agree.bind (Agree.refl (R := Eq) (fun _ => rfl) _) ?_
  rintro r - rfl
  cases r with
  | error e => exact Agree.ok Added.failed
  | ok next => exact Agree.ok (Added.found _ _)

/-- The two ways to set the first date. -/
inductive Dated (t : PeriodicTimes) (t2 : Times2) :
    Except SchedulerError Unit × PeriodicTimes → Except Times2Error Unit × Times2 → Prop
  | failed (e : SchedulerError) (e2 : Times2Error) : Dated t t2 (.error e, t) (.error e2, t2)
  | set (text : List Char) (flag : Bool) :
    Dated t t2
      (.ok (),
        { t with
          pCurrentExpirationDateTime := text
          bCurrentDaylightSavingTime := flag })
      (.ok (),
        { t2 with
          pCurrentExpirationDateTime := text
          bCurrentDaylightSavingTime := flag })

theorem startDateTime_agree (libc : Libc) (now : Option (Int × Nat))
    (pStartDateTime : Option (List Char)) (t : PeriodicTimes) (t2 : Times2) :
    Agree (Dated t t2) (t.startDateTime libc now pStartDateTime)
      (t2.startDateTime libc now pStartDateTime) := by
  unfold PeriodicTimes.startDateTime startDateTime
  cases pStartDateTime with
  | some text =>
    dsimp only
    cases scanUlDateTime text with
    | none => exact Agree.ok (Dated.failed _ _)
    | some r =>
      dsimp only
      cases addSeconds libc r.1 (-1) 0 with
      | error e => exact Agree.ok (Dated.failed _ _)
      | ok dest =>
        refine Agree.bind (Agree.refl (R := Eq) (fun _ => rfl) _) ?_
        rintro text - rfl
        exact Agree.ok (Dated.set _ _)
  | none =>
    dsimp only
    cases getTmLocalTime libc now with
    | none => exact Agree.ok (Dated.failed _ _)
    | some r =>
      refine Agree.bind (Agree.refl (R := Eq) (fun _ => rfl) _) ?_
      rintro text - rfl
      exact Agree.ok (Dated.set _ _)

/-! ### The methods -/

/-- After a method the objects still stand for one another, and the timer has the type and the
schedule that it had. -/
structure Keeps (t t' : PeriodicTimes) (t2' : Times2) : Prop where
  standsFor : t2'.StandsFor t'
  ttTimesType : t'.ttTimesType = t.ttTimesType
  pCalendarSchedule : t'.pCalendarSchedule = t.pCalendarSchedule

theorem StandsFor.keeps (h : t2.StandsFor t) : Keeps t t t2 := ⟨h, rfl, rfl⟩

theorem statusOf_eq_started {s : Times2Status} :
    statusOf s = .schTimesStarted ↔ s = .schTimesStarted := by
  cases s with
  | schTimesInitialized => decide
  | schTimesStarted => decide

theorem statusOf_eq_initialized {s : Times2Status} :
    statusOf s = .schTimesInitialized ↔ s = .schTimesInitialized := by
  cases s with
  | schTimesInitialized => decide
  | schTimesStarted => decide

/-- `start` does not come upon the last timeout. -/
def Starts (libc : Libc) (fuel : Nat) (now : Option (Int × Nat)) (p : Option (List Char))
    (t : PeriodicTimes) : Prop :=
  ∀ t' t'', t.startDateTime libc now p = .ok (.ok (), t') →
    t'.updateNextCalendarExpirationDateTime libc fuel ≠ .ok (.error .schReachedLastTimeout, t'')

/-- Two errors: neither call succeeds. -/
theorem neither {ε ε' α β : Type} {e : ε} {e2 : ε'} {a : α} {b : β} :
    (Except.error e = Except.ok a) ↔ (Except.error e2 = Except.ok b) := by
  constructor
  · intro h
    cases h
  · intro h
    cases h

/-- Two results: both calls succeed. -/
theorem both {ε ε' α β : Type} {a : α} {b : β} :
    ((Except.ok a : Except ε α) = .ok a) ↔ ((Except.ok b : Except ε' β) = .ok b) :=
  ⟨fun _ => rfl, fun _ => rfl⟩

/-- A new status for both objects, with flags that are equal. -/
theorem StandsFor.setStatus (h : t2.StandsFor t) (s2 : Times2Status)
    (hcurrent : t.bCurrentDaylightSavingTime = t2.bCurrentDaylightSavingTime)
    (hnext : s2 = .schTimesStarted → t.bNextDaylightSavingTime = t2.bNextDaylightSavingTime) :
    { t2 with schTimesStatus := s2 }.StandsFor
      { t with schTimesStatus := statusOf s2 } :=
  ⟨rfl, h.ttTimesType, h.period, h.schedule, h.current, h.next,
    fun hs => ⟨hcurrent, hnext (statusOf_eq_started.mp hs)⟩⟩

/-- A new next expiration for both objects. -/
theorem StandsFor.setNext (h : t2.StandsFor t) (text : List Char) (flag : Bool) :
    { t2 with
      pNextExpirationDateTime := text
      bNextDaylightSavingTime := flag }.StandsFor
      { t with
        pNextExpirationDateTime := text
        bNextDaylightSavingTime := flag } :=
  ⟨h.schTimesStatus, h.ttTimesType, h.period, h.schedule, h.current, rfl,
    fun hs => ⟨(h.flags hs).1, rfl⟩⟩

/-- A new current expiration for both objects. -/
theorem StandsFor.setCurrent (h : t2.StandsFor t) (text : List Char) (flag : Bool) :
    { t2 with
      pCurrentExpirationDateTime := text
      bCurrentDaylightSavingTime := flag }.StandsFor
      { t with
        pCurrentExpirationDateTime := text
        bCurrentDaylightSavingTime := flag } :=
  ⟨h.schTimesStatus, h.ttTimesType, h.period, h.schedule, rfl, h.next,
    fun hs => ⟨rfl, (h.flags hs).2⟩⟩

/-- **`start` succeeds in both or in neither**, unless the last timeout is past. -/
theorem start_agree (h : t2.StandsFor t) (p : Option (List Char))
    (hstarts : t.schTimesStatus = .schTimesInitialized → t.ttTimesType = .schTypeCalendar →
      Starts libc fuel now p t) :
    Agree (fun x y => (x.1 = .ok () ↔ y.1 = .ok ()) ∧ Keeps t x.2 y.2) (t.start libc fuel now p)
      (t2.start libc fuel now p) := by
  unfold PeriodicTimes.start start
  by_cases hstatus : t2.schTimesStatus = .schTimesInitialized
  · have hstatus' : t.schTimesStatus = .schTimesInitialized := by rw [h.schTimesStatus, hstatus]; rfl
    rw [if_neg (not_not.mpr hstatus'), if_neg (not_not.mpr hstatus)]
    have hdated := startDateTime_agree libc now p t t2
    have hstarts := hstarts hstatus'
    unfold Starts at hstarts
    generalize t.startDateTime libc now p = x at hdated hstarts
    generalize t2.startDateTime libc now p = y at hdated
    cases hdated with
    | error fault => exact Agree.error fault
    | ok hdated =>
      cases hdated with
      | failed e e2 => exact Agree.ok ⟨neither, h.keeps⟩
      | set text flag =>
        have hstarts := fun hc t'' => hstarts hc _ t'' rfl
        have hu := h.setCurrent text flag
        obtain ⟨u, htu⟩ : ∃ u, u = { t with
          pCurrentExpirationDateTime := text
          bCurrentDaylightSavingTime := flag } := ⟨_, rfl⟩
        obtain ⟨u2, htu2⟩ : ∃ u2, u2 = { t2 with
          pCurrentExpirationDateTime := text
          bCurrentDaylightSavingTime := flag } := ⟨_, rfl⟩
        have htype : u.ttTimesType = t.ttTimesType := by rw [htu]
        have hschedule : u.pCalendarSchedule = t.pCalendarSchedule := by rw [htu]
        have hflag : u.bCurrentDaylightSavingTime = u2.bCurrentDaylightSavingTime := by
          rw [htu, htu2]
        rw [← htu, ← htu2] at hu
        rw [← htu, ← htu2, ok_bind, ok_bind]
        rw [← htu, ← htype] at hstarts
        clear htu htu2
        dsimp only
        rw [← hu.ttTimesType]
        cases hkind : u.ttTimesType with
        | schTypePeriodic =>
          refine Agree.bind (updateNextPeriodic_agree hu hkind hflag) ?_
          rintro x y (- | ⟨next, flag'⟩)
          · exact Agree.ok ⟨neither, hu, htype, hschedule⟩
          · exact Agree.ok ⟨both, (hu.setNext next flag').setStatus .schTimesStarted hflag
              fun _ => rfl, htype, hschedule⟩
        | schTypeCalendar =>
          have hsearch := updateNextCalendar_agree libc fuel hu hkind hflag
          refine Agree.bind (hsearch.and_eq) ?_
          rintro x y ⟨⟨hx, -⟩, he | - | ⟨next, flag'⟩⟩
          · exact Agree.ok ⟨neither, hu, htype, hschedule⟩
          · exact absurd hx (hstarts hkind _)
          · exact Agree.ok ⟨both, (hu.setNext next flag').setStatus .schTimesStarted hflag
              fun _ => rfl, htype, hschedule⟩
  · have hstatus' : t.schTimesStatus ≠ .schTimesInitialized := by
      rw [h.schTimesStatus]
      exact fun hs => hstatus (statusOf_eq_initialized.mp hs)
    rw [if_pos hstatus', if_pos hstatus]
    exact Agree.ok ⟨neither, h.keeps⟩

theorem stop_agree (h : t2.StandsFor t) :
    (t.stop.1 = .ok () ↔ t2.stop.1 = .ok ()) ∧ Keeps t t.stop.2 t2.stop.2 := by
  unfold PeriodicTimes.stop stop
  by_cases hstatus : t2.schTimesStatus = .schTimesStarted
  · have hstatus' : t.schTimesStatus = .schTimesStarted := by rw [h.schTimesStatus, hstatus]; rfl
    rw [if_neg (not_not.mpr hstatus'), if_neg (not_not.mpr hstatus)]
    exact ⟨both, h.setStatus .schTimesInitialized (h.flags hstatus').1 (fun hs => by cases hs),
      rfl, rfl⟩
  · have hstatus' : t.schTimesStatus ≠ .schTimesStarted := by
      rw [h.schTimesStatus]
      exact fun hs => hstatus (statusOf_eq_started.mp hs)
    rw [if_pos hstatus', if_pos hstatus]
    exact ⟨neither, h.keeps⟩

/-- `updateNextExpirationDateTime` reports the same: by an error the one, by its flag the
other. -/
def SameReport (x : Except SchedulerError Unit) (y : Except Times2Failure Bool) : Prop :=
  (x = .ok () ↔ y = .ok false) ∧ (x = .error .schReachedLastTimeout ↔ y = .ok true)

theorem SameReport.next : SameReport (.ok ()) (.ok false) :=
  ⟨both, fun h => (by cases h), fun h => (by cases h)⟩

theorem SameReport.last : SameReport (.error .schReachedLastTimeout) (.ok true) :=
  ⟨⟨fun h => (by cases h), fun h => (by cases h)⟩, fun _ => rfl, fun _ => rfl⟩

theorem SameReport.failed {e : SchedulerError} (he : e ≠ .schReachedLastTimeout)
    (f : Times2Failure) : SameReport (.error e) (.error f) :=
  ⟨neither, fun h => absurd (Except.error.inj h) he, fun h => (by cases h)⟩

/-- **The last timeout is reported at the same call.** -/
theorem updateNextExpirationDateTime_agree (libc : Libc) (fuel : Nat) (h : t2.StandsFor t) :
    Agree (fun x y => SameReport x.1 y.1 ∧ Keeps t x.2 y.2)
      (t.updateNextExpirationDateTime libc fuel) (t2.updateNextExpirationDateTime libc fuel) := by
  unfold PeriodicTimes.updateNextExpirationDateTime updateNextExpirationDateTime
  by_cases hstatus : t2.schTimesStatus = .schTimesStarted
  · have hstatus' : t.schTimesStatus = .schTimesStarted := by rw [h.schTimesStatus, hstatus]; rfl
    rw [if_neg (not_not.mpr hstatus'), if_neg (not_not.mpr hstatus)]
    obtain ⟨-, hnext⟩ := h.flags hstatus'
    obtain ⟨u, htu⟩ : ∃ u, u = { t with
      bCurrentDaylightSavingTime := t.bNextDaylightSavingTime
      pCurrentExpirationDateTime := t.pNextExpirationDateTime } := ⟨_, rfl⟩
    obtain ⟨u2, htu2⟩ : ∃ u2, u2 = { t2 with
      bCurrentDaylightSavingTime := t2.bNextDaylightSavingTime
      pCurrentExpirationDateTime := t2.pNextExpirationDateTime } := ⟨_, rfl⟩
    have hu : u2.StandsFor u := by
      subst htu htu2
      exact ⟨h.schTimesStatus, h.ttTimesType, h.period, h.schedule, h.next, h.next,
        fun _ => ⟨hnext, hnext⟩⟩
    have htype : u.ttTimesType = t.ttTimesType := by rw [htu]
    have hschedule : u.pCalendarSchedule = t.pCalendarSchedule := by rw [htu]
    have hflag : u.bCurrentDaylightSavingTime = u2.bCurrentDaylightSavingTime := by
      rw [htu, htu2, hnext]
    rw [← htu, ← htu2]
    clear htu htu2
    dsimp only
    rw [← hu.ttTimesType]
    cases hkind : u.ttTimesType with
    | schTypePeriodic =>
      dsimp only
      refine Agree.bind (updateNextPeriodic_agree hu hkind hflag) ?_
      rintro x y (- | ⟨next, flag'⟩)
      · exact Agree.ok ⟨.failed (by decide) _, hu, htype, hschedule⟩
      · exact Agree.ok ⟨.next, hu.setNext next flag', htype, hschedule⟩
    | schTypeCalendar =>
      dsimp only
      refine Agree.bind (updateNextCalendar_agree libc fuel hu hkind hflag) ?_
      rintro x y (@⟨e, he, e2⟩ | - | ⟨next, flag'⟩)
      · cases e with
        | schReachedLastTimeout => exact absurd rfl he
        | _ => exact Agree.ok ⟨.failed he _, hu, htype, hschedule⟩
      · exact Agree.ok ⟨.last, hu.setStatus .schTimesInitialized hflag (fun hs => by cases hs),
          htype, hschedule⟩
      · exact Agree.ok ⟨.next, hu.setNext next flag', htype, hschedule⟩
  · have hstatus' : t.schTimesStatus ≠ .schTimesStarted := by
      rw [h.schTimesStatus]
      exact fun hs => hstatus (statusOf_eq_started.mp hs)
    rw [if_pos hstatus', if_pos hstatus]
    exact Agree.ok ⟨.failed (by simp) _, h.keeps⟩

/-- **A started timer gives the same answers.** -/
theorem isExpiredTime_agree (h : t2.StandsFor t) (hstarted : t.schTimesStatus = .schTimesStarted)
    {tm : Tm} {ms : Nat} (hclock : getTmLocalTime libc now = some (tm, ms)) (locals : Tm × Nat) :
    Agree (fun x y => x = .ok y) (t.isExpiredTime libc now) (t2.isExpiredTime libc now locals) := by
  unfold PeriodicTimes.isExpiredTime isExpiredTime
  rw [if_neg (not_not.mpr hstarted), hclock]
  obtain ⟨hcur, hnext⟩ := h.flags hstarted
  dsimp only [Option.getD_some]
  rw [hcur, hnext, h.next]
  split_ifs
  · exact Agree.ok rfl
  · exact Agree.ok rfl
  · refine Agree.bind (Agree.refl (R := Eq) (fun _ => rfl) _) ?_
    rintro text - rfl
    exact Agree.ok rfl

end Times2

end CatraLibraries
