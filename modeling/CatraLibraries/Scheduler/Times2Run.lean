/-
# Runs of a timer and its replacement

A `Times` object and a `Times2` object are made of the same schedule or period and then get
the same calls, at the same readings of the clock.  In a zone with a fixed offset they behave
alike in every run in which a calendar timer is started only where its schedule has a date
after the start (`HasDate`); elsewhere `Times::start` reports the last timeout and leaves the timer
as it is, and `Times2::start` starts it.
-/
import CatraLibraries.Scheduler.PeriodicDates
import CatraLibraries.Scheduler.TimesReplaced

namespace CatraLibraries

open Memory Stdio JumpSearch Agreement Transition

/-! ### The two objects -/

/-- What a timer is made of. -/
inductive Timer
  | calendar (schedule : List Char)
  | periodic (ulPeriodInMilliSeconds : Nat)
  deriving DecidableEq, Repr

/-- A new object of `Times`, initialised; the storage keeps what it held. -/
def Timer.init (mutexInit : Bool) (pClassName : List Char) (storage : PeriodicTimes) :
    Timer → Except SchedulerError Unit × PeriodicTimes
  | .calendar schedule =>
    let (r, times) := { storage.toTimes with schTimesStatus := .schTimesBuilded }.init mutexInit
      (some schedule) (some pClassName)
    (r, { storage with toTimes := times })
  | .periodic ulPeriodInMilliSeconds =>
    { storage with schTimesStatus := .schTimesBuilded }.init mutexInit ulPeriodInMilliSeconds
      (some pClassName)

/-- A new object of `Times2`. -/
def Timer.construct (className : List Char) (storage : Times2) :
    Timer → Except RuntimeError Times2
  | .calendar schedule => storage.ofSchedule schedule className
  | .periodic ulPeriodInMilliSeconds => .ok (storage.ofPeriod ulPeriodInMilliSeconds className)

/-- An error that is not about the mutex or the name of the class. -/
def SchedulerError.AboutSchedule : SchedulerError → Prop
  | .threadlibPmutexInitFailed => False
  | .schClassNameTooLong => False
  | _ => True

/-- `init` refuses the schedule. -/
def RefusesSchedule (r : Except SchedulerError Unit) : Prop := ∃ e, r = .error e ∧ e.AboutSchedule

/-! ### The calls -/

inductive TimesCall
  | start (pStartDateTime : Option (List Char))
  | isExpiredTime
  | updateNextExpirationDateTime
  | stop
  deriving DecidableEq, Repr

/-- A call, with the reading of the clock; `locals` is what the stack holds. -/
structure TimedCall where
  now : Int × Nat
  locals : Tm × Nat
  call : TimesCall

/-- The object after a call. -/
def PeriodicTimes.after (libc : Libc) (fuel : Nat) (c : TimedCall) (t : PeriodicTimes) :
    Except Fault PeriodicTimes :=
  match c.call with
  | .start p => do
    let (_, t) ← t.start libc fuel (some c.now) p
    return t
  | .isExpiredTime => do
    let _ ← t.isExpiredTime libc (some c.now)
    return t
  | .updateNextExpirationDateTime => do
    let (_, t) ← t.updateNextExpirationDateTime libc fuel
    return t
  | .stop => .ok t.stop.2

/-- The object after a call. -/
def Times2.after (libc : Libc) (fuel : Nat) (c : TimedCall) (t : Times2) : Except Fault Times2 :=
  match c.call with
  | .start p => do
    let (_, t) ← t.start libc fuel (some c.now) p
    return t
  | .isExpiredTime => do
    let _ ← t.isExpiredTime libc (some c.now) c.locals
    return t
  | .updateNextExpirationDateTime => do
    let (_, t) ← t.updateNextExpirationDateTime libc fuel
    return t
  | .stop => .ok t.stop.2

/-- The two objects. -/
structure BothTimes where
  times : PeriodicTimes
  times2 : Times2
  deriving DecidableEq, Repr

namespace BothTimes

/-- The same call to both. -/
def step (libc : Libc) (fuel : Nat) (s : BothTimes) (c : TimedCall) : Option BothTimes := do
  let times ← (s.times.after libc fuel c).toOption
  let times2 ← (s.times2.after libc fuel c).toOption
  return ⟨times, times2⟩

/-- The answers to a call are the same: `start` and `stop` succeed in both or in neither, a timer
that is started in one of them is expired in both or in neither, and the last timeout is reported
by both or by neither. -/
def Agrees (libc : Libc) (fuel : Nat) (s : BothTimes) (c : TimedCall) : Prop :=
  match c.call with
  | .start p =>
    Agree (fun x y => x.1 = .ok () ↔ y.1 = .ok ()) (s.times.start libc fuel (some c.now) p)
      (s.times2.start libc fuel (some c.now) p)
  | .isExpiredTime =>
    s.times.schTimesStatus = .schTimesStarted ∨ s.times2.schTimesStatus = .schTimesStarted →
      Agree (fun x y => x = .ok y) (s.times.isExpiredTime libc (some c.now))
        (s.times2.isExpiredTime libc (some c.now) c.locals)
  | .updateNextExpirationDateTime =>
    Agree (fun x y => Times2.SameReport x.1 y.1) (s.times.updateNextExpirationDateTime libc fuel)
      (s.times2.updateNextExpirationDateTime libc fuel)
  | .stop => s.times.stop.1 = .ok () ↔ s.times2.stop.1 = .ok ()

/-! ### A date after the start -/

/-- The date that a timer is started with. -/
def startText (off : Int) (now : Int × Nat) : Option (List Char) → List Char
  | some pStartDateTime => pStartDateTime
  | none => printDateTime (localTm (localSecond off now.1)) now.2

/-- The schedule has a date after the one that the text and the flag denote, or it has any year. -/
def DateAfter (off : Int) (bDaylightSavingTime : Bool) (schedule text : List Char) : Prop :=
  ∀ S tm ulMilliSeconds, Schedule.Reads S schedule → scanDateTime text = some (tm, ulMilliSeconds) →
    S.year = .star ∨ ∃ x, localSecond off ((fixedOffset off).mktime
      { tm with
        tmIsdst := bDaylightSavingTime.toInt }) < x ∧ S.Matches x

/-- A calendar timer is started only where a date comes after the start; a date that is given sets
the flag. -/
def HasDate (off : Int) (s : BothTimes) (c : TimedCall) : Prop :=
  ∀ p, c.call = .start p → s.times.schTimesStatus = .schTimesInitialized →
    s.times.ttTimesType = .schTypeCalendar →
    DateAfter off p.isSome s.times.pCalendarSchedule (startText off c.now p)

end BothTimes

variable {off : Int} {t t' : PeriodicTimes} {fuel : Nat} {now : Int × Nat}

theorem eq_of_dateText {text text' : List Char} (h : dateText text = .ok text') : text = text' := by
  unfold dateText at h
  split_ifs at h
  exact Except.ok.inj h

/-- The text that `start` keeps denotes what the given text denotes, and a given text sets the
flag. -/
theorem scanDateTime_startDateTime {p : Option (List Char)}
    (h : t.startDateTime (fixedOffset off) (some now) p = .ok (.ok (), t')) :
    scanDateTime t'.pCurrentExpirationDateTime = scanDateTime (BothTimes.startText off now p) ∧
      t'.pCalendarSchedule = t.pCalendarSchedule ∧ t'.bCurrentDaylightSavingTime = p.isSome := by
  unfold PeriodicTimes.startDateTime at h
  cases p with
  | some text =>
    dsimp only at h
    show _ = scanDateTime text ∧ _
    cases hscan : scanUlDateTime text with
    | none => rw [hscan] at h; cases h
    | some r =>
      obtain ⟨d, ms⟩ := r
      rw [hscan] at h
      dsimp only at h
      rw [addSeconds_zero] at h
      dsimp only at h
      cases htext : dateText (printUlDateTime d ms) with
      | error fault => rw [htext] at h; cases h
      | ok text' =>
        rw [htext] at h
        obtain ⟨hfits, rfl⟩ := dateText_eq_ok.mp htext
        cases h
        refine ⟨?_, rfl, rfl⟩
        rw [scanDateTime_eq, scanDateTime_eq, hscan, scanUlDateTime_printUlDateTime hfits]
  | none =>
    have hclock : getTmLocalTime (fixedOffset off) (some now)
        = some (localTm (localSecond off now.1), now.2) := rfl
    dsimp only at h
    rw [hclock] at h
    dsimp only at h
    cases htext : dateText (printDateTime (localTm (localSecond off now.1)) now.2) with
    | error fault => rw [htext] at h; cases h
    | ok text =>
      rw [htext] at h
      obtain rfl := eq_of_dateText htext
      cases h
      exact ⟨rfl, rfl, rfl⟩

/-- A schedule with any year has no last timeout. -/
theorem Schedule.pass_ne_fail {S : Schedule} (hy : S.year = .star) (x : Int) (e : SchedulerError) :
    S.pass x ≠ .fail e := by
  intro h
  unfold Schedule.pass at h
  rw [if_neg (by rw [hy]; simp [Field.holds])] at h
  split_ifs at h

/-- **With a date after the start, the search at the start finds one.** -/
theorem starts_of_dateAfter {p : Option (List Char)} {S : Schedule}
    (hreads : S.Reads t.pCalendarSchedule)
    (hdate : BothTimes.DateAfter off p.isSome t.pCalendarSchedule
      (BothTimes.startText off now p)) :
    Times2.Starts (fixedOffset off) fuel (some now) p t := by
  intro t' t'' hstart hupdate
  obtain ⟨hscan, hschedule, hflag⟩ := scanDateTime_startDateTime hstart
  obtain ⟨⟨r, times⟩, hsearch, hr⟩ := bind_eq_ok.mp hupdate
  obtain ⟨rfl, -⟩ := Prod.mk.inj (Except.ok.inj hr)
  cases hcur : t'.toTimes.currentSecond off with
  | none =>
    -- a text that cannot be read is another error
    have hnone : scanDateTime t'.pCurrentExpirationDateTime = none := Option.map_eq_none_iff.mp hcur
    unfold Times.updateNextCalendarExpirationDateTime Times.searchStart at hsearch
    rw [hnone] at hsearch
    cases hsearch
  | some r =>
    obtain ⟨cur, ms⟩ := r
    obtain ⟨⟨tm, ms'⟩, htm, hpair⟩ := Option.map_eq_some_iff.mp hcur
    obtain ⟨hmk, rfl⟩ := Prod.mk.inj hpair
    rw [Times.update_eq (hschedule ▸ hreads) fuel hcur] at hsearch
    cases hloop : loop S.pass fuel (localSecond off (t'.toTimes.searchSecond cur + 1)) with
    | error fault => rw [hloop] at hsearch; cases hsearch
    | ok r =>
      rw [hloop] at hsearch
      cases r with
      | ok x =>
        dsimp only at hsearch
        split_ifs at hsearch
        cases hsearch
      | error e =>
        obtain hstar | ⟨x, hlt, hx⟩ := hdate S tm ms' hreads (hscan ▸ htm)
        · obtain ⟨y, hy⟩ := exists_fail_of_loop hloop
          exact S.pass_ne_fail hstar y e hy
        · refine (pass_seeks S).none_of_error hloop x ?_ hx
          rw [mktime_flag, hmk, ← hflag] at hlt
          unfold localSecond at hlt ⊢
          unfold Times.searchSecond
          omega

/-! ### New objects -/

/-- The schedule of a calendar timer has its seven fields. -/
def Readable (t : PeriodicTimes) : Prop :=
  t.ttTimesType = .schTypeCalendar → ∃ S : Schedule, S.Reads t.pCalendarSchedule

/-- The errors of a part of the checks. -/
def ChecksSchedule {α : Type} (x : Except SchedulerError α) : Prop :=
  ∀ e, x = .error e → e.AboutSchedule

theorem ChecksSchedule.bind {α β : Type} {x : Except SchedulerError α}
    {f : α → Except SchedulerError β} (hx : ChecksSchedule x) (hf : ∀ a, ChecksSchedule (f a)) :
    ChecksSchedule (x >>= f) := by
  cases x with
  | error e => exact fun e' h => by cases h; exact hx e rfl
  | ok a => exact hf a

theorem checksSchedule_ensure {b : Bool} {e : SchedulerError} (he : e.AboutSchedule) :
    ChecksSchedule (ensure b e) := by
  intro e' h
  cases b with
  | false => cases h; exact he
  | true => cases h

theorem checksSchedule_nextToken (tokens : List (List Char)) :
    ChecksSchedule (nextToken tokens) := by
  intro e h
  cases tokens with
  | nil => cases h; trivial
  | cons token tokens => cases h

theorem checksSchedule_checkField (min max : Int) (name : String) (f : Field) :
    ChecksSchedule (checkField min max name f) := by
  cases f with
  | list values =>
    show ChecksSchedule (checkList min max name values)
    induction values with
    | nil => exact fun e h => by cases h
    | cons v values ih =>
      apply ChecksSchedule.bind
      · exact checksSchedule_ensure trivial
      · exact fun _ => ih
  | range a b =>
    apply ChecksSchedule.bind
    · exact checksSchedule_ensure trivial
    · exact fun _ => checksSchedule_ensure trivial
  | value v => exact checksSchedule_ensure trivial
  | star => exact fun e h => by cases h

theorem checksSchedule_checkLoop (pYear : List Char) (month : Int) (f : Field) :
    ChecksSchedule (checkLoop pYear month f) := by
  cases f with
  | list values => exact checksSchedule_ensure trivial
  | range a b => exact checksSchedule_ensure trivial
  | value v => exact checksSchedule_ensure trivial
  | star => exact fun e h => by cases h

theorem checksSchedule_checkRangeValues (schedule : List Char) :
    ChecksSchedule (checkRangeValues schedule) := by
  apply (checksSchedule_nextToken _).bind
  rintro ⟨year, tokens⟩
  apply (checksSchedule_nextToken _).bind
  rintro ⟨month, tokens⟩
  apply (checksSchedule_checkField _ _ _ _).bind
  intro _
  apply (checksSchedule_nextToken _).bind
  rintro ⟨monthday, tokens⟩
  apply (checksSchedule_checkField _ _ _ _).bind
  intro _
  apply (checksSchedule_checkLoop _ _ _).bind
  intro _
  apply (checksSchedule_nextToken _).bind
  rintro ⟨weekday, tokens⟩
  apply (checksSchedule_checkField _ _ _ _).bind
  intro _
  apply (checksSchedule_nextToken _).bind
  rintro ⟨hour, tokens⟩
  apply (checksSchedule_checkField _ _ _ _).bind
  intro _
  apply (checksSchedule_nextToken _).bind
  rintro ⟨minute, tokens⟩
  apply (checksSchedule_checkField _ _ _ _).bind
  intro _
  apply (checksSchedule_nextToken _).bind
  rintro ⟨second, tokens⟩
  exact checksSchedule_checkField _ _ _ _

theorem checksSchedule_checkSchedule (schedule : List Char) :
    ChecksSchedule (checkSchedule schedule) := by
  apply ChecksSchedule.bind
  · exact checksSchedule_ensure trivial
  · intro _
    apply ChecksSchedule.bind
    · exact checksSchedule_ensure trivial
    · intro _
      apply ChecksSchedule.bind
      · exact checksSchedule_ensure trivial
      · exact fun _ => checksSchedule_checkRangeValues schedule

/-- `init` refuses a schedule that does not pass the checks, and no other. -/
theorem Times.refusesSchedule_init {mutexInit : Bool} {schedule : List Char}
    {pClassName : Option (List Char)} {t : Times} (ht : t.schTimesStatus = .schTimesBuilded) :
    RefusesSchedule (t.init mutexInit (some schedule) pClassName).1 ↔
      ∃ e, checkSchedule schedule = .error e := by
  unfold Times.init
  rw [if_neg (not_not.mpr ht)]
  dsimp only
  cases hcheck : checkSchedule schedule with
  | error e =>
    exact ⟨fun _ => ⟨e, rfl⟩, fun _ => ⟨e, rfl, checksSchedule_checkSchedule schedule e hcheck⟩⟩
  | ok _ =>
    refine ⟨?_, fun ⟨e, he⟩ => by cases he⟩
    rintro ⟨e, he, habout⟩
    dsimp only at he
    split_ifs at he
    · cases he
      exact absurd habout id
    · cases he
      exact absurd habout id

namespace Timer

variable {mutexInit : Bool} {name : List Char} {storage : PeriodicTimes} {storage2 t2 : Times2}
  {timer : Timer}

/-- The part of `init` that a calendar timer has of a `Times` object. -/
theorem init_calendar (mutexInit : Bool) (name : List Char) (storage : PeriodicTimes)
    (schedule : List Char) : (calendar schedule).init mutexInit name storage =
      let r := { storage.toTimes with schTimesStatus := .schTimesBuilded }.init mutexInit
        (some schedule) (some name)
      (r.1, { storage with toTimes := r.2 }) := rfl

/-- **The constructor throws exactly when `init` refuses the schedule.** -/
theorem construct_throws_iff (mutexInit : Bool) (name : List Char) (storage : PeriodicTimes)
    (storage2 : Times2) (timer : Timer) :
    (∃ e, timer.construct name storage2 = .error e) ↔
      RefusesSchedule (timer.init mutexInit name storage).1 := by
  cases timer with
  | periodic period =>
    constructor
    · rintro ⟨e, he⟩
      cases he
    · rintro ⟨e, he, habout⟩
      unfold init PeriodicTimes.init at he
      dsimp only at he
      rw [if_neg (not_not.mpr rfl)] at he
      split_ifs at he
      · cases he
        exact absurd habout id
      · cases he
        exact absurd habout id
  | calendar schedule =>
    rw [init_calendar, Times.refusesSchedule_init rfl]
    show (∃ e, storage2.ofSchedule schedule name = .error e) ↔ _
    unfold Times2.ofSchedule
    rw [Times2.checkSchedule_eq]
    cases checkSchedule schedule with
    | error e => exact ⟨fun _ => ⟨e, rfl⟩, fun _ => ⟨_, rfl⟩⟩
    | ok _ => exact ⟨fun ⟨e, he⟩ => (by cases he), fun ⟨e, he⟩ => (by cases he)⟩

/-- New objects stand for one another. -/
theorem standsFor (h : timer.init mutexInit name storage = (.ok (), t))
    (h2 : timer.construct name storage2 = .ok t2) : t2.StandsFor t ∧ Readable t := by
  cases timer with
  | periodic period =>
    cases h2
    unfold init PeriodicTimes.init at h
    dsimp only at h
    rw [if_neg (not_not.mpr rfl)] at h
    split_ifs at h
    · cases h
    · cases h
      exact ⟨⟨rfl, rfl, fun _ => rfl, fun h => (by cases h), rfl, rfl, fun h => (by cases h)⟩,
        fun h => by cases h⟩
    · cases h
  | calendar schedule =>
    rw [init_calendar] at h
    generalize hinit : Times.init mutexInit (some schedule) (some name) _ = x at h
    obtain ⟨r, times⟩ := x
    cases h
    obtain ⟨⟨-, hcheck, -⟩, rfl⟩ := Times.init_eq_ok.mp hinit
    unfold construct Times2.ofSchedule at h2
    dsimp only at h2
    rw [Times2.checkSchedule_eq, hcheck] at h2
    cases h2
    obtain ⟨S, hreads, -⟩ := checked_of_checkSchedule hcheck
    exact ⟨⟨rfl, rfl, fun h => (by cases h), fun _ => rfl, rfl, rfl, fun h => (by cases h)⟩,
      fun _ => ⟨S, hreads⟩⟩

end Timer

namespace BothTimes

variable {s s' : BothTimes} {c : TimedCall}

/-- What holds between the calls. -/
structure Alike (s : BothTimes) : Prop where
  standsFor : s.times2.StandsFor s.times
  readable : Readable s.times

/-- A step is a call to each object. -/
theorem step_eq_some {libc : Libc} (h : s.step libc fuel c = some s') :
    s.times.after libc fuel c = .ok s'.times ∧ s.times2.after libc fuel c = .ok s'.times2 := by
  obtain ⟨times, htimes, h⟩ := Option.bind_eq_some_iff.mp h
  obtain ⟨times2, htimes2, h⟩ := Option.bind_eq_some_iff.mp h
  cases h
  exact ⟨toOption_eq_some.mp htimes, toOption_eq_some.mp htimes2⟩

/-- Objects that are alike are started with a date ahead. -/
theorem Alike.starts (h : s.Alike) (hdate : s.HasDate off c) {p : Option (List Char)}
    (hc : c.call = .start p) (fuel : Nat)
    (hinit : s.times.schTimesStatus = .schTimesInitialized)
    (htype : s.times.ttTimesType = .schTypeCalendar) :
    Times2.Starts (fixedOffset off) fuel (some c.now) p s.times := by
  obtain ⟨S, hreads⟩ := h.readable htype
  exact starts_of_dateAfter hreads (hdate p hc hinit htype)

/-- **Objects that are alike give the same answers.** -/
theorem Alike.agrees (h : s.Alike) (fuel : Nat) (hdate : s.HasDate off c) :
    s.Agrees (fixedOffset off) fuel c := by
  unfold Agrees
  cases hc : c.call with
  | start p =>
    exact (Times2.start_agree h.standsFor p (h.starts hdate hc fuel)).mono fun _ _ h => h.1
  | isExpiredTime =>
    intro hstarted
    have hclock : getTmLocalTime (fixedOffset off) (some c.now)
        = some (localTm (localSecond off c.now.1), c.now.2) := rfl
    apply Times2.isExpiredTime_agree h.standsFor _ hclock
    rcases hstarted with hstarted | hstarted
    · exact hstarted
    · rw [h.standsFor.schTimesStatus, hstarted]
      rfl
  | updateNextExpirationDateTime =>
    exact (Times2.updateNextExpirationDateTime_agree _ fuel h.standsFor).mono fun _ _ h => h.1
  | stop => exact (Times2.stop_agree h.standsFor).1

theorem Alike.of_keeps {t' : PeriodicTimes} {t2' : Times2} (h : s.Alike)
    (hkeeps : Times2.Keeps s.times t' t2') : Alike ⟨t', t2'⟩ := by
  refine ⟨hkeeps.standsFor, fun htype => ?_⟩
  obtain ⟨S, hreads⟩ := h.readable (hkeeps.ttTimesType ▸ htype)
  exact ⟨S, hkeeps.pCalendarSchedule.symm ▸ hreads⟩

/-- **They stay alike.** -/
theorem Alike.step (h : s.Alike) (hdate : s.HasDate off c)
    (hstep : s.step (fixedOffset off) fuel c = some s') : s'.Alike := by
  obtain ⟨htimes, htimes2⟩ := step_eq_some hstep
  obtain ⟨t', t2'⟩ := s'
  unfold PeriodicTimes.after at htimes
  unfold Times2.after at htimes2
  cases hc : c.call with
  | start p =>
    rw [hc] at htimes htimes2
    obtain ⟨x, hx, hx'⟩ := bind_eq_ok.mp htimes
    obtain ⟨y, hy, hy'⟩ := bind_eq_ok.mp htimes2
    cases hx'
    cases hy'
    exact h.of_keeps ((Times2.start_agree h.standsFor p (h.starts hdate hc fuel)).of_eq_ok hx hy).2
  | isExpiredTime =>
    rw [hc] at htimes htimes2
    obtain ⟨x, -, hx'⟩ := bind_eq_ok.mp htimes
    obtain ⟨y, -, hy'⟩ := bind_eq_ok.mp htimes2
    cases hx'
    cases hy'
    exact h
  | updateNextExpirationDateTime =>
    rw [hc] at htimes htimes2
    obtain ⟨x, hx, hx'⟩ := bind_eq_ok.mp htimes
    obtain ⟨y, hy, hy'⟩ := bind_eq_ok.mp htimes2
    cases hx'
    cases hy'
    exact h.of_keeps
      ((Times2.updateNextExpirationDateTime_agree _ fuel h.standsFor).of_eq_ok hx hy).2
  | stop =>
    rw [hc] at htimes htimes2
    cases htimes
    cases htimes2
    exact h.of_keeps (Times2.stop_agree h.standsFor).2

end BothTimes

/-- `Times2` behaves as `Times` for a timer: the constructor throws exactly when `init` refuses the
schedule, and in every run of the two objects, whose steps meet `Meets`, the next expirations are
equal and the next call gives the same answers. -/
def Timer.BehavesAlike (Meets : BothTimes → TimedCall → Prop) (off : Int) (fuel : Nat)
    (mutexInit : Bool) (name : List Char) (storage : PeriodicTimes) (storage2 : Times2)
    (timer : Timer) : Prop :=
  ((∃ e, timer.construct name storage2 = .error e) ↔
      RefusesSchedule (timer.init mutexInit name storage).1) ∧
    ∀ t t2, timer.init mutexInit name storage = (.ok (), t) →
      timer.construct name storage2 = .ok t2 →
      ∀ calls s, run (BothTimes.step (fixedOffset off) fuel) ⟨t, t2⟩ calls = some s →
        Always (BothTimes.step (fixedOffset off) fuel) (fun s c _ => Meets s c) ⟨t, t2⟩ calls →
        s.times.pNextExpirationDateTime = s.times2.pNextExpirationDateTime ∧
          ∀ c, Meets s c → s.Agrees (fixedOffset off) fuel c

/-- **`Times2` behaves as the `Times` it replaces** where a calendar timer is started only with a
date ahead. -/
theorem Timer.behavesAlike (off : Int) (fuel : Nat) (mutexInit : Bool) (name : List Char)
    (storage : PeriodicTimes) (storage2 : Times2) (timer : Timer) :
    timer.BehavesAlike (BothTimes.HasDate off) off fuel mutexInit name storage storage2 := by
  refine ⟨construct_throws_iff mutexInit name storage storage2 timer, ?_⟩
  intro t t2 hinit hconstruct calls s hrun hmeets
  obtain ⟨hstands, hreadable⟩ := Timer.standsFor hinit hconstruct
  have halike : s.Alike :=
    invariant (fun _ _ _ h hdate hstep => h.step hdate hstep) ⟨hstands, hreadable⟩ hmeets hrun
  exact ⟨halike.standsFor.next, fun c hdate => halike.agrees fuel hdate⟩

/-- What the storage of new objects may hold. -/
def emptyStorage : PeriodicTimes where
  schTimesStatus := .schTimesBuilded
  ttTimesType := .schTypePeriodic
  pClassName := []
  pCalendarSchedule := []
  bNextDaylightSavingTime := false
  pNextExpirationDateTime := []
  bCurrentDaylightSavingTime := false
  pCurrentExpirationDateTime := []
  ulPeriodInMilliSeconds := 0

def emptyStorage2 : Times2 where
  schTimesStatus := .schTimesInitialized
  ttTimesType := .schTypePeriodic
  className := []
  ulPeriodInMilliSeconds := 0
  pCalendarSchedule := []
  bNextDaylightSavingTime := false
  pNextExpirationDateTime := []
  bCurrentDaylightSavingTime := false
  pCurrentExpirationDateTime := []

/-- A timer for every midnight. -/
def midnight : Timer := .calendar "* * * * 0 0 0".toList

/-- A timer for the first day of 2000. -/
def millennium : Timer := .calendar "2000 1 1 * 0 0 0".toList

/-- A start in the middle of january 2024. -/
def startInJanuary : TimedCall where
  now := (1705316400, 0)
  locals := (localTm 0, 0)
  call := .start (some "2024-01-15 12:00:00:0000".toList)

def midnightTimes : PeriodicTimes :=
  { emptyStorage with
    schTimesStatus := .schTimesInitialized
    ttTimesType := .schTypeCalendar
    pCalendarSchedule := "* * * * 0 0 0".toList }

def midnightTimes2 : Times2 :=
  { emptyStorage2 with
    ttTimesType := .schTypeCalendar
    pCalendarSchedule := "* * * * 0 0 0".toList }

/-- The two timers, started: both wait for the next midnight. -/
def midnightStarted : BothTimes where
  times :=
    { midnightTimes with
      schTimesStatus := .schTimesStarted
      bCurrentDaylightSavingTime := true
      pCurrentExpirationDateTime := "2024-01-15 12:00:00:0000".toList
      pNextExpirationDateTime := "2024-01-16 00:00:00:0000".toList }
  times2 :=
    { midnightTimes2 with
      schTimesStatus := .schTimesStarted
      bCurrentDaylightSavingTime := true
      pCurrentExpirationDateTime := "2024-01-15 12:00:00:0000".toList
      pNextExpirationDateTime := "2024-01-16 00:00:00:0000".toList }

/-- Any year is a year of the timer for every midnight. -/
theorem midnight_dateAfter (b : Bool) (text : List Char) :
    BothTimes.DateAfter 0 b midnightTimes.pCalendarSchedule text := by
  intro S tm ms hreads _
  have hstar : (⟨.star, .star, .star, .star, .value 0, .value 0, .value 0⟩ : Schedule).Reads
      midnightTimes.pCalendarSchedule :=
    ⟨['*'], ['*'], ['*'], ['*'], ['0'], ['0'], ['0'], [], by decide +kernel, by decide +kernel⟩
  left
  rw [hreads.unique hstar]

/-- After the start a timer for every midnight gives the same answers, until it is started
again. -/
theorem behavesAlike_midnight :
    midnightStarted.Agrees (fixedOffset 0) 50
      ⟨(1705363200, 0), (localTm 0, 0), .updateNextExpirationDateTime⟩ :=
  ((Timer.behavesAlike 0 50 true [] emptyStorage emptyStorage2 midnight).2 midnightTimes
    midnightTimes2 (by decide +kernel) (by decide +kernel) [startInJanuary] midnightStarted
    (by decide +kernel)
    (fun _ _ => ⟨fun p _ _ _ => midnight_dateAfter _ (BothTimes.startText 0 startInJanuary.now p),
      trivial⟩)).2 _
    (fun _ hc => by cases hc)

/-- A timer whose last date is past is started by `Times2` alone. -/
theorem not_behavesAlike_millennium :
    ¬∀ (off : Int) (fuel : Nat) (mutexInit : Bool) (name : List Char) (storage : PeriodicTimes)
      (storage2 : Times2) (timer : Timer),
      timer.BehavesAlike (fun _ _ => True) off fuel mutexInit name storage storage2 := by
  intro hall
  have hagrees := ((hall 0 1 true [] emptyStorage emptyStorage2 millennium).2
    { midnightTimes with pCalendarSchedule := "2000 1 1 * 0 0 0".toList }
    { midnightTimes2 with pCalendarSchedule := "2000 1 1 * 0 0 0".toList }
    (by decide +kernel) (by decide +kernel) [] _ rfl trivial).2 startInJanuary trivial
  have hstart : ({ midnightTimes with pCalendarSchedule := "2000 1 1 * 0 0 0".toList }
      : PeriodicTimes).start (fixedOffset 0) 1 (some startInJanuary.now)
        (some "2024-01-15 12:00:00:0000".toList)
      = .ok (.error .schReachedLastTimeout,
        { midnightTimes with
          pCalendarSchedule := "2000 1 1 * 0 0 0".toList
          bCurrentDaylightSavingTime := true
          pCurrentExpirationDateTime := "2024-01-15 12:00:00:0000".toList }) := by
    decide +kernel
  have hstart2 : ({ midnightTimes2 with pCalendarSchedule := "2000 1 1 * 0 0 0".toList }
      : Times2).start (fixedOffset 0) 1 (some startInJanuary.now)
        (some "2024-01-15 12:00:00:0000".toList)
      = .ok (.ok (),
        { midnightTimes2 with
          schTimesStatus := .schTimesStarted
          pCalendarSchedule := "2000 1 1 * 0 0 0".toList
          bCurrentDaylightSavingTime := true
          pCurrentExpirationDateTime := "2024-01-15 12:00:00:0000".toList }) := by
    decide +kernel
  have hiff := Agree.of_eq_ok hagrees hstart hstart2
  cases hiff.mpr rfl

end CatraLibraries
