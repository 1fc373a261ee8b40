/-
# Calendar schedules as documented

The comment of `Times::init` in `Scheduler/src/Times.h` gives the schedules: seven fields,
each of them a `*`, a value, two values with a dash or values with commas, where the days of
`monthday` and of `weekday` add up when both are given.  `CalendarSchedule` is that
description, with its own meaning for every field; `Writes` says which texts write a
schedule down.

The code reads from such a text the fields that the description means (`readField_writes`), so
that its search looks for the seconds which the schedule matches.
-/
import CatraLibraries.Scheduler.Search

namespace CatraLibraries

open Memory Stdio JumpSearch Calendar

/-! ### The documented schedules -/

/-- A field of a schedule. -/
inductive FieldSpec
  | any
  | one (v : Nat)
  | between (a b : Nat)
  | among (values : List Nat)
  deriving DecidableEq, Repr

namespace FieldSpec

/-- The values that a field takes. -/
def Has : FieldSpec → Int → Prop
  | any, _ => True
  | one v, x => x = v
  | between a b, x => a ≤ x ∧ x ≤ b
  | among values, x => ∃ v ∈ values, x = v

/-- The values written in a field lie in the interval of the field. -/
def InRange (min max : Nat) : FieldSpec → Prop
  | any => True
  | one v => min ≤ v ∧ v ≤ max
  | between a b => (min ≤ a ∧ a ≤ max) ∧ min ≤ b ∧ b ≤ max
  | among values => 2 ≤ values.length ∧ ∀ v ∈ values, min ≤ v ∧ v ≤ max

/-- A numeral that writes a number. -/
def WritesNumber (s : List Char) (v : Nat) : Prop := IsNumeral s ∧ decimal s = v

/-- Numerals with commas between them. -/
def WritesList : List Char → List Nat → Prop
  | _, [] => False
  | s, [v] => WritesNumber s v
  | s, v :: values => ∃ s₁ s₂, s = s₁ ++ ',' :: s₂ ∧ WritesNumber s₁ v ∧ WritesList s₂ values

/-- The texts of a field. -/
def Writes (s : List Char) : FieldSpec → Prop
  | any => s = ['*']
  | one v => WritesNumber s v
  | between a b => ∃ s₁ s₂, s = s₁ ++ '-' :: s₂ ∧ WritesNumber s₁ a ∧ WritesNumber s₂ b
  | among values => WritesList s values

end FieldSpec

/-- The schedules of the documentation; the year fits into a `long`. -/
structure CalendarSchedule where
  year : FieldSpec
  month : FieldSpec
  monthday : FieldSpec
  weekday : FieldSpec
  hour : FieldSpec
  minute : FieldSpec
  second : FieldSpec
  year_inRange : year.InRange 0 (2 ^ 63 - 1)
  month_inRange : month.InRange 1 12
  monthday_inRange : monthday.InRange 1 31
  weekday_inRange : weekday.InRange 0 6
  hour_inRange : hour.InRange 0 23
  minute_inRange : minute.InRange 0 59
  second_inRange : second.InRange 0 59

namespace CalendarSchedule

/-- "Se entrambi sono specificati essi sono cumulativi." -/
def MatchesDay (S : CalendarSchedule) (x : Int) : Prop :=
  if S.monthday = .any then S.weekday.Has (Calendar.weekday x)
  else if S.weekday = .any then S.monthday.Has (Calendar.monthday x)
  else S.monthday.Has (Calendar.monthday x) ∨ S.weekday.Has (Calendar.weekday x)

/-- The seconds of the local time that match a schedule. -/
def Matches (S : CalendarSchedule) (x : Int) : Prop :=
  S.year.Has (Calendar.year x) ∧ S.month.Has (Calendar.month x) ∧ S.MatchesDay x ∧
    S.hour.Has (Calendar.hour x) ∧ S.minute.Has (Calendar.minute x) ∧
    S.second.Has (Calendar.second x)

/-- The text `year month monthday weekday hour minute second`. -/
def Writes (S : CalendarSchedule) (text : List Char) : Prop :=
  ∃ y mo md wd h mi s, text = [' '].intercalate [y, mo, md, wd, h, mi, s] ∧
    S.year.Writes y ∧ S.month.Writes mo ∧ S.monthday.Writes md ∧ S.weekday.Writes wd ∧
    S.hour.Writes h ∧ S.minute.Writes mi ∧ S.second.Writes s

end CalendarSchedule

/-! ### What the code reads -/

namespace FieldSpec

theorem not_mem_numeral {s : List Char} {c : Char} (h : IsNumeral s) (hc : c.isDigit = false) :
    c ∉ s :=
  fun hmem => isDigit_ne (h.2 c hmem) hc rfl

theorem listNumbers_digits (number s₁ s₂ : List Char) (h : ',' ∉ s₁) :
    listNumbers number (s₁ ++ s₂) = listNumbers (s₁.reverse ++ number) s₂ := by
  induction s₁ generalizing number with
  | nil => rfl
  | cons c s₁ ih =>
    have hc : c ≠ ',' := fun heq => h (by simp [heq])
    have hs : ',' ∉ s₁ := fun hmem => h (List.mem_cons_of_mem c hmem)
    rw [List.cons_append, listNumbers, if_pos hc, ih _ hs]
    simp

/-- The loop over the commas reads the numerals of a list. -/
theorem listNumbers_writes {s : List Char} {values : List Nat} (h : WritesList s values)
    (hfits : ∀ v ∈ values, (v : Int) ≤ longMax) :
    s ≠ [] ∧ (listNumbers [] s).map atol = values.map (↑) := by
  induction values generalizing s with
  | nil => exact h.elim
  | cons v values ih =>
    have hv : (v : Int) ≤ longMax := hfits v (by simp)
    cases values with
    | nil =>
      obtain ⟨hnum, rfl⟩ := h
      have hread := listNumbers_digits [] s [] (not_mem_numeral hnum rfl)
      rw [List.append_nil] at hread
      refine ⟨hnum.1, ?_⟩
      simp [hread, listNumbers, atol_numeral hnum hv]
    | cons w values =>
      obtain ⟨s₁, s₂, rfl, ⟨hnum, rfl⟩, hrest⟩ := h
      obtain ⟨hne, hmap⟩ := ih hrest fun u hu => hfits u (List.mem_cons_of_mem _ hu)
      refine ⟨by simp, ?_⟩
      rw [listNumbers_digits [] s₁ _ (not_mem_numeral hnum rfl), listNumbers, if_neg (by simp),
        if_neg hne]
      simp [hmap, atol_numeral hnum hv]

theorem readField_numeral {s : List Char} (h : IsNumeral s) : readField s = .value (atol s) := by
  obtain ⟨c, s', rfl⟩ := List.exists_cons_of_ne_nil h.1
  have hc : c ≠ '*' := isDigit_ne (h.2 c (by simp)) rfl
  unfold readField
  rw [if_neg (not_mem_numeral h rfl), if_neg (not_mem_numeral h rfl), if_neg (by simpa using hc)]

theorem readField_between {s₁ s₂ : List Char} (h₁ : IsNumeral s₁) (h₂ : IsNumeral s₂) :
    readField (s₁ ++ '-' :: s₂) = .range (atol s₁) (atol s₂) := by
  have hcomma : ',' ∉ s₁ ++ '-' :: s₂ := by
    simp [not_mem_numeral h₁, not_mem_numeral h₂]
  obtain ⟨hfrom, hto⟩ := cut_at_dash s₂ (not_mem_numeral h₁ rfl)
  rw [readField, if_neg hcomma, if_pos (by simp), hfrom, hto]

theorem numeral_chars {s : List Char} (h : IsNumeral s) :
    s ≠ [] ∧ ∀ c ∈ s, isScheduleChar c ∧ c ≠ ' ' :=
  ⟨h.1, fun c hc => ⟨by simp [isScheduleChar, h.2 c hc], isDigit_ne (h.2 c hc) rfl⟩⟩

theorem WritesList.chars {s : List Char} {values : List Nat} (h : WritesList s values) :
    s ≠ [] ∧ ∀ c ∈ s, isScheduleChar c ∧ c ≠ ' ' := by
  induction values generalizing s with
  | nil => exact h.elim
  | cons v values ih =>
    cases values with
    | nil => exact numeral_chars h.1
    | cons w values =>
      obtain ⟨s₁, s₂, rfl, ⟨hnum, -⟩, hrest⟩ := h
      refine ⟨by simp, fun c hc => ?_⟩
      rcases List.mem_append.mp hc with hc | hc
      · exact (numeral_chars hnum).2 c hc
      · rcases List.mem_cons.mp hc with rfl | hc
        · decide
        · exact (ih hrest).2 c hc

theorem WritesList.comma_mem {s : List Char} {values : List Nat} (h : WritesList s values)
    (hlen : 2 ≤ values.length) : ',' ∈ s := by
  match values, h, hlen with
  | _ :: _ :: _, h, _ =>
    obtain ⟨s₁, s₂, rfl, -, -⟩ := h
    simp

/-- The field as the code represents it. -/
def toField : FieldSpec → Field
  | any => .star
  | one v => .value v
  | between a b => .range a b
  | among values => .list (values.map (↑))

@[simp] theorem toField_holds (f : FieldSpec) (x : Int) : f.toField.holds x ↔ f.Has x := by
  cases f with
  | any => simp [toField, Field.holds, Has]
  | one v => simp [toField, Field.holds, Has, eq_comm]
  | between a b => simp [toField, Field.holds, Has]
  | among values =>
    simp only [toField, Field.holds, Has, List.any_map, List.any_eq_true, Function.comp_apply,
      decide_eq_true_eq]
    exact exists_congr fun v => and_congr_right fun _ => eq_comm

@[simp] theorem toField_eq_star {f : FieldSpec} : f.toField = .star ↔ f = .any := by
  cases f <;> simp [toField]

/-- **What the code reads from the text of a field is the field.** -/
theorem readField_writes {f : FieldSpec} {s : List Char} {min max : Nat} (hw : f.Writes s)
    (hr : f.InRange min max) (hmax : (max : Int) ≤ longMax) : readField s = f.toField := by
  have hfits : ∀ v : Nat, v ≤ max → (v : Int) ≤ longMax := fun v hv => by omega
  cases f with
  | any =>
    obtain rfl : s = ['*'] := hw
    rfl
  | one v =>
    obtain ⟨hnum, rfl⟩ := hw
    rw [readField_numeral hnum, atol_numeral hnum (hfits _ hr.2), toField]
  | between a b =>
    obtain ⟨s₁, s₂, rfl, ⟨hnum₁, rfl⟩, hnum₂, rfl⟩ := hw
    rw [readField_between hnum₁ hnum₂, atol_numeral hnum₁ (hfits _ hr.1.2),
      atol_numeral hnum₂ (hfits _ hr.2.2), toField]
  | among values =>
    obtain ⟨hne, hmap⟩ := listNumbers_writes hw fun v hv => hfits v (hr.2 v hv).2
    rw [readField, if_pos (hw.comma_mem hr.1), hmap, toField]

/-- The text of a field is not empty, and its characters are those of a schedule. -/
theorem Writes.chars {f : FieldSpec} {s : List Char} (h : f.Writes s) :
    s ≠ [] ∧ ∀ c ∈ s, isScheduleChar c ∧ c ≠ ' ' := by
  cases f with
  | any =>
    obtain rfl : s = ['*'] := h
    exact ⟨by simp, List.forall_mem_singleton.mpr (by decide)⟩
  | one v => exact numeral_chars h.1
  | between a b =>
    obtain ⟨s₁, s₂, rfl, ⟨hnum₁, -⟩, hnum₂, -⟩ := h
    refine ⟨by simp, fun c hc => ?_⟩
    rcases List.mem_append.mp hc with hc | hc
    · exact (numeral_chars hnum₁).2 c hc
    · rcases List.mem_cons.mp hc with rfl | hc
      · decide
      · exact (numeral_chars hnum₂).2 c hc
  | among values => exact WritesList.chars h

theorem Writes.blank_not_mem {f : FieldSpec} {s : List Char} (h : f.Writes s) : ' ' ∉ s :=
  fun hmem => (h.chars.2 ' ' hmem).2 rfl

end FieldSpec

/-- **What the code reads from the text of a schedule is the schedule.** -/
theorem CalendarSchedule.Writes.reads {S : CalendarSchedule} {text : List Char}
    (h : S.Writes text) : ∃ S' : Schedule, S'.Reads text ∧ ∀ x, S'.Matches x ↔ S.Matches x := by
  obtain ⟨y, mo, md, wd, hr, mi, s, rfl, hy, hmo, hmd, hwd, hhr, hmi, hs⟩ := h
  refine ⟨⟨S.year.toField, S.month.toField, S.monthday.toField, S.weekday.toField, S.hour.toField,
    S.minute.toField, S.second.toField⟩, ⟨y, mo, md, wd, hr, mi, s, [], ?_, ?_⟩, fun x => ?_⟩
  · rw [strtok, List.splitOn_intercalate]
    · simp [hy.chars.1, hmo.chars.1, hmd.chars.1, hwd.chars.1, hhr.chars.1, hmi.chars.1,
        hs.chars.1]
    · simp [hy.blank_not_mem, hmo.blank_not_mem, hmd.blank_not_mem, hwd.blank_not_mem,
        hhr.blank_not_mem, hmi.blank_not_mem, hs.blank_not_mem]
    · simp
  · rw [FieldSpec.readField_writes hy S.year_inRange (by decide),
      FieldSpec.readField_writes hmo S.month_inRange (by decide),
      FieldSpec.readField_writes hmd S.monthday_inRange (by decide),
      FieldSpec.readField_writes hwd S.weekday_inRange (by decide),
      FieldSpec.readField_writes hhr S.hour_inRange (by decide),
      FieldSpec.readField_writes hmi S.minute_inRange (by decide),
      FieldSpec.readField_writes hs S.second_inRange (by decide)]
  · simp only [Schedule.Matches, Schedule.MatchesDay, CalendarSchedule.Matches,
      CalendarSchedule.MatchesDay, FieldSpec.toField_holds, FieldSpec.toField_eq_star]

/-! ### The example of the documentation -/

namespace Times

/-- The first and the fifteenth of every month and every
monday, at midnight. -/
def daysSchedule : CalendarSchedule where
  year := .any
  month := .any
  monthday := .among [1, 15]
  weekday := .one 1
  hour := .one 0
  minute := .one 0
  second := .one 0
  year_inRange := trivial
  month_inRange := trivial
  monthday_inRange := ⟨by decide, by decide⟩
  weekday_inRange := ⟨by decide, by decide⟩
  hour_inRange := ⟨by decide, by decide⟩
  minute_inRange := ⟨by decide, by decide⟩
  second_inRange := ⟨by decide, by decide⟩

/-- A timer with this schedule on the first of January 2024, a monday. -/
def daysTimes : Times where
  schTimesStatus := .schTimesStarted
  ttTimesType := .schTypeCalendar
  pClassName := []
  pCalendarSchedule := "* * 1,15 1 0 0 0".toList
  bNextDaylightSavingTime := false
  pNextExpirationDateTime := []
  bCurrentDaylightSavingTime := false
  pCurrentExpirationDateTime := "2024-01-01 23:59:59:0000".toList

theorem daysSchedule_writes : daysSchedule.Writes daysTimes.pCalendarSchedule := by
  have hone : ∀ v, v < 10 → FieldSpec.WritesNumber [Nat.digitChar v] v := fun v hv => by
    refine ⟨⟨by simp, List.forall_mem_singleton.mpr ?_⟩, ?_⟩
    · interval_cases v <;> decide
    · interval_cases v <;> decide
  refine ⟨['*'], ['*'], ['1', ',', '1', '5'], ['1'], ['0'], ['0'], ['0'], by decide, rfl, rfl, ?_,
    hone 1 (by decide), hone 0 (by decide), hone 0 (by decide), hone 0 (by decide)⟩
  exact ⟨['1'], ['1', '5'], rfl, hone 1 (by decide), ⟨by simp, by simp⟩, by decide⟩

end Times

end CatraLibraries
