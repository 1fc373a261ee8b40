/-
# Parsing a date with milliseconds

`DateTime::sDateMilliSecondsToUtc` takes a date, a time with milliseconds and either `Z` or an offset
from UTC, as in `2021-02-26T15:41:15.477Z` and `2021-02-26T15:41:15.477+0100`.  It tells the two forms
apart by their length and reads them with `sscanf`, where the character before the offset is put into
the format.

It is right for the two forms.  But a conversion of `sscanf` also takes blanks, signs and fewer digits,
the `Z` is not looked at, and any sign but `+` counts as a minus: what else is accepted is `Loose`, and
`right_iff` says that the method is right for exactly the other texts.

A text is the list of its characters, one byte each; it may hold NULs, and `sscanf` reads up to the
first.
-/
import CatraLibraries.Lib.Calendar
import CatraLibraries.Lib.Sscanf

namespace CatraLibraries

namespace DateTime

open Stdio

/-! ### The method -/

/-- A number stored in an `int`. -/
def toInt (x : ℤ) : ℤ := x.bmod (2 ^ 32)

/-- A number stored in an `int64_t`. -/
def toInt64 (x : ℤ) : ℤ := x.bmod (2 ^ 64)

/-- `timegm`, which brings the month into the year and counts on with the other fields. -/
def timegm (tm_year tm_mon tm_mday tm_hour tm_min tm_sec : ℤ) : ℤ :=
  Calendar.instant (tm_year + 1900 + tm_mon / 12) (tm_mon % 12 + 1) tm_mday tm_hour tm_min tm_sec
    - Calendar.instant 1970 1 1 0 0 0

/-- The numbers of the date and the time. -/
structure Fields where
  ulUTCYear : ℕ
  ulUTCMonth : ℕ
  ulUTCDay : ℕ
  ulUTCHour : ℕ
  ulUTCMinutes : ℕ
  ulUTCSeconds : ℕ
  ulUTCMilliSeconds : ℕ
  deriving DecidableEq, Repr

/-- The first seven numbers that `sscanf` has read. -/
def Fields.ofValues (values : List ℕ) : Fields :=
  ⟨values.getD 0 0, values.getD 1 0, values.getD 2 0, values.getD 3 0, values.getD 4 0,
    values.getD 5 0, values.getD 6 0⟩

/-- What the method computes from the numbers. -/
def utcTime (fields : Fields) (signTimeZone : Char) (ulHourTimeZone ulMinuteTimeZone : ℕ) : ℤ :=
  let seconds := timegm (toInt (fields.ulUTCYear - 1900)) (toInt (fields.ulUTCMonth - 1))
    (toInt fields.ulUTCDay) (toInt fields.ulUTCHour) (toInt fields.ulUTCMinutes)
    (toInt fields.ulUTCSeconds)
  let utcTime := toInt64 (seconds * 1000 + fields.ulUTCMilliSeconds)
  let offset : ℤ := (ulHourTimeZone * 3600 + ulMinuteTimeZone * 60) * 1000
  if signTimeZone = '+' then toInt64 (utcTime - offset) else toInt64 (utcTime + offset)

/-- The part of the format that the two forms share. -/
def dateFormat : List Char := "%4lu-%2lu-%2luT%2lu:%2lu:%2lu.%3lu".toList

/-- `sDate.c_str ()`. -/
def cStr (sDate : List Char) : List Char := sDate.takeWhile (· ≠ Char.ofNat 0)

/-- `sDateMilliSecondsToUtc`; `none` is its exception. -/
def sDateMilliSecondsToUtc (sDate : List Char) : Option ℤ :=
  if sDate.length = 28 then
    let signTimeZone := sDate.getD 23 (Char.ofNat 0)
    let values := sscanf (directives (dateFormat ++ signTimeZone :: "%2lu%2lu".toList)) (cStr sDate)
    if values.length ≠ 9 then none
    else some (utcTime (.ofValues values) signTimeZone (values.getD 7 0) (values.getD 8 0))
  else if sDate.length = 24 then
    let values := sscanf (directives (dateFormat ++ ['Z'])) (cStr sDate)
    if values.length ≠ 7 then none
    else some (utcTime (.ofValues values) '+' 0 0)
  else none

/-! ### The two forms -/

/-- The numbers fit into their digits. -/
structure Fields.InRange (fields : Fields) : Prop where
  ulUTCYear : fields.ulUTCYear < 10 ^ 4
  ulUTCMonth : fields.ulUTCMonth < 10 ^ 2
  ulUTCDay : fields.ulUTCDay < 10 ^ 2
  ulUTCHour : fields.ulUTCHour < 10 ^ 2
  ulUTCMinutes : fields.ulUTCMinutes < 10 ^ 2
  ulUTCSeconds : fields.ulUTCSeconds < 10 ^ 2
  ulUTCMilliSeconds : fields.ulUTCMilliSeconds < 10 ^ 3

/-- `YYYY-MM-DDThh:mm:ss.mmm`, and what follows it. -/
def Fields.text (fields : Fields) (rest : List Char) : List Char :=
  printLu 4 fields.ulUTCYear ++ '-' :: (printLu 2 fields.ulUTCMonth ++ '-' ::
    (printLu 2 fields.ulUTCDay ++ 'T' :: (printLu 2 fields.ulUTCHour ++ ':' ::
      (printLu 2 fields.ulUTCMinutes ++ ':' :: (printLu 2 fields.ulUTCSeconds ++ '.' ::
        (printLu 3 fields.ulUTCMilliSeconds ++ rest))))))

/-- The milliseconds of the local instant. -/
def Fields.millis (fields : Fields) : ℤ :=
  timegm (fields.ulUTCYear - 1900) (fields.ulUTCMonth - 1) fields.ulUTCDay fields.ulUTCHour
    fields.ulUTCMinutes fields.ulUTCSeconds * 1000 + fields.ulUTCMilliSeconds

/-- The offset `hhmm` in milliseconds. -/
def offsetMillis (hours minutes : ℕ) : ℤ := (hours * 60 + minutes) * 60000

/-- **The documented forms**, each with its milliseconds in UTC. -/
inductive Documented : List Char → ℤ → Prop
  | utc (fields : Fields) (h : fields.InRange) : Documented (fields.text ['Z']) fields.millis
  | ahead (fields : Fields) (h : fields.InRange) (hours minutes : ℕ) (hhours : hours < 10 ^ 2)
      (hminutes : minutes < 10 ^ 2) :
      Documented (fields.text ('+' :: (printLu 2 hours ++ printLu 2 minutes)))
        (fields.millis - offsetMillis hours minutes)
  | behind (fields : Fields) (h : fields.InRange) (hours minutes : ℕ) (hhours : hours < 10 ^ 2)
      (hminutes : minutes < 10 ^ 2) :
      Documented (fields.text ('-' :: (printLu 2 hours ++ printLu 2 minutes)))
        (fields.millis + offsetMillis hours minutes)

/-- **What the method should do** with a text. -/
def Right (sDate : List Char) : Prop :=
  (∀ millis, Documented sDate millis → sDateMilliSecondsToUtc sDate = some millis)
    ∧ ((∀ millis, ¬ Documented sDate millis) → sDateMilliSecondsToUtc sDate = none)

/-! ### The formats -/

def dateDirectives : List Directive :=
  [.number 4, .char '-', .number 2, .char '-', .number 2, .char 'T', .number 2, .char ':',
    .number 2, .char ':', .number 2, .char '.', .number 3]

/-- The sign in the format: a blank there stands for any number of them. -/
def signDirective (signTimeZone : Char) : Directive :=
  if isspace signTimeZone then .blanks else .char signTimeZone

def offsetDirectives (signTimeZone : Char) : List Directive :=
  dateDirectives ++ [signDirective signTimeZone, .number 2, .number 2]

/-- **What is accepted**: 24 characters that begin with seven numbers as `sscanf` reads them, separated
as in the two forms; or 28 that go on with the sign of the 24th character, which is no `%` and no NUL,
and two more numbers. -/
def Loose (sDate : List Char) : Prop :=
  sDate.length = 28 ∧ sDate.getD 23 (Char.ofNat 0) ≠ '%'
      ∧ sDate.getD 23 (Char.ofNat 0) ≠ Char.ofNat 0
      ∧ Follows (offsetDirectives (sDate.getD 23 (Char.ofNat 0))) (cStr sDate)
    ∨ sDate.length = 24 ∧ Follows dateDirectives (cStr sDate)

theorem directives_dateFormat (rest : List Char) :
    directives (dateFormat ++ rest) = dateDirectives ++ directives rest := rfl

/-- The sign is a directive of its own, unless it makes a `%%` or ends the format. -/
theorem directives_sign {sign : Char} (hpercent : sign ≠ '%') (hnul : sign ≠ Char.ofNat 0) :
    directives (sign :: "%2lu%2lu".toList) = [signDirective sign, .number 2, .number 2] := by
  have h : directives (sign :: "%2lu%2lu".toList)
      = (if sign = Char.ofNat 0 then []
        else (if isspace sign then .blanks else .char sign) :: directives "%2lu%2lu".toList) := by
    rw [directives]
    · intro fmt hfmt
      exact absurd hfmt hpercent
    · intro d fmt hfmt
      exact absurd hfmt hpercent
  rw [h, if_neg hnul]
  rfl

theorem offsetDirectives_endsInNumber (sign : Char) : EndsInNumber (offsetDirectives sign) := by
  unfold offsetDirectives signDirective
  split
  · simp [dateDirectives, EndsInNumber, conversions]
  · simp [dateDirectives, EndsInNumber, conversions]

theorem dateDirectives_endsInNumber : EndsInNumber dateDirectives := by
  simp [dateDirectives, EndsInNumber, conversions]

theorem conversions_offsetDirectives (sign : Char) : conversions (offsetDirectives sign) = 9 := by
  unfold offsetDirectives signDirective
  split
  · rfl
  · rfl

/-- The format of a text with an offset reads nine numbers. -/
theorem length_sscanf_offset (sign : Char) (text : List Char) :
    (sscanf (directives (dateFormat ++ sign :: "%2lu%2lu".toList)) text).length = 9
      ↔ sign ≠ '%' ∧ sign ≠ Char.ofNat 0 ∧ Follows (offsetDirectives sign) text := by
  rw [directives_dateFormat]
  by_cases hpercent : sign = '%'
  · -- the sign and the `%` behind it are one directive
    subst hpercent
    have hle := length_sscanf_le (dateDirectives ++ directives ('%' :: "%2lu%2lu".toList)) text
    have hcount : conversions (dateDirectives ++ directives ('%' :: "%2lu%2lu".toList)) = 8 := rfl
    rw [hcount] at hle
    exact iff_of_false (by omega) (fun h => h.1 rfl)
  · by_cases hnul : sign = Char.ofNat 0
    · subst hnul
      have hle := length_sscanf_le
        (dateDirectives ++ directives (Char.ofNat 0 :: "%2lu%2lu".toList)) text
      have hcount : conversions
          (dateDirectives ++ directives (Char.ofNat 0 :: "%2lu%2lu".toList)) = 7 := rfl
      rw [hcount] at hle
      exact iff_of_false (by omega) (fun h => h.2.1 rfl)
    · have hiff := length_sscanf_iff (offsetDirectives_endsInNumber sign) text
      rw [conversions_offsetDirectives] at hiff
      rw [directives_sign hpercent hnul]
      exact hiff.trans (by simp [hpercent, hnul])

/-- The format of a text in UTC reads seven numbers, whatever is in the place of the `Z`. -/
theorem length_sscanf_utc (text : List Char) :
    (sscanf (directives (dateFormat ++ ['Z'])) text).length = 7 ↔ Follows dateDirectives text := by
  rw [directives_dateFormat, length_sscanf_append rfl]
  exact length_sscanf_iff dateDirectives_endsInNumber text

/-- **The method accepts the loose texts.** -/
theorem sDateMilliSecondsToUtc_ne_none_iff (sDate : List Char) :
    sDateMilliSecondsToUtc sDate ≠ none ↔ Loose sDate := by
  unfold sDateMilliSecondsToUtc Loose
  by_cases h28 : sDate.length = 28
  · rw [if_pos h28, ← length_sscanf_offset]
    simp [h28]
  · rw [if_neg h28]
    by_cases h24 : sDate.length = 24
    · rw [if_pos h24, ← length_sscanf_utc]
      simp [h24]
    · rw [if_neg h24]
      simp [h28, h24]

/-! ### The two forms are read -/

section

variable {fields : Fields}

theorem length_text (h : fields.InRange) (rest : List Char) :
    (fields.text rest).length = 23 + rest.length := by
  have hyear : (printLu 4 fields.ulUTCYear).length = 4 := length_printLu (by decide) h.ulUTCYear
  have hmonth : (printLu 2 fields.ulUTCMonth).length = 2 :=
    length_printLu (by decide) h.ulUTCMonth
  have hday : (printLu 2 fields.ulUTCDay).length = 2 := length_printLu (by decide) h.ulUTCDay
  have hhour : (printLu 2 fields.ulUTCHour).length = 2 := length_printLu (by decide) h.ulUTCHour
  have hminutes : (printLu 2 fields.ulUTCMinutes).length = 2 :=
    length_printLu (by decide) h.ulUTCMinutes
  have hseconds : (printLu 2 fields.ulUTCSeconds).length = 2 :=
    length_printLu (by decide) h.ulUTCSeconds
  have hmilli : (printLu 3 fields.ulUTCMilliSeconds).length = 3 :=
    length_printLu (by decide) h.ulUTCMilliSeconds
  simp only [Fields.text, List.length_append, List.length_cons, hyear, hmonth, hday, hhour,
    hminutes, hseconds, hmilli]
  omega

theorem text_eq_append (fields : Fields) (rest : List Char) :
    fields.text rest = fields.text [] ++ rest := by
  simp only [Fields.text, List.append_assoc, List.cons_append, List.append_nil]

/-- The sign is the 24th character. -/
theorem getD_text (h : fields.InRange) (sign : Char) (rest : List Char) :
    (fields.text (sign :: rest)).getD 23 (Char.ofNat 0) = sign := by
  have hlength := length_text h []
  rw [List.length_nil, Nat.add_zero] at hlength
  rw [text_eq_append, List.getD_eq_getElem?_getD, List.getElem?_append_right (by omega), hlength]
  rfl

/-- There is no NUL in the two forms. -/
theorem cStr_text {rest : List Char} (hrest : Char.ofNat 0 ∉ rest) :
    cStr (fields.text rest) = fields.text rest := by
  have hnul : Char.ofNat 0 ∉ fields.text rest := by
    simp [Fields.text, nul_notMem_printLu, hrest]
  refine List.takeWhile_eq_self_iff.mpr fun c hc => ?_
  rw [decide_eq_true_eq]
  rintro rfl
  exact hnul hc

/-- The numbers are read back. -/
theorem sscanf_text (h : fields.InRange) (fmt : List Directive) (rest : List Char) :
    sscanf (dateDirectives ++ fmt) (fields.text rest)
      = fields.ulUTCYear :: fields.ulUTCMonth :: fields.ulUTCDay :: fields.ulUTCHour
        :: fields.ulUTCMinutes :: fields.ulUTCSeconds :: fields.ulUTCMilliSeconds
        :: sscanf fmt rest := by
  have htwo : ∀ (n : ℕ) (fmt : List Directive) (rest : List Char), n < 10 ^ 2 →
      sscanf (.number 2 :: fmt) (printLu 2 n ++ rest) = n :: sscanf fmt rest := by
    intro n fmt rest hn
    exact sscanf_number_printLu fmt rest (by decide) hn (by omega)
  have hyear := h.ulUTCYear
  have hmilli := h.ulUTCMilliSeconds
  simp only [dateDirectives, List.cons_append, List.nil_append, Fields.text]
  rw [sscanf_number_printLu _ _ (by decide) hyear (by omega), sscanf_char_self,
    htwo _ _ _ h.ulUTCMonth, sscanf_char_self, htwo _ _ _ h.ulUTCDay, sscanf_char_self,
    htwo _ _ _ h.ulUTCHour, sscanf_char_self, htwo _ _ _ h.ulUTCMinutes, sscanf_char_self,
    htwo _ _ _ h.ulUTCSeconds, sscanf_char_self,
    sscanf_number_printLu _ _ (by decide) hmilli (by omega)]

/-! ### What is computed -/

theorem toInt_eq {x : ℤ} (hlow : -10000 ≤ x) (hhigh : x ≤ 10000) : toInt x = x :=
  Int.bmod_eq_of_le (by omega) (by omega)

theorem toInt64_eq {x : ℤ} (hlow : -2 ^ 62 ≤ x) (hhigh : x ≤ 2 ^ 62) : toInt64 x = x :=
  Int.bmod_eq_of_le (by omega) (by omega)

/-- The days of a date in the range of the two forms. -/
theorem date_bounds {y m d : ℤ} (hy : -1000 ≤ y ∧ y ≤ 11000) (hm : 1 ≤ m ∧ m ≤ 12)
    (hd : 0 ≤ d ∧ d < 100) :
    -400000 ≤ Calendar.date y m d ∧ Calendar.date y m d ≤ 4100000 := by
  have hmonth := Calendar.daysBeforeMonth_nonneg y hm.1 hm.2
  have hmonth' := Calendar.daysBeforeMonth_le y hm.1 hm.2
  have hlength := Calendar.monthLength_ge y m
  have hyear : Calendar.yearLength y ≤ 366 := by
    unfold Calendar.yearLength
    split <;> omega
  unfold Calendar.date Calendar.daysBeforeYear
  omega

theorem millis_bounds (h : fields.InRange) :
    -2 ^ 60 ≤ fields.millis ∧ fields.millis ≤ 2 ^ 60 := by
  have hyear := h.ulUTCYear
  have hmonth := h.ulUTCMonth
  have hday := h.ulUTCDay
  have hhour := h.ulUTCHour
  have hminutes := h.ulUTCMinutes
  have hseconds := h.ulUTCSeconds
  have hmilli := h.ulUTCMilliSeconds
  have hepoch : Calendar.instant 1970 1 1 0 0 0 = 62167219200 := by decide
  have hdate := date_bounds (y := (fields.ulUTCYear : ℤ) - 1900 + 1900
      + ((fields.ulUTCMonth : ℤ) - 1) / 12) (m := ((fields.ulUTCMonth : ℤ) - 1) % 12 + 1)
    (d := fields.ulUTCDay) (by omega) (by omega) (by omega)
  unfold Fields.millis timegm
  rw [hepoch]
  unfold Calendar.instant
  omega

/-- The conversions between the integer types change nothing. -/
theorem utcTime_eq (h : fields.InRange) {hours minutes : ℕ} (hhours : hours < 10 ^ 2)
    (hminutes : minutes < 10 ^ 2) (sign : Char) :
    utcTime fields sign hours minutes
      = if sign = '+' then fields.millis - offsetMillis hours minutes
        else fields.millis + offsetMillis hours minutes := by
  have hbounds := millis_bounds h
  have hyear := h.ulUTCYear
  have hmonth := h.ulUTCMonth
  have hday := h.ulUTCDay
  have hhour := h.ulUTCHour
  have hmin := h.ulUTCMinutes
  have hseconds := h.ulUTCSeconds
  have hoffset : ((hours : ℤ) * 3600 + minutes * 60) * 1000 = offsetMillis hours minutes := by
    unfold offsetMillis
    omega
  have hoffset' : 0 ≤ offsetMillis hours minutes ∧ offsetMillis hours minutes ≤ 2 ^ 60 := by
    unfold offsetMillis
    omega
  unfold utcTime
  rw [toInt_eq (by omega) (by omega), toInt_eq (by omega) (by omega),
    toInt_eq (by omega) (by omega), toInt_eq (by omega) (by omega),
    toInt_eq (by omega) (by omega), toInt_eq (by omega) (by omega), hoffset]
  show (if sign = '+' then toInt64 (toInt64 fields.millis - offsetMillis hours minutes)
    else toInt64 (toInt64 fields.millis + offsetMillis hours minutes)) = _
  have hmillis : toInt64 fields.millis = fields.millis := toInt64_eq (by omega) (by omega)
  rw [hmillis, toInt64_eq (by omega) (by omega), toInt64_eq (by omega) (by omega)]

/-- A text with an offset. -/
theorem sDateMilliSecondsToUtc_offset (h : fields.InRange) {hours minutes : ℕ}
    (hhours : hours < 10 ^ 2) (hminutes : minutes < 10 ^ 2) {sign : Char} (hblank : ¬ isspace sign)
    (hpercent : sign ≠ '%') (hnul : sign ≠ Char.ofNat 0) :
    sDateMilliSecondsToUtc (fields.text (sign :: (printLu 2 hours ++ printLu 2 minutes)))
      = some (utcTime fields sign hours minutes) := by
  have hh : (printLu 2 hours).length = 2 := length_printLu (by decide) hhours
  have hm : (printLu 2 minutes).length = 2 := length_printLu (by decide) hminutes
  have hlength : (fields.text (sign :: (printLu 2 hours ++ printLu 2 minutes))).length = 28 := by
    rw [length_text h, List.length_cons, List.length_append, hh, hm]
  have hrest : Char.ofNat 0 ∉ sign :: (printLu 2 hours ++ printLu 2 minutes) := by
    simp [nul_notMem_printLu, Ne.symm hnul]
  have hend : sscanf [.number 2] (printLu 2 minutes) = [minutes] := by
    have hread := sscanf_number_printLu [] [] (by decide) hminutes (by omega)
    rwa [List.append_nil] at hread
  have hvalues := sscanf_text h [signDirective sign, .number 2, .number 2]
    (sign :: (printLu 2 hours ++ printLu 2 minutes))
  rw [signDirective, if_neg hblank, sscanf_char_self,
    sscanf_number_printLu _ _ (by decide) hhours (by omega), hend] at hvalues
  unfold sDateMilliSecondsToUtc
  rw [if_pos hlength, getD_text h]
  dsimp only
  rw [cStr_text hrest, directives_dateFormat, directives_sign hpercent hnul, signDirective,
    if_neg hblank, hvalues, if_neg (fun hne => hne rfl)]
  rfl

theorem sDateMilliSecondsToUtc_utc (h : fields.InRange) :
    sDateMilliSecondsToUtc (fields.text ['Z']) = some (utcTime fields '+' 0 0) := by
  have hlength : (fields.text ['Z']).length = 24 := length_text h ['Z']
  have hvalues := sscanf_text h [.char 'Z'] ['Z']
  rw [show sscanf [.char 'Z'] ['Z'] = [] from rfl] at hvalues
  unfold sDateMilliSecondsToUtc
  rw [if_neg (by rw [hlength]; decide), if_pos hlength]
  dsimp only
  rw [cStr_text (by decide), directives_dateFormat,
    show directives ['Z'] = [.char 'Z'] from rfl, hvalues, if_neg (fun hne => hne rfl)]
  rfl

/-- **A text of one of the two forms is read right.** -/
theorem sDateMilliSecondsToUtc_of_documented {sDate : List Char} {millis : ℤ}
    (h : Documented sDate millis) : sDateMilliSecondsToUtc sDate = some millis := by
  cases h with
  | utc fields h =>
    rw [sDateMilliSecondsToUtc_utc h, utcTime_eq h (by decide) (by decide), if_pos rfl]
    exact congrArg some (sub_zero _)
  | ahead fields h hours minutes hhours hminutes =>
    rw [sDateMilliSecondsToUtc_offset h hhours hminutes (by decide) (by decide) (by decide),
      utcTime_eq h hhours hminutes, if_pos rfl]
  | behind fields h hours minutes hhours hminutes =>
    rw [sDateMilliSecondsToUtc_offset h hhours hminutes (by decide) (by decide) (by decide),
      utcTime_eq h hhours hminutes, if_neg (by decide)]

end

/-- **The method is right** exactly for the documented texts and for those that are not loose. -/
theorem right_iff (sDate : List Char) :
    Right sDate ↔ (∃ millis, Documented sDate millis) ∨ ¬ Loose sDate := by
  constructor
  · rintro ⟨-, hrefused⟩
    by_cases hdocumented : ∃ millis, Documented sDate millis
    · exact Or.inl hdocumented
    · have hnone := hrefused (not_exists.mp hdocumented)
      exact Or.inr fun hloose =>
        (sDateMilliSecondsToUtc_ne_none_iff sDate).mpr hloose hnone
  · intro h
    refine ⟨fun millis => sDateMilliSecondsToUtc_of_documented, ?_⟩
    intro hnot
    rcases h with ⟨millis, hdocumented⟩ | hstrict
    · exact absurd hdocumented (hnot millis)
    · exact not_not.mp (mt (sDateMilliSecondsToUtc_ne_none_iff sDate).mp hstrict)

/-- A documented text of 24 characters ends with `Z`. -/
theorem Documented.getLast_eq {sDate : List Char} {millis : ℤ} (h : Documented sDate millis)
    (hlength : sDate.length = 24) : sDate.getLast? = some 'Z' := by
  cases h with
  | utc fields h =>
    rw [text_eq_append, List.getLast?_append]
    rfl
  | ahead fields h hours minutes hhours hminutes =>
    rw [length_text h, List.length_cons, List.length_append] at hlength
    have hle : 2 ≤ (printLu 2 hours).length := le_length_printLu (by decide) hours
    omega
  | behind fields h hours minutes hhours hminutes =>
    rw [length_text h, List.length_cons, List.length_append] at hlength
    have hle : 2 ≤ (printLu 2 hours).length := le_length_printLu (by decide) hours
    omega

/-- The `Z` may be any character. -/
theorem not_right_of_otherZone : ¬ Right "2021-02-26T15:41:15.477X".toList := by
  rintro ⟨-, hrefused⟩
  have hnone := hrefused fun millis hdocumented =>
    absurd (hdocumented.getLast_eq rfl) (by decide)
  exact absurd hnone (by decide +kernel)

end DateTime

end CatraLibraries
