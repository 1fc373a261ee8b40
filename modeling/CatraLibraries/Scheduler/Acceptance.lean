/-
# The schedules that init accepts

`Documented` are the texts of the documented grammar whose days come up in some year.
`Times::init` looks at a field less closely than the grammar: a comma makes it a list and
then a dash a range whatever else it contains, `atol` reads a number up to its first
character that is no digit and 0 where there is none, a `*` in front makes the rest of the
field irrelevant, and the year is not looked at.  `Loose` describes such fields by their
text, and `init` accepts the texts of at most 256 characters with seven loose fields, where
only the check of the end of february stands apart.
-/
import CatraLibraries.Scheduler.Grammar
import CatraLibraries.Scheduler.Termination

namespace CatraLibraries

open Memory Stdio Calendar

/-! ### The documented texts -/

namespace FieldSpec

/-- A range goes up. -/
def Ordered : FieldSpec → Prop
  | between a b => a ≤ b
  | _ => True

/-- A list has at least two values. -/
def Shaped : FieldSpec → Prop
  | among values => 2 ≤ values.length
  | _ => True

end FieldSpec

/-- One of the months has one of the days in some year. -/
def DayOccurs (month monthday : FieldSpec) : Prop :=
  ∃ m d, month.Has m ∧ monthday.Has d ∧ (1 ≤ m ∧ m ≤ 12) ∧ 1 ≤ d ∧ d ≤ maxMonthLength m

/-- The texts of the documented grammar, without those for every year whose day never
comes. -/
def Documented (text : List Char) : Prop :=
  ∃ y mo md wd h mi s, text = [' '].intercalate [y, mo, md, wd, h, mi, s] ∧
    ∃ year month monthday weekday hour minute second : FieldSpec,
      (year.Writes y ∧ year.Shaped ∧ year.Ordered) ∧
      (month.Writes mo ∧ month.InRange 1 12 ∧ month.Ordered) ∧
      (monthday.Writes md ∧ monthday.InRange 1 31 ∧ monthday.Ordered) ∧
      (weekday.Writes wd ∧ weekday.InRange 0 6 ∧ weekday.Ordered) ∧
      (hour.Writes h ∧ hour.InRange 0 23 ∧ hour.Ordered) ∧
      (minute.Writes mi ∧ minute.InRange 0 59 ∧ minute.Ordered) ∧
      (second.Writes s ∧ second.InRange 0 59 ∧ second.Ordered) ∧
      (year = .any → DayOccurs month monthday)

/-! ### The texts that are accepted -/

/-- The parts of a list, without an empty one after a comma at the end. -/
def commaParts (s : List Char) : List (List Char) :=
  if s.getLast? = some ',' then (s.splitOn ',').dropLast else s.splitOn ','

/-- A field whose numbers, as `atol` reads them, lie in an interval. -/
def Loose (min max : Int) (s : List Char) : Prop :=
  if ',' ∈ s then ∀ part ∈ commaParts s, min ≤ atol part ∧ atol part ≤ max
  else if '-' ∈ s then
    ∃ a b, s = a ++ '-' :: b ∧ '-' ∉ a ∧ (min ≤ atol a ∧ atol a ≤ atol b) ∧ atol b ≤ max
  else s.head? = some '*' ∨ min ≤ atol s ∧ atol s ≤ max

/-- A text cut at its six blanks into seven fields. -/
structure Cut (text : List Char) where
  y : List Char
  mo : List Char
  md : List Char
  wd : List Char
  h : List Char
  mi : List Char
  s : List Char
  text_eq : text = [' '].intercalate [y, mo, md, wd, h, mi, s]
  fields : ∀ field ∈ [y, mo, md, wd, h, mi, s], field ≠ [] ∧ ' ' ∉ field

/-- Texts of seven loose fields. -/
def LooseSchedule (text : List Char) (c : Cut text) : Prop :=
  text.length ≤ 256 ∧ (∀ ch ∈ text, isScheduleChar ch) ∧ Loose 1 12 c.mo ∧ Loose 1 31 c.md ∧
    Loose 0 6 c.wd ∧ Loose 0 23 c.h ∧ Loose 0 59 c.mi ∧ Loose 0 59 c.s

/-- Every year, the month a single 2, and no monthday up to the 29th. -/
def EndOfFebruary {text : List Char} (c : Cut text) : Prop :=
  c.y = ['*'] ∧ readField c.mo = .value 2 ∧ readField c.md ≠ .star ∧
    ∀ d, 1 ≤ d → d ≤ 29 → ¬(readField c.md).holds d

/-! ### What init makes of a field -/

/-- The loop over the commas cuts the text at them. -/
theorem listNumbers_eq_split (number s : List Char) :
    listNumbers number s ++ (if s.getLast? = some ',' then [[]] else [])
      = List.splitOnPPrepend (· == ',') s number := by
  induction s generalizing number with
  | nil => rfl
  | cons c s ih =>
    by_cases hc : c = ','
    · subst hc
      rw [List.splitOnPPrepend_cons_pos (by rfl), ← List.splitOnPPrepend_nil_right, ← ih []]
      cases s with
      | nil => simp [listNumbers]
      | cons c' s => simp [listNumbers, List.getLast?_cons_cons]
    · rw [List.splitOnPPrepend_cons_neg (by simpa using hc), ← ih (c :: number), listNumbers,
        if_pos hc]
      cases s with
      | nil => simp [hc]
      | cons c' s => simp [List.getLast?_cons_cons]

theorem listNumbers_eq_commaParts (s : List Char) : listNumbers [] s = commaParts s := by
  have h := listNumbers_eq_split [] s
  rw [List.splitOnPPrepend_nil_right, ← List.splitOn_eq_splitOnP] at h
  unfold commaParts
  split_ifs with hlast
  · rw [← h, if_pos hlast, List.dropLast_concat]
  · rw [← h, if_neg hlast, List.append_nil]

/-- The range check of a field, on its text. -/
theorem inRange_readField_iff {min max : Int} {s : List Char} :
    (readField s).InRange min max ↔ Loose min max s := by
  unfold readField Loose
  by_cases hcomma : ',' ∈ s
  · rw [if_pos hcomma, if_pos hcomma, listNumbers_eq_commaParts]
    simp [Field.InRange]
  · rw [if_neg hcomma, if_neg hcomma]
    by_cases hdash : '-' ∈ s
    · obtain ⟨a, b, rfl, ha⟩ := List.eq_append_cons_of_mem hdash
      obtain ⟨hfrom, hto⟩ := cut_at_dash b ha
      rw [if_pos hdash, if_pos hdash, hfrom, hto]
      constructor
      · exact fun h => ⟨a, b, rfl, ha, h⟩
      · rintro ⟨a', b', heq, ha', h⟩
        -- the cut at the first dash is the only one
        obtain ⟨hfrom', hto'⟩ := cut_at_dash b' ha'
        rw [← heq] at hfrom' hto'
        rw [← hfrom', ← hto', hfrom, hto] at h
        exact h
    · rw [if_neg hdash, if_neg hdash]
      by_cases hstar : s.head? = some '*'
      · simp [hstar, Field.InRange]
      · simp [hstar, Field.InRange]

/-! ### The fields of a text -/

theorem Cut.strtok_eq {text : List Char} (c : Cut text) :
    strtok ' ' text = [c.y, c.mo, c.md, c.wd, c.h, c.mi, c.s] := by
  rw [strtok]
  conv_lhs => rw [c.text_eq]
  rw [List.splitOn_intercalate _ (fun field hf => (c.fields field hf).2) (by simp)]
  exact List.filter_eq_self.mpr fun field hf => decide_eq_true (c.fields field hf).1

theorem Cut.count_eq {text : List Char} (c : Cut text) : text.count ' ' = 6 := by
  have hlen := length_splitOn ' ' text
  have hsplit : text.splitOn ' ' = [c.y, c.mo, c.md, c.wd, c.h, c.mi, c.s] := by
    conv_lhs => rw [c.text_eq]
    exact List.splitOn_intercalate _ (fun field hf => (c.fields field hf).2) (by simp)
  rw [hsplit] at hlen
  simpa using hlen.symm

theorem exists_cut {text : List Char} {y mo md wd h mi s : List Char} {rest : List (List Char)}
    (hcount : text.count ' ' = 6)
    (htok : strtok ' ' text = y :: mo :: md :: wd :: h :: mi :: s :: rest) :
    ∃ c : Cut text, [c.y, c.mo, c.md, c.wd, c.h, c.mi, c.s] = [y, mo, md, wd, h, mi, s] := by
  have hsplit : text.splitOn ' ' = y :: mo :: md :: wd :: h :: mi :: s :: rest := by
    rw [← htok, strtok_eq_splitOn]
    rw [htok, hcount]
    simp
  have hrest : rest = [] := by
    have hlen := length_splitOn ' ' text
    rw [hsplit, hcount] at hlen
    simpa using hlen
  subst hrest
  refine ⟨⟨y, mo, md, wd, h, mi, s, ?_, fun field hf => ⟨?_, ?_⟩⟩, rfl⟩
  · rw [← hsplit, List.intercalate_splitOn]
  · rw [← htok] at hf
    exact of_decide_eq_true (List.mem_filter.mp hf).2
  · rw [← hsplit] at hf
    exact not_mem_of_mem_splitOn hf

/-- What the checks of `init` let through. -/
theorem checkSchedule_iff {text : List Char} : checkSchedule text = .ok () ↔
    ∃ c : Cut text, LooseSchedule text c ∧
      checkLoop c.y (lMonth (readField c.mo)) (readField c.md) = .ok () := by
  rw [checkSchedule_eq_ok, checkRangeValues_eq_ok]
  simp only [inRange_readField_iff]
  constructor
  · rintro ⟨hlen, hchars, hcount, y, mo, md, wd, h, mi, s, rest, htok, hmo, hmd, hloop, hwd, hh,
      hmi, hs⟩
    obtain ⟨c, hc⟩ := exists_cut hcount htok
    simp only [List.cons.injEq, and_true] at hc
    obtain ⟨rfl, rfl, rfl, rfl, rfl, rfl, rfl⟩ := hc
    exact ⟨c, ⟨hlen, hchars, hmo, hmd, hwd, hh, hmi, hs⟩, hloop⟩
  · rintro ⟨c, ⟨hlen, hchars, hmo, hmd, hwd, hh, hmi, hs⟩, hloop⟩
    exact ⟨hlen, hchars, c.count_eq, c.y, c.mo, c.md, c.wd, c.h, c.mi, c.s, [], c.strtok_eq, hmo,
      hmd, hloop, hwd, hh, hmi, hs⟩

/-! ### The end of february -/

/-- The monthdays that the check of february catches. -/
def Field.Caught : Field → Prop
  | .list values => ∀ v ∈ values, 30 < v
  | .range valueFrom valueTo => valueFrom = 30 ∧ valueTo = 31
  | .value v => v = 30
  | .star => False

theorem lMonth_eq_two {f : Field} : lMonth f = 2 ↔ f = .value 2 := by
  cases f <;> simp [lMonth]

theorem checkLoop_eq_ok {y : List Char} {month : Int} {f : Field} :
    checkLoop y month f = .ok () ↔ ¬(y = ['*'] ∧ month = 2 ∧ f.Caught) := by
  cases f with
  | list values => simp [checkLoop, ensure_eq_ok, Field.Caught, imp_iff_not_or]
  | range a b => simp [checkLoop, ensure_eq_ok, Field.Caught, imp_iff_not_or]
  | value v => simp [checkLoop, ensure_eq_ok, Field.Caught, imp_iff_not_or]
  | star => simp [checkLoop, Field.Caught]

theorem Field.Caught.not_holds {f : Field} (h : f.Caught) :
    f ≠ .star ∧ ∀ d, 1 ≤ d → d ≤ 29 → ¬f.holds d := by
  cases f with
  | list values =>
    refine ⟨by simp, fun d _ hd hholds => ?_⟩
    obtain ⟨v, hv, heq⟩ := List.any_eq_true.mp hholds
    obtain rfl := of_decide_eq_true heq
    have := h v hv
    omega
  | range a b =>
    refine ⟨by simp, fun d _ hd hholds => ?_⟩
    have hle := of_decide_eq_true (Bool.and_eq_true_iff.mp hholds).1
    have := h.1
    omega
  | value v =>
    refine ⟨by simp, fun d _ hd hholds => ?_⟩
    have hv : v = 30 := h
    have := of_decide_eq_true hholds
    omega
  | star => exact h.elim

/-! ### Documented texts are accepted -/

namespace FieldSpec

/-- The only text of a field with a star is the star. -/
theorem eq_any_of_star_mem {f : FieldSpec} {s : List Char} (h : f.Writes s) (hs : '*' ∈ s) :
    f = .any ∧ s = ['*'] := by
  have hlist : ∀ {s : List Char} {values : List Nat}, WritesList s values → '*' ∉ s := by
    intro s values h
    induction values generalizing s with
    | nil => exact h.elim
    | cons v values ih =>
      cases values with
      | nil => exact not_mem_numeral h.1 rfl
      | cons w values =>
        obtain ⟨s₁, s₂, rfl, ⟨hnum, -⟩, hrest⟩ := h
        simp [not_mem_numeral hnum, ih hrest]
  cases f with
  | any => exact ⟨rfl, h⟩
  | one v => exact absurd hs (not_mem_numeral h.1 rfl)
  | between a b =>
    obtain ⟨s₁, s₂, rfl, ⟨hnum₁, -⟩, hnum₂, -⟩ := h
    exact absurd hs (by simp [not_mem_numeral hnum₁, not_mem_numeral hnum₂])
  | among values => exact absurd hs (hlist h)

theorem toField_inRange {f : FieldSpec} {min max : Nat} (hr : f.InRange min max)
    (ho : f.Ordered) : f.toField.InRange min max := by
  cases f with
  | any => trivial
  | one v => exact ⟨Int.ofNat_le.mpr hr.1, Int.ofNat_le.mpr hr.2⟩
  | between a b => exact ⟨⟨Int.ofNat_le.mpr hr.1.1, Int.ofNat_le.mpr ho⟩, Int.ofNat_le.mpr hr.2.2⟩
  | among values =>
    intro v hv
    obtain ⟨w, hw, rfl⟩ := List.mem_map.mp hv
    exact ⟨Int.ofNat_le.mpr (hr.2 w hw).1, Int.ofNat_le.mpr (hr.2 w hw).2⟩

/-- The text of a field in range is loose. -/
theorem loose {f : FieldSpec} {s : List Char} {min max : Nat}
    (h : f.Writes s ∧ f.InRange min max ∧ f.Ordered) (hmax : (max : Int) ≤ longMax) :
    Loose min max s := by
  rw [← inRange_readField_iff, readField_writes h.1 h.2.1 hmax]
  exact toField_inRange h.2.1 h.2.2

end FieldSpec

/-- A documented text of at most 256 characters passes the checks. -/
theorem Documented.checked {text : List Char} (hdoc : Documented text)
    (hlen : text.length ≤ 256) : checkSchedule text = .ok () := by
  obtain ⟨y, mo, md, wd, h, mi, s, htext, year, month, monthday, weekday, hour, minute, second,
    hy, hmo, hmd, hwd, hh, hmi, hs, hoccurs⟩ := hdoc
  have hfields : ∀ field ∈ [y, mo, md, wd, h, mi, s], field ≠ [] ∧
      ∀ ch ∈ field, isScheduleChar ch ∧ ch ≠ ' ' := by
    simp only [List.forall_mem_cons]
    exact ⟨hy.1.chars, hmo.1.chars, hmd.1.chars, hwd.1.chars, hh.1.chars, hmi.1.chars, hs.1.chars,
      by simp⟩
  let c : Cut text := ⟨y, mo, md, wd, h, mi, s, htext, fun field hf =>
    ⟨(hfields field hf).1, fun hblank => ((hfields field hf).2 _ hblank).2 rfl⟩⟩
  have hchars : ∀ ch ∈ text, isScheduleChar ch := by
    intro ch hch
    rw [htext] at hch
    obtain rfl | ⟨field, hf, hmem⟩ := mem_of_mem_intercalate hch
    · decide
    · exact ((hfields field hf).2 ch hmem).1
  refine checkSchedule_iff.mpr ⟨c, ⟨hlen, hchars, FieldSpec.loose hmo (by decide),
    FieldSpec.loose hmd (by decide), FieldSpec.loose hwd (by decide), FieldSpec.loose hh (by decide),
    FieldSpec.loose hmi (by decide), FieldSpec.loose hs (by decide)⟩, ?_⟩
  rw [checkLoop_eq_ok, lMonth_eq_two]
  rintro ⟨hstar, hmonth, hcaught⟩
  -- every year: the documented day comes, but not from the caught ones in february
  have hstarMem : '*' ∈ y := by
    have : y = ['*'] := hstar
    simp [this]
  obtain ⟨m, d, hm, hd, -, hd1, hdmax⟩ := hoccurs (FieldSpec.eq_any_of_star_mem hy.1 hstarMem).1
  have hmo' : readField mo = month.toField :=
    FieldSpec.readField_writes hmo.1 hmo.2.1 (by decide)
  have hmd' : readField md = monthday.toField :=
    FieldSpec.readField_writes hmd.1 hmd.2.1 (by decide)
  have hm2 : m = 2 := by
    have hholds := (FieldSpec.toField_holds month m).mpr hm
    rw [← hmo'] at hholds
    rw [show readField mo = .value 2 from hmonth] at hholds
    exact (of_decide_eq_true hholds).symm
  subst hm2
  refine hcaught.not_holds.2 d hd1 hdmax ?_
  show (readField md).holds d = true
  rw [hmd']
  exact (FieldSpec.toField_holds monthday d).mpr hd

namespace Times

/-- `init` with a schedule alone, in a new object, accepts a text. -/
def Accepts (t : Times) (text : List Char) : Prop :=
  (t.init true (some text) none).1 = .ok ()

theorem accepts_iff {t : Times} (ht : t.schTimesStatus = .schTimesBuilded) {text : List Char} :
    t.Accepts text ↔ checkSchedule text = .ok () := by
  unfold Accepts
  constructor
  · intro h
    have hinit : t.init true (some text) none = (.ok (), (t.init true (some text) none).2) := by
      rw [← h]
    exact (init_eq_ok.mp hinit).1.2.1
  · intro h
    rw [init_eq_ok.mpr ⟨⟨ht, h, rfl, by simp⟩, rfl⟩]

/-- **What `init` accepts.**  Only texts of at most 256 characters with seven loose fields;
all of these but those for the end of february, of which it refuses the monthdays that its
check catches; and with them every documented text of that length. -/
theorem init_accepts {t : Times} (ht : t.schTimesStatus = .schTimesBuilded) (text : List Char) :
    (t.Accepts text → ∃ c : Cut text, LooseSchedule text c) ∧
    (∀ c : Cut text, LooseSchedule text c → ¬EndOfFebruary c → t.Accepts text) ∧
    (∀ c : Cut text, EndOfFebruary c → (readField c.md).Caught → ¬t.Accepts text) ∧
    (Documented text → text.length ≤ 256 → t.Accepts text) := by
  simp only [accepts_iff ht]
  refine ⟨fun h => ?_, fun c hc hfeb => ?_, fun c hfeb hcaught h => ?_,
    fun hdoc hlen => hdoc.checked hlen⟩
  · obtain ⟨c, hc, -⟩ := checkSchedule_iff.mp h
    exact ⟨c, hc⟩
  · refine checkSchedule_iff.mpr ⟨c, hc, ?_⟩
    rw [checkLoop_eq_ok, lMonth_eq_two]
    rintro ⟨hy, hmo, hcaught⟩
    exact hfeb ⟨hy, hmo, hcaught.not_holds⟩
  · obtain ⟨c', -, hloop⟩ := checkSchedule_iff.mp h
    rw [checkLoop_eq_ok, lMonth_eq_two] at hloop
    have hsame := c.strtok_eq.symm.trans c'.strtok_eq
    simp only [List.cons.injEq, and_true] at hsame
    obtain ⟨hy, hmo, hmd, -⟩ := hsame
    rw [← hy, ← hmo, ← hmd] at hloop
    exact hloop ⟨hfeb.1, hfeb.2.1, hcaught⟩

/-- The documented example is accepted. -/
theorem init_accepts_days : newTimes.Accepts daysTimes.pCalendarSchedule := by
  obtain ⟨y, mo, md, wd, h, mi, s, htext, hy, hmo, hmd, hwd, hh, hmi, hs⟩ := daysSchedule_writes
  refine (init_accepts rfl _).2.2.2 ⟨y, mo, md, wd, h, mi, s, htext, .any, .any, .among [1, 15],
    .one 1, .one 0, .one 0, .one 0, ⟨hy, trivial, trivial⟩, ⟨hmo, trivial, trivial⟩,
    ⟨hmd, daysSchedule.monthday_inRange, trivial⟩, ⟨hwd, daysSchedule.weekday_inRange, trivial⟩,
    ⟨hh, daysSchedule.hour_inRange, trivial⟩, ⟨hmi, daysSchedule.minute_inRange, trivial⟩,
    ⟨hs, daysSchedule.second_inRange, trivial⟩, fun _ => ?_⟩ (by decide)
  exact ⟨1, 1, trivial, ⟨1, by simp, rfl⟩, by decide⟩

/-- `init` accepts an hour that is no value, no range, no list and no star. -/
theorem init_accepts_undocumented : ¬∀ text, newTimes.Accepts text ↔ Documented text := by
  intro hall
  have haccepts : newTimes.Accepts "2024 1 1 * 5* 0 0".toList := by
    unfold Accepts
    decide +kernel
  obtain ⟨y, mo, md, wd, h, mi, s, htext, year, month, monthday, weekday, hour, minute, second,
    hy, hmo, hmd, hwd, hh, hmi, hs, -⟩ := (hall _).mp haccepts
  have hsplit : "2024 1 1 * 5* 0 0".toList.splitOn ' ' = [y, mo, md, wd, h, mi, s] := by
    rw [htext, List.splitOn_intercalate _ ?_ (by simp)]
    simp only [List.forall_mem_cons]
    exact ⟨hy.1.blank_not_mem, hmo.1.blank_not_mem, hmd.1.blank_not_mem, hwd.1.blank_not_mem,
      hh.1.blank_not_mem, hmi.1.blank_not_mem, hs.1.blank_not_mem, by simp⟩
  have hhour : h = ['5', '*'] := by
    have hcut : "2024 1 1 * 5* 0 0".toList.splitOn ' '
        = [['2', '0', '2', '4'], ['1'], ['1'], ['*'], ['5', '*'], ['0'], ['0']] := by
      decide +kernel
    rw [hcut] at hsplit
    simp only [List.cons.injEq] at hsplit
    exact hsplit.2.2.2.2.1.symm
  obtain ⟨-, hstar⟩ := FieldSpec.eq_any_of_star_mem hh.1 (by simp [hhour])
  rw [hhour] at hstar
  exact absurd hstar (by decide)

end Times

end CatraLibraries
