/-
# Scanning a text by a format

`sscanf` with formats of `%<width>lu` conversions, literal characters, blanks and `%%`.  A format is
read into its directives (`directives`), and the scan goes through them until one does not match; it
answers the numbers that it has read, and the count that the C function returns is their number.

A conversion reads more than digits: blanks before the number, a sign, and fewer digits than the width
if something else follows.  `Follows` says what a text looks like that the directives match, and
`length_sscanf_iff` that all conversions succeed exactly on these texts.
-/
import CatraLibraries.Lib.Stdio

namespace Stdio

inductive Directive
  | number (width : ℕ)
  | char (c : Char)
  | blanks
  deriving DecidableEq, Repr

/-- The directives of a format, which ends at its NUL. -/
def directives : List Char → List Directive
  | [] => []
  | '%' :: '%' :: fmt => .blanks :: .char '%' :: directives fmt
  | '%' :: d :: 'l' :: 'u' :: fmt => .number (d.toNat - '0'.toNat) :: directives fmt
  | c :: fmt =>
    if c = Char.ofNat 0 then []
    else (if isspace c then .blanks else .char c) :: directives fmt

/-- The numbers that the conversions read before the first directive that does not match. -/
def sscanf : List Directive → List Char → List ℕ
  | [], _ => []
  | .number width :: fmt, s =>
    match scanLu width s with
    | none => []
    | some (n, s) => n :: sscanf fmt s
  | .char c :: fmt, s =>
    match scanChar c s with
    | none => []
    | some s => sscanf fmt s
  | .blanks :: fmt, s => sscanf fmt (s.dropWhile isspace)

/-- The number of conversions. -/
def conversions : List Directive → ℕ
  | [] => 0
  | .number _ :: fmt => conversions fmt + 1
  | .char _ :: fmt => conversions fmt
  | .blanks :: fmt => conversions fmt

/-! ### What a conversion matches -/

/-- Blanks, a sign perhaps, and digits; the sign and the digits fill the width, or no further digit
follows. -/
def IsNumber (width : ℕ) (text rest : List Char) : Prop :=
  ∃ blanks sign ds, text = blanks ++ (sign ++ ds) ∧ (∀ c ∈ blanks, isspace c)
    ∧ (sign = [] ∨ sign = ['+'] ∨ sign = ['-']) ∧ IsNumeral ds
    ∧ sign.length + ds.length ≤ width
    ∧ (sign.length + ds.length = width ∨ ∀ c ∈ rest.head?, ¬ c.isDigit)

/-- The texts that directives match; what is behind them does not matter. -/
def Follows : List Directive → List Char → Prop
  | [], _ => True
  | .number width :: fmt, s => ∃ text rest, s = text ++ rest ∧ IsNumber width text rest
      ∧ Follows fmt rest
  | .char c :: fmt, s => ∃ rest, s = c :: rest ∧ Follows fmt rest
  | .blanks :: fmt, s => Follows fmt (s.dropWhile isspace)

theorem digits_append {ds rest : List Char} (hds : ∀ c ∈ ds, c.isDigit)
    (hrest : ∀ c ∈ rest.head?, ¬ c.isDigit) : digits (ds ++ rest) = ds := by
  unfold digits
  rw [List.takeWhile_append_of_pos hds]
  cases rest with
  | nil => rw [List.takeWhile_nil, List.append_nil]
  | cons c rest =>
    have hc : ¬ c.isDigit = true := hrest c rfl
    rw [List.takeWhile_cons_of_neg hc, List.append_nil]

/-- A text behind its first digits within a width: they fill the width, or no further one follows. -/
theorem digits_take_spec (width : ℕ) (s : List Char) :
    (digits (s.take width)).length ≤ width
      ∧ s = digits (s.take width) ++ s.drop (digits (s.take width)).length
      ∧ ((digits (s.take width)).length = width
        ∨ ∀ c ∈ (s.drop (digits (s.take width)).length).head?, ¬ c.isDigit) := by
  -- the digits, what is left of the width, and the rest
  have hcut : s = digits (s.take width)
      ++ ((s.take width).dropWhile Char.isDigit ++ s.drop width) := by
    rw [← List.append_assoc, digits, List.takeWhile_append_dropWhile, List.take_append_drop]
  have hdrop : s.drop (digits (s.take width)).length
      = (s.take width).dropWhile Char.isDigit ++ s.drop width := by
    have h := congrArg (List.drop (digits (s.take width)).length) hcut
    rwa [List.drop_left] at h
  have hlen : (digits (s.take width)).length ≤ width :=
    (List.takeWhile_prefix _).length_le.trans (List.length_take_le _ _)
  rw [hdrop]
  refine ⟨hlen, hcut, ?_⟩
  have hstop := List.head?_dropWhile_not Char.isDigit (s.take width)
  cases hmore : (s.take width).dropWhile Char.isDigit with
  | cons c more =>
    rw [hmore] at hstop
    right
    intro c' hc'
    obtain rfl := Option.some.inj hc'
    exact Bool.eq_false_iff.mp hstop
  | nil =>
    have hall : digits (s.take width) = s.take width := by
      have h := List.takeWhile_append_dropWhile (p := Char.isDigit) (l := s.take width)
      rwa [hmore, List.append_nil] at h
    rcases Nat.lt_or_ge s.length width with hshort | hlong
    · right
      rw [List.drop_eq_nil_of_le hshort.le]
      intro c hc
      cases hc
    · left
      rw [hall, List.length_take, Nat.min_eq_left hlong]

/-- The other way: these are the digits that are taken. -/
theorem digits_take_append {width : ℕ} {ds rest : List Char} (hds : ∀ c ∈ ds, c.isDigit)
    (hwidth : ds.length ≤ width)
    (hend : ds.length = width ∨ ∀ c ∈ rest.head?, ¬ c.isDigit) :
    digits ((ds ++ rest).take width) = ds := by
  rw [List.take_append, List.take_of_length_le hwidth]
  apply digits_append hds
  intro c hc
  cases hk : width - ds.length with
  | zero =>
    rw [hk] at hc
    cases hc
  | succ k =>
    rw [hk] at hc
    cases rest with
    | nil => cases hc
    | cons a rest => exact hend.resolve_left (by omega) c hc

/-- At most `width` digits are taken, and all there are. -/
theorem scanDigits_eq_some_iff {width : ℕ} {s rest : List Char} :
    (∃ n, scanDigits width s = some (n, rest))
      ↔ ∃ ds, s = ds ++ rest ∧ IsNumeral ds ∧ ds.length ≤ width
        ∧ (ds.length = width ∨ ∀ c ∈ rest.head?, ¬ c.isDigit) := by
  constructor
  · rintro ⟨n, h⟩
    unfold scanDigits at h
    dsimp only at h
    split at h
    · cases h
    · next hne =>
      obtain ⟨-, rfl⟩ := Prod.mk.inj (Option.some.inj h)
      obtain ⟨hlen, hcut, hend⟩ := digits_take_spec width s
      exact ⟨digits (s.take width), hcut, ⟨hne, fun _ hc => List.mem_takeWhile_imp hc⟩, hlen, hend⟩
  · rintro ⟨ds, rfl, hds, hwidth, hend⟩
    refine ⟨min (2 ^ 64 - 1) (decimal ds), ?_⟩
    unfold scanDigits
    dsimp only
    rw [digits_take_append hds.2 hwidth hend, if_neg hds.1, List.drop_left]

/-- The blanks before a number. -/
theorem dropWhile_blanks {blanks s : List Char} (hblanks : ∀ c ∈ blanks, isspace c)
    (hs : ∀ c ∈ s.head?, isspace c = false) : (blanks ++ s).dropWhile isspace = s := by
  rw [List.dropWhile_append_of_pos hblanks]
  cases s with
  | nil => rfl
  | cons c s => exact List.dropWhile_cons_of_neg (Bool.eq_false_iff.mp (hs c rfl))

theorem exists_blanks (s : List Char) :
    ∃ blanks, s = blanks ++ s.dropWhile isspace ∧ ∀ c ∈ blanks, isspace c :=
  ⟨s.takeWhile isspace, List.takeWhile_append_dropWhile.symm,
    fun _ hc => List.mem_takeWhile_imp hc⟩

/-- A sign, if any, is part of the width. -/
theorem isNumber_of_scanDigits {width : ℕ} {blanks sign t rest : List Char}
    (hblanks : ∀ c ∈ blanks, isspace c) (hsign : sign = [] ∨ sign = ['+'] ∨ sign = ['-'])
    (hwidth : sign.length ≤ width) (h : ∃ n, scanDigits (width - sign.length) t = some (n, rest)) :
    ∃ text, blanks ++ (sign ++ t) = text ++ rest ∧ IsNumber width text rest := by
  obtain ⟨ds, rfl, hds, hle, hend⟩ := scanDigits_eq_some_iff.mp h
  refine ⟨blanks ++ (sign ++ ds), ?_, blanks, sign, ds, rfl, hblanks, hsign, hds, ?_, ?_⟩
  · simp only [List.append_assoc]
  · omega
  · exact hend.imp_left (by omega)

theorem exists_isNumber_of_scanLu {width n : ℕ} (hwidth : 0 < width) {s rest : List Char}
    (h : scanLu width s = some (n, rest)) :
    ∃ text, s = text ++ rest ∧ IsNumber width text rest := by
  obtain ⟨blanks, hs, hblanks⟩ := exists_blanks s
  unfold scanLu at h
  split at h
  · next t ht =>
    obtain ⟨⟨m, t'⟩, hscan, hmap⟩ := Option.map_eq_some_iff.mp h
    obtain ⟨-, rfl⟩ := Prod.mk.inj hmap
    rw [hs, ht]
    exact isNumber_of_scanDigits hblanks (.inr (.inr rfl)) hwidth ⟨m, hscan⟩
  · next t ht =>
    rw [hs, ht]
    exact isNumber_of_scanDigits hblanks (.inr (.inl rfl)) hwidth ⟨n, h⟩
  · rw [hs]
    exact isNumber_of_scanDigits hblanks (.inl rfl) (Nat.zero_le width) ⟨n, h⟩

/-- The blanks before a number are skipped up to its sign or its first digit. -/
theorem dropWhile_number {blanks sign ds : List Char} (rest : List Char)
    (hblanks : ∀ c ∈ blanks, isspace c) (hsign : sign = [] ∨ sign = ['+'] ∨ sign = ['-'])
    (hds : IsNumeral ds) :
    (blanks ++ (sign ++ ds) ++ rest).dropWhile isspace = sign ++ (ds ++ rest) := by
  rw [List.append_assoc, List.append_assoc]
  apply dropWhile_blanks hblanks
  intro c hc
  rcases hsign with rfl | rfl | rfl
  · obtain ⟨d, ds', rfl⟩ := List.exists_cons_of_ne_nil hds.1
    obtain rfl := Option.some.inj hc
    exact isDigit_not_isspace (hds.2 d List.mem_cons_self)
  · obtain rfl := Option.some.inj hc
    rfl
  · obtain rfl := Option.some.inj hc
    rfl

theorem scanLu_of_isNumber {width : ℕ} {text rest : List Char} (h : IsNumber width text rest) :
    ∃ n, scanLu width (text ++ rest) = some (n, rest) := by
  obtain ⟨blanks, sign, ds, rfl, hblanks, hsign, hds, hle, hend⟩ := h
  obtain ⟨n, hscan⟩ : ∃ n, scanDigits (width - sign.length) (ds ++ rest) = some (n, rest) :=
    scanDigits_eq_some_iff.mpr ⟨ds, rfl, hds, by omega, hend.imp_left (by omega)⟩
  unfold scanLu
  rw [dropWhile_number rest hblanks hsign hds]
  rcases hsign with rfl | rfl | rfl
  · obtain ⟨d, ds', rfl⟩ := List.exists_cons_of_ne_nil hds.1
    have hd : d.isDigit = true := hds.2 d List.mem_cons_self
    refine ⟨n, ?_⟩
    -- a digit is none of the signs
    rw [List.nil_append]
    split
    · next heq => exact absurd (List.cons.inj heq).1 (isDigit_ne hd rfl)
    · next heq => exact absurd (List.cons.inj heq).1 (isDigit_ne hd rfl)
    · exact hscan
  · exact ⟨n, hscan⟩
  · refine ⟨(2 ^ 64 - n) % 2 ^ 64, ?_⟩
    show (scanDigits (width - 1) (ds ++ rest)).map _ = _
    rw [show scanDigits (width - 1) (ds ++ rest) = some (n, rest) from hscan]
    rfl

/-- **What a conversion reads.** -/
theorem scanLu_eq_some_iff {width : ℕ} (hwidth : 0 < width) {s rest : List Char} :
    (∃ n, scanLu width s = some (n, rest)) ↔ ∃ text, s = text ++ rest
      ∧ IsNumber width text rest := by
  constructor
  · rintro ⟨n, h⟩
    exact exists_isNumber_of_scanLu hwidth h
  · rintro ⟨text, rfl, h⟩
    exact scanLu_of_isNumber h

/-! ### What a format matches -/

theorem scanChar_eq_some_iff {c : Char} {s rest : List Char} :
    scanChar c s = some rest ↔ s = c :: rest := by
  constructor
  · intro h
    cases s with
    | nil => cases h
    | cons a s =>
      rw [scanChar] at h
      split at h
      · next heq => rw [heq, Option.some.inj h]
      · cases h
  · rintro rfl
    exact scanChar_self c rest

section

attribute [local simp] sscanf conversions

theorem length_sscanf_le (fmt : List Directive) (s : List Char) :
    (sscanf fmt s).length ≤ conversions fmt := by
  induction fmt generalizing s with
  | nil => exact Nat.zero_le _
  | cons directive fmt ih =>
    cases directive with
    | number width =>
      rw [sscanf]
      split
      · exact Nat.zero_le _
      · exact Nat.succ_le_succ (ih _)
    | char c =>
      rw [sscanf]
      split
      · exact Nat.zero_le _
      · exact ih _
    | blanks => exact ih _

end

/-- Directives behind the last conversion do not count. -/
theorem length_sscanf_append {behind : List Directive} (h : conversions behind = 0)
    (fmt : List Directive) (s : List Char) :
    (sscanf (fmt ++ behind) s).length = (sscanf fmt s).length := by
  induction fmt generalizing s with
  | nil =>
    have hle := length_sscanf_le behind s
    rw [List.nil_append, sscanf, List.length_nil]
    omega
  | cons directive fmt ih =>
    cases directive with
    | number width =>
      rw [List.cons_append, sscanf, sscanf]
      split
      · rfl
      · exact congrArg Nat.succ (ih _)
    | char c =>
      rw [List.cons_append, sscanf, sscanf]
      split
      · rfl
      · exact ih _
    | blanks => exact ih _

/-- Every directive is before a conversion, or is one. -/
def EndsInNumber : List Directive → Prop
  | [] => True
  | .number width :: fmt => 0 < width ∧ EndsInNumber fmt
  | .char _ :: fmt => 0 < conversions fmt ∧ EndsInNumber fmt
  | .blanks :: fmt => EndsInNumber fmt

/-- **All conversions succeed** exactly on the texts that the directives match. -/
theorem length_sscanf_iff {fmt : List Directive} (hfmt : EndsInNumber fmt) (s : List Char) :
    (sscanf fmt s).length = conversions fmt ↔ Follows fmt s := by
  induction fmt generalizing s with
  | nil => exact iff_of_true rfl trivial
  | cons directive fmt ih =>
    cases directive with
    | number width =>
      obtain ⟨hwidth, hfmt⟩ := hfmt
      rw [sscanf, Follows, conversions]
      constructor
      · intro h
        split at h
        · cases h
        · next n rest hscan =>
          obtain ⟨text, htext, hnumber⟩ := (scanLu_eq_some_iff hwidth).mp ⟨n, hscan⟩
          exact ⟨text, rest, htext, hnumber, (ih hfmt rest).mp (Nat.succ.inj h)⟩
      · rintro ⟨text, rest, htext, hnumber, hrest⟩
        obtain ⟨n, hscan⟩ := (scanLu_eq_some_iff hwidth).mpr ⟨text, htext, hnumber⟩
        rw [hscan]
        exact congrArg Nat.succ ((ih hfmt rest).mpr hrest)
    | char c =>
      obtain ⟨hmore, hfmt⟩ := hfmt
      rw [sscanf, Follows, conversions]
      constructor
      · intro h
        split at h
        · rw [List.length_nil] at h
          omega
        · next rest hscan =>
          exact ⟨rest, scanChar_eq_some_iff.mp hscan, (ih hfmt rest).mp h⟩
      · rintro ⟨rest, rfl, hrest⟩
        rw [scanChar_self]
        exact (ih hfmt rest).mpr hrest
    | blanks => exact ih hfmt _

/-! ### Reading what was printed -/

theorem sscanf_number_printLu {width n : ℕ} (fmt : List Directive) (rest : List Char)
    (hwidth : 0 < width) (hn : n < 10 ^ width) (hfits : n < 2 ^ 64) :
    sscanf (.number width :: fmt) (printLu width n ++ rest) = n :: sscanf fmt rest := by
  rw [sscanf, scanLu_printLu rest hwidth hn hfits]

theorem sscanf_char_self (c : Char) (fmt : List Directive) (rest : List Char) :
    sscanf (.char c :: fmt) (c :: rest) = sscanf fmt rest := by
  rw [sscanf, scanChar_self]

end Stdio
