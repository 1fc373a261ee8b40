/-
# Numbers and tokens in C text

The parts of `<stdlib.h>`, `<string.h>` and `<stdio.h>` that read and print decimal numbers
and cut a text into tokens.  A text is the list of its characters before the NUL, one byte
each; a `long` and an `unsigned long` have 64 bits.

Where the C standard leaves `atol` undefined, on a number that does not fit, the definition
follows `strtol`, which gives the nearest `long`.
-/
import Mathlib.Algebra.Group.Int.Defs
import Mathlib.Algebra.Group.Nat.Defs
import Mathlib.Data.List.Basic
import Mathlib.Data.List.TakeWhile

namespace Stdio

/-- `isspace` in the C locale. -/
def isspace (c : Char) : Bool := c = ' ' || (9 ≤ c.toNat && c.toNat ≤ 13)

/-- The digits at the start of a text. -/
def digits (s : List Char) : List Char := s.takeWhile Char.isDigit

/-- The number that decimal digits write. -/
def decimal (ds : List Char) : Nat := Nat.ofDigitChars 10 ds 0

def longMax : Int := 2 ^ 63 - 1

def longMin : Int := - 2 ^ 63

/-- `atol`: blanks, a sign, digits; 0 where no digit comes. -/
def atol (s : List Char) : Int :=
  match s.dropWhile isspace with
  | '-' :: s => max longMin (-(decimal (digits s) : Int))
  | '+' :: s => min longMax (decimal (digits s))
  | s => min longMax (decimal (digits s))

/-- The tokens that successive calls of `strtok_r` cut out of a text. -/
def strtok (sep : Char) (s : List Char) : List (List Char) :=
  (s.splitOn sep).filter (· ≠ [])

/-- At most `width` digits, for the conversion below. -/
def scanDigits (width : Nat) (s : List Char) : Option (Nat × List Char) :=
  let ds := digits (s.take width)
  if ds = [] then none else some (min (2 ^ 64 - 1) (decimal ds), s.drop ds.length)

/-- The conversion `%<width>lu` of `sscanf`: the number read and the rest of the text, or the
matching failure.  A sign counts for the width, and a minus gives the negative number as an
`unsigned long`. -/
def scanLu (width : Nat) (s : List Char) : Option (Nat × List Char) :=
  match s.dropWhile isspace with
  | '-' :: s => (scanDigits (width - 1) s).map fun (n, s) => ((2 ^ 64 - n) % 2 ^ 64, s)
  | '+' :: s => scanDigits (width - 1) s
  | s => scanDigits width s

/-- The conversion `%<width>ld` of `sscanf`. -/
def scanLd (width : Nat) (s : List Char) : Option (Int × List Char) :=
  match s.dropWhile isspace with
  | '-' :: s => (scanDigits (width - 1) s).map fun (n, s) => (max longMin (-(n : Int)), s)
  | '+' :: s => (scanDigits (width - 1) s).map fun (n, s) => (min longMax n, s)
  | s => (scanDigits width s).map fun (n, s) => (min longMax n, s)

/-- A character of the format that `sscanf` has to find in the text. -/
def scanChar (c : Char) : List Char → Option (List Char)
  | [] => none
  | c' :: s => if c' = c then some s else none

/-- The conversion `%0<width>lu` of `sprintf`. -/
def printLu (width n : Nat) : List Char := (Nat.toDigits 10 n).leftpad width '0'

/-- The conversion `%lld` of `sprintf`. -/
def printLld (n : Int) : List Char :=
  if n < 0 then '-' :: Nat.toDigits 10 n.natAbs else Nat.toDigits 10 n.natAbs

/-- `strcmp (s, t) <= 0`. -/
def strcmpLe : List Char → List Char → Bool
  | [], _ => true
  | _ :: _, [] => false
  | c :: s, d :: t => if c = d then strcmpLe s t else c < d

/-! ### Cutting a text -/

theorem length_splitOn (sep : Char) (s : List Char) :
    (s.splitOn sep).length = s.count sep + 1 := by
  induction s with
  | nil => rfl
  | cons c s ih =>
    rw [List.splitOn_cons_eq_if_modifyHead]
    by_cases hc : c = sep
    · simp [hc, ih]
    · simp [hc, ih]

theorem not_mem_of_mem_splitOn {sep : Char} {s part : List Char} (h : part ∈ s.splitOn sep) :
    sep ∉ part := by
  induction s generalizing part with
  | nil =>
    obtain rfl : part = [] := by simpa using h
    simp
  | cons c s ih =>
    rw [List.splitOn_cons_eq_if_modifyHead] at h
    split_ifs at h with hc
    · rcases List.mem_cons.mp h with rfl | h
      · simp
      · exact ih h
    · obtain ⟨p, ps, hsplit⟩ := List.exists_cons_of_ne_nil (List.splitOn_ne_nil sep s)
      rw [hsplit, List.modifyHead_cons] at h
      rcases List.mem_cons.mp h with rfl | h
      · have hp : sep ∉ p := ih (by simp [hsplit])
        have hne : sep ≠ c := fun heq => hc (by simp [heq])
        simp [hne, hp]
      · exact ih (by simp [hsplit, h])

/-- A character of a joined text is the separator or stands in one of the parts. -/
theorem mem_of_mem_intercalate {sep ch : Char} {parts : List (List Char)}
    (h : ch ∈ [sep].intercalate parts) : ch = sep ∨ ∃ part ∈ parts, ch ∈ part := by
  induction parts with
  | nil => exact absurd h (by simp [List.intercalate])
  | cons part parts ih =>
    cases parts with
    | nil => exact .inr ⟨part, by simp, by simpa [List.intercalate] using h⟩
    | cons next rest =>
      have hcons : [sep].intercalate (part :: next :: rest)
          = part ++ sep :: [sep].intercalate (next :: rest) := by simp [List.intercalate]
      rw [hcons] at h
      rcases List.mem_append.mp h with h | h
      · exact .inr ⟨part, by simp, h⟩
      · rcases List.mem_cons.mp h with h | h
        · exact .inl h
        · obtain h | ⟨p, hp, hmem⟩ := ih h
          · exact .inl h
          · exact .inr ⟨p, List.mem_cons_of_mem _ hp, hmem⟩

/-- The tokens of a text with as many tokens as its separators allow are its parts. -/
theorem strtok_eq_splitOn {sep : Char} {s : List Char}
    (h : s.count sep + 1 ≤ (strtok sep s).length) : strtok sep s = s.splitOn sep := by
  apply List.filter_sublist.eq_of_length_le
  rwa [length_splitOn]

/-! ### Numerals -/

/-- A numeral: digits, at least one. -/
def IsNumeral (s : List Char) : Prop := s ≠ [] ∧ ∀ c ∈ s, c.isDigit

theorem isDigit_not_isspace {c : Char} (h : c.isDigit) : isspace c = false := by
  unfold Char.isDigit at h
  unfold isspace
  have hne : c ≠ ' ' := by rintro rfl; exact absurd h (by decide)
  have hge : 48 ≤ c.toNat := by
    simp only [Bool.and_eq_true, decide_eq_true_eq, ge_iff_le] at h
    exact h.1
  simp only [hne, decide_false, Bool.false_or, Bool.and_eq_false_imp, decide_eq_true_eq,
    decide_eq_false_iff_not]
  omega

theorem isDigit_ne {c d : Char} (h : c.isDigit) (hd : d.isDigit = false) : c ≠ d := by
  rintro rfl; exact absurd h (by simp [hd])

theorem digits_numeral {s : List Char} (h : IsNumeral s) : digits s = s :=
  List.takeWhile_eq_self_iff.mpr h.2

/-- Text that starts with a digit has no blank and no sign to skip. -/
theorem dropWhile_isspace {c : Char} (s : List Char) (h : c.isDigit) :
    (c :: s).dropWhile isspace = c :: s := by
  rw [List.dropWhile_cons_of_neg]
  simp [isDigit_not_isspace h]

/-- `atol` reads a numeral, and takes the greatest `long` for one that does not fit. -/
theorem atol_eq_min {s : List Char} (h : IsNumeral s) : atol s = min longMax (decimal s) := by
  obtain ⟨c, s', rfl⟩ := List.exists_cons_of_ne_nil h.1
  have hc : c.isDigit := h.2 c (by simp)
  have hminus : c ≠ '-' := isDigit_ne hc rfl
  have hplus : c ≠ '+' := isDigit_ne hc rfl
  unfold atol
  rw [dropWhile_isspace s' hc]
  split
  · next heq => exact absurd (List.cons.inj heq).1 hminus
  · next heq => exact absurd (List.cons.inj heq).1 hplus
  · rw [digits_numeral h]

/-- `atol` reads a numeral that fits. -/
theorem atol_numeral {s : List Char} (h : IsNumeral s) (hfits : (decimal s : Int) ≤ longMax) :
    atol s = decimal s := by
  rw [atol_eq_min h]
  exact Int.min_eq_right hfits

/-! ### Reading back what was printed -/

theorem length_printLu {width n : Nat} (hw : 0 < width) (hn : n < 10 ^ width) :
    (printLu width n).length = width := by
  have hlen := (Nat.length_toDigits_le_iff (b := 10) (n := n) (by decide) hw).mpr hn
  unfold printLu List.leftpad
  simp only [List.length_append, List.length_replicate]
  omega

/-- A number that does not fit is printed wider. -/
theorem lt_length_printLu {width n : Nat} (hw : 0 < width) (hn : 10 ^ width ≤ n) :
    width < (printLu width n).length := by
  have hlen := (Nat.length_toDigits_le_iff (b := 10) (n := n) (by decide) hw).not.mpr
    (Nat.not_lt.mpr hn)
  unfold printLu List.leftpad
  simp only [List.length_append, List.length_replicate]
  omega

theorem le_length_printLu {width : Nat} (hw : 0 < width) (n : Nat) :
    width ≤ (printLu width n).length := by
  rcases Nat.lt_or_ge n (10 ^ width) with h | h
  · exact Nat.le_of_eq (length_printLu hw h).symm
  · exact Nat.le_of_lt (lt_length_printLu hw h)

theorem printLu_isNumeral (width n : Nat) : IsNumeral (printLu width n) := by
  refine ⟨fun h => ?_, fun c hc => ?_⟩
  · exact Nat.toDigits_ne_nil (List.append_eq_nil_iff.mp h).2
  · rcases List.mem_append.mp hc with hpad | hdigit
    · rw [List.eq_of_mem_replicate hpad]; rfl
    · exact Nat.isDigit_of_mem_toDigits (by decide) (by decide) hdigit

theorem nul_notMem_printLu (width n : Nat) : Char.ofNat 0 ∉ printLu width n := by
  intro hmem
  exact absurd ((printLu_isNumeral width n).2 _ hmem) (by decide)

theorem nul_notMem_toDigits (n : Nat) : Char.ofNat 0 ∉ Nat.toDigits 10 n := by
  intro hmem
  exact absurd (Nat.isDigit_of_mem_toDigits (by decide) (by decide) hmem) (by decide)

theorem nul_notMem_printLld (n : Int) : Char.ofNat 0 ∉ printLld n := by
  unfold printLld
  split
  · exact List.not_mem_cons_of_ne_of_not_mem (by decide) (nul_notMem_toDigits _)
  · exact nul_notMem_toDigits _

/-- The bytes of the digits are no zeros. -/
theorem zero_notMem_toDigits (n : Nat) :
    0 ∉ (Nat.toDigits 10 n).map fun c => UInt8.ofNat c.toNat := by
  intro h
  obtain ⟨c, hc, hzero⟩ := List.mem_map.mp h
  have hdigit := Nat.isDigit_of_mem_toDigits (by decide) (by decide) hc
  unfold Char.isDigit at hdigit
  simp only [Bool.and_eq_true, decide_eq_true_eq, ge_iff_le] at hdigit
  have hlow : 48 ≤ c.toNat := hdigit.1
  have hhigh : c.toNat ≤ 57 := hdigit.2
  have := congrArg UInt8.toNat hzero
  rw [UInt8.toNat_ofNat', Nat.mod_eq_of_lt (by omega)] at this
  simp at this
  omega

theorem zero_notMem_printLld (n : Int) : 0 ∉ (printLld n).map fun c => UInt8.ofNat c.toNat := by
  unfold printLld
  split
  · rw [List.map_cons, List.mem_cons, not_or]
    exact ⟨by decide, zero_notMem_toDigits _⟩
  · exact zero_notMem_toDigits _

/-- A number of 64 bits has at most 20 digits. -/
theorem length_toDigits_le {n : Nat} (hn : n < 10 ^ 20) : (Nat.toDigits 10 n).length ≤ 20 :=
  (Nat.length_toDigits_le_iff (by decide) (by decide)).mpr hn

theorem length_printLld_le {n : Int} (hn : n.natAbs < 10 ^ 20) : (printLld n).length ≤ 21 := by
  have hdigits := length_toDigits_le hn
  unfold printLld
  split
  · rw [List.length_cons]
    omega
  · omega

theorem decimal_printLu (width n : Nat) : decimal (printLu width n) = n := by
  unfold decimal printLu List.leftpad
  rw [Nat.ofDigitChars_append, Nat.ofDigitChars_replicate_zero, Nat.mul_zero,
    Nat.ofDigitChars_ten_toDigits]

/-- **`%0wlu` and `%wlu` are inverse**, for a number that fits into the width. -/
theorem scanLu_printLu {width n : Nat} (rest : List Char) (hw : 0 < width) (hn : n < 10 ^ width)
    (hfits : n < 2 ^ 64) : scanLu width (printLu width n ++ rest) = some (n, rest) := by
  have hnum := printLu_isNumeral width n
  have hlen := length_printLu hw hn
  have hdec := decimal_printLu width n
  generalize printLu width n = ds at *
  have hscan : scanDigits width (ds ++ rest) = some (n, rest) := by
    unfold scanDigits
    rw [← hlen, List.take_left, digits_numeral hnum]
    dsimp only
    rw [if_neg hnum.1, List.drop_left, hdec, Nat.min_eq_right (by omega)]
  obtain ⟨c, ds', rfl⟩ := List.exists_cons_of_ne_nil hnum.1
  have hc : c.isDigit := hnum.2 c (by simp)
  have hminus : c ≠ '-' := isDigit_ne hc rfl
  have hplus : c ≠ '+' := isDigit_ne hc rfl
  unfold scanLu
  rw [List.cons_append, dropWhile_isspace _ hc]
  split
  · next heq => exact absurd (List.cons.inj heq).1 hminus
  · next heq => exact absurd (List.cons.inj heq).1 hplus
  · exact hscan

theorem scanLu_printLu_end {width n : Nat} (hw : 0 < width) (hn : n < 10 ^ width)
    (hfits : n < 2 ^ 64) : scanLu width (printLu width n) = some (n, []) := by
  have h := scanLu_printLu [] hw hn hfits
  rwa [List.append_nil] at h

theorem scanChar_self (c : Char) (rest : List Char) : scanChar c (c :: rest) = some rest :=
  if_pos rfl

theorem dropWhile_isspace_printLu (width n : Nat) (rest : List Char) :
    (printLu width n ++ rest).dropWhile isspace = printLu width n ++ rest := by
  have hnum := printLu_isNumeral width n
  obtain ⟨c, ds, heq⟩ := List.exists_cons_of_ne_nil hnum.1
  rw [heq, List.cons_append]
  exact dropWhile_isspace _ (hnum.2 c (by simp [heq]))

/-- The blank before a printed number is skipped. -/
theorem dropWhile_blank_printLu (width n : Nat) (rest : List Char) :
    (' ' :: (printLu width n ++ rest)).dropWhile isspace = printLu width n ++ rest := by
  rw [List.dropWhile_cons_of_pos (by decide), dropWhile_isspace_printLu]

/-- A conversion that succeeds hands its result to the next one. -/
theorem bind_of_eq_some {α β : Type} {x : Option α} {a : α} (h : x = some a) (f : α → Option β) :
    (x >>= f) = f a := by
  rw [h]
  rfl

/-! ### The order of the texts -/

theorem decimal_cons (c : Char) (s : List Char) :
    decimal (c :: s) = (c.toNat - '0'.toNat) * 10 ^ s.length + decimal s := by
  unfold decimal
  rw [Nat.ofDigitChars_cons, Nat.ofDigitChars_eq_ofDigitChars_zero]
  rw [Nat.mul_zero, Nat.zero_add, Nat.mul_comm]

theorem isDigit_bounds {c : Char} (h : c.isDigit) : 48 ≤ c.toNat ∧ c.toNat ≤ 57 := by
  unfold Char.isDigit at h
  simp only [Bool.and_eq_true, decide_eq_true_eq, ge_iff_le] at h
  exact h

/-- A greater leading digit makes a greater number. -/
theorem lead_lt {x y p a b : Nat} (hxy : x < y) (ha : a < p) : x * p + a < y * p + b := by
  have hmul := Nat.mul_le_mul_right p (Nat.succ_le_of_lt hxy)
  rw [Nat.succ_mul] at hmul
  omega

theorem decimal_lt {s : List Char} (h : ∀ c ∈ s, c.isDigit) : decimal s < 10 ^ s.length := by
  induction s with
  | nil => exact Nat.one_pos
  | cons c s ih =>
    have hs := ih fun c hc => h c (List.mem_cons_of_mem _ hc)
    have hc := isDigit_bounds (h c List.mem_cons_self)
    have hdigit : c.toNat - '0'.toNat ≤ 9 := by
      show c.toNat - 48 ≤ 9
      omega
    rw [decimal_cons, List.length_cons, Nat.pow_succ]
    have hmul := Nat.mul_le_mul_right (10 ^ s.length) hdigit
    omega

/-- Numerals of one length are ordered as their numbers are. -/
theorem strcmpLe_numerals {a b : List Char} (hlen : a.length = b.length)
    (ha : ∀ c ∈ a, c.isDigit) (hb : ∀ c ∈ b, c.isDigit) (s t : List Char) :
    strcmpLe (a ++ s) (b ++ t)
      = if decimal a = decimal b then strcmpLe s t else decide (decimal a < decimal b) := by
  induction a generalizing b with
  | nil =>
    obtain rfl := List.length_eq_zero_iff.mp hlen.symm
    simp
  | cons c a ih =>
    obtain ⟨d, b, rfl⟩ := List.exists_cons_of_length_eq_add_one hlen.symm
    replace hlen : a.length = b.length := Nat.succ.inj hlen
    have ha' : ∀ c ∈ a, c.isDigit := fun c hc => ha c (List.mem_cons_of_mem _ hc)
    have hb' : ∀ c ∈ b, c.isDigit := fun c hc => hb c (List.mem_cons_of_mem _ hc)
    have hc := isDigit_bounds (ha c List.mem_cons_self)
    have hd := isDigit_bounds (hb d List.mem_cons_self)
    have hla := decimal_lt ha'
    have hlb := decimal_lt hb'
    rw [List.cons_append, List.cons_append, strcmpLe, decimal_cons, decimal_cons, hlen]
    rw [hlen] at hla
    by_cases heq : c = d
    · subst heq
      rw [if_pos rfl, ih hlen ha' hb']
      simp
    · -- the first digits decide
      have hne : c.toNat ≠ d.toNat := fun h => heq (Char.toNat_inj.mp h)
      have hlt : c < d ↔ c.toNat < d.toNat := Iff.rfl
      rw [if_neg heq]
      show decide (c < d) = if (c.toNat - 48) * _ + _ = (d.toNat - 48) * _ + _ then _
        else decide ((c.toNat - 48) * _ + _ < (d.toNat - 48) * _ + _)
      rcases Nat.lt_or_gt_of_ne hne with h | h
      · have hless := lead_lt (b := decimal b) (show c.toNat - 48 < d.toNat - 48 by omega) hla
        rw [if_neg (Nat.ne_of_lt hless), decide_eq_true hless, decide_eq_true (hlt.mpr h)]
      · have hless := lead_lt (b := decimal a) (show d.toNat - 48 < c.toNat - 48 by omega) hlb
        rw [if_neg (Nat.ne_of_gt hless), decide_eq_false (Nat.not_lt.mpr (Nat.le_of_lt hless)),
          decide_eq_false fun hcd => absurd (hlt.mp hcd) (Nat.not_lt.mpr (Nat.le_of_lt h))]

/-- **Printed numbers of one width are ordered as the numbers.** -/
theorem strcmpLe_printLu {width m n : Nat} (hw : 0 < width) (hm : m < 10 ^ width)
    (hn : n < 10 ^ width) (s t : List Char) :
    strcmpLe (printLu width m ++ s) (printLu width n ++ t)
      = if m = n then strcmpLe s t else decide (m < n) := by
  have h := strcmpLe_numerals ((length_printLu hw hm).trans (length_printLu hw hn).symm)
    (printLu_isNumeral width m).2 (printLu_isNumeral width n).2 s t
  rwa [decimal_printLu, decimal_printLu] at h

theorem strcmpLe_cons (c : Char) (s t : List Char) :
    strcmpLe (c :: s) (c :: t) = strcmpLe s t :=
  if_pos rfl

end Stdio
