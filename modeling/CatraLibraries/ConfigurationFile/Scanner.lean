/-
# The scanner of configuration files

`ConfigurationFile/src/configurationScanner.ll`: the tokens of a configuration file and the rules
that make them, in the order of the file.  Comments, quoted strings, bare strings and dates compete
for the longest match; of two that match the same piece the first one is taken.

The lemmas say where a piece of each kind ends.
-/
import CatraLibraries.Lib.Lexer
import Mathlib.Tactic.Common

namespace CatraLibraries

namespace ConfigurationFile

open Lexer

/-- The tokens, with the text in their `pBuffer`; `char` is a character that stands for itself. -/
inductive Token
  | string (pBuffer : List Char)
  | itemComment (pBuffer : List Char)
  | sectionComment (pBuffer : List Char)
  | sectionDate (pBuffer : List Char)
  | sectionBegin
  | sectionEnd
  | itemsListBegin
  | itemsListEnd
  | sectionDateBegin
  | sectionDateEnd
  | char (c : Char)
  deriving DecidableEq, Repr

/-! ### The patterns -/

/-- The characters of a `string`. -/
def stringChar (c : Char) : Bool :=
  c ∉ ['\n', '\r', '[', ']', '{', '}', '=', '#', ',', ' ', '\t']

/-- The characters in a `quotedString`. -/
def quotedChar (c : Char) : Bool := c ∉ ['\n', '\r', '[', ']', '{', '}', '=', '#']

/-- The characters of a comment. -/
def commentChar (c : Char) : Bool := c ≠ '\n' ∧ c ≠ '#'

def isChar (c : Char) (w : List Char) : Bool := w = [c]

def isDate : List Char → Bool
  | [y₁, y₂, y₃, y₄, '/', m₁, m₂, '/', d₁, d₂] =>
    y₁.isDigit && y₂.isDigit && y₃.isDigit && y₄.isDigit && m₁.isDigit && m₂.isDigit &&
      d₁.isDigit && d₂.isDigit
  | _ => false

def isQuotedString : List Char → Bool
  | '"' :: w => w.getLast? = some '"' ∧ w.dropLast.all quotedChar
  | _ => false

def isString (w : List Char) : Bool := w.all stringChar

def isItemComment : List Char → Bool
  | '#' :: '#' :: w => w.all commentChar
  | _ => false

def isSectionComment : List Char → Bool
  | '#' :: w => w.all commentChar
  | _ => false

def isSpace (w : List Char) : Bool := w = [' '] ∨ w = ['\t']

def isOtherExceptNewLine : List Char → Bool
  | [c] => c ≠ '\n'
  | _ => false

/-! ### The rules -/

/-- `token (yytext [0])`. -/
def firstChar : List Char → Option Token
  | [] => none
  | c :: _ => some (.char c)

/-- The text between the quotes. -/
def quotedStringRule : Rule Token := ⟨isQuotedString, fun w => some (.string w.tail.dropLast)⟩

def stringRule : Rule Token := ⟨isString, fun w => some (.string w)⟩

def dateRule : Rule Token := ⟨isDate, fun w => some (.sectionDate w)⟩

def itemCommentRule : Rule Token := ⟨isItemComment, fun w => some (.itemComment (w.drop 2))⟩

def sectionCommentRule : Rule Token := ⟨isSectionComment, fun w => some (.sectionComment (w.drop 1))⟩

/-- The rules in their order. -/
def rules : List (Rule Token) :=
  [⟨isChar '=', firstChar⟩,
   ⟨isChar '(', fun _ => some .sectionDateBegin⟩,
   ⟨isChar ')', fun _ => some .sectionDateEnd⟩,
   ⟨isChar '[', fun _ => some .sectionBegin⟩,
   ⟨isChar ']', fun _ => some .sectionEnd⟩,
   ⟨isChar '{', fun _ => some .itemsListBegin⟩,
   ⟨isChar '}', fun _ => some .itemsListEnd⟩,
   dateRule,
   quotedStringRule,
   stringRule,
   itemCommentRule,
   sectionCommentRule,
   ⟨isChar ',', firstChar⟩,
   ⟨isSpace, fun _ => none⟩,
   ⟨isChar '\r', fun _ => none⟩,
   ⟨isChar '\n', fun _ => none⟩,
   ⟨isOtherExceptNewLine, firstChar⟩]

/-- `yylex`, called to the end of the text.  What it looks at for one match has fewer than 16382
characters here: so many fill the buffer of flex, and `myInput`, asked for one more, ends the file. -/
def yylex (text : List Char) : List Token := scan rules text

/-! ### Pieces that no rule matches -/

variable {c : Char} {w rest : List Char}

/-- Only five of the rules match more than one character. -/
theorem ruleFor_eq_none (hlen : 2 ≤ w.length) (hdate : isDate w = false)
    (hquoted : isQuotedString w = false) (hstring : isString w = false)
    (hitem : isItemComment w = false) (hsection : isSectionComment w = false) :
    ruleFor rules w = none := by
  obtain ⟨a, b, v, rfl⟩ : ∃ a b v, w = a :: b :: v := by
    match w, hlen with
    | a :: b :: v, _ => exact ⟨a, b, v, rfl⟩
  have hchar : ∀ c, isChar c (a :: b :: v) = false := fun c => by simp [isChar]
  have hspace : isSpace (a :: b :: v) = false := by simp [isSpace]
  unfold ruleFor rules dateRule quotedStringRule stringRule itemCommentRule sectionCommentRule
  simp only [List.find?_cons, hchar, hspace, hdate, hquoted, hstring, hitem, hsection,
    isOtherExceptNewLine, List.find?_nil]

/-- A date is made of digits and slashes. -/
theorem isDate_all (h : isDate w = true) : w.length = 10 ∧ ∀ c ∈ w, c.isDigit ∨ c = '/' := by
  unfold isDate at h
  split at h
  · simp only [Bool.and_eq_true] at h
    refine ⟨rfl, ?_⟩
    simp only [List.mem_cons, List.not_mem_nil, or_false]
    rintro c (rfl | rfl | rfl | rfl | rfl | rfl | rfl | rfl | rfl | rfl)
    all_goals simp [h]
  · cases h

/-- A date is a string of characters that a bare string may have. -/
theorem isString_of_isDate (h : isDate w = true) : isString w = true := by
  have hall := (isDate_all h).2
  unfold isString
  rw [List.all_eq_true]
  intro c hc
  unfold stringChar
  rcases hall c hc with hdigit | rfl
  · simp only [List.mem_cons, List.not_mem_nil, or_false, decide_not, Bool.not_eq_true',
      decide_eq_false_iff_not]
    rintro (rfl | rfl | rfl | rfl | rfl | rfl | rfl | rfl | rfl | rfl | rfl)
    all_goals exact absurd hdigit (by decide)
  · decide

theorem isString_append_cons (hc : stringChar c = false) (v : List Char) :
    isString (w ++ c :: v) = false := by
  unfold isString
  rw [List.all_append, List.all_cons, hc, Bool.false_and, Bool.and_false]

theorem isDate_append_cons (hc : stringChar c = false) (v : List Char) :
    isDate (w ++ c :: v) = false := by
  by_contra h
  have := isString_of_isDate (Bool.not_eq_false _ ▸ h)
  rw [isString_append_cons hc] at this
  cases this

/-- A quoted string begins with a quote. -/
theorem isQuotedString_of_head (hc : c ≠ '"') : isQuotedString (c :: w) = false := by
  unfold isQuotedString
  split
  · next heq =>
    cases heq
    exact absurd rfl hc
  · rfl

theorem isComment_of_head (hc : c ≠ '#') :
    isItemComment (c :: w) = false ∧ isSectionComment (c :: w) = false := by
  constructor
  · unfold isItemComment
    split
    · next heq =>
      cases heq
      exact absurd rfl hc
    · rfl
  · unfold isSectionComment
    split
    · next heq =>
      cases heq
      exact absurd rfl hc
    · rfl

/-- **A bare piece ends at a character that no bare string has.** -/
theorem ends_bare {a d : Char} (ha : a ≠ '"') (ha' : a ≠ '#') (hd : stringChar d = false) :
    Ends rules (a :: w) (d :: rest) := by
  intro v hv hpre
  obtain ⟨e, v, rfl⟩ := List.exists_cons_of_ne_nil hv
  obtain ⟨rfl, -⟩ := List.cons_prefix_cons.mp hpre
  have hcomment := isComment_of_head (w := w ++ e :: v) ha'
  apply ruleFor_eq_none
  · simp only [List.cons_append, List.length_cons, List.length_append]
    omega
  · exact isDate_append_cons hd v
  · exact isQuotedString_of_head ha
  · exact isString_append_cons hd v
  · exact hcomment.1
  · exact hcomment.2

end ConfigurationFile

end CatraLibraries
