/-
# The pieces of a configuration file

What the scanner makes of the pieces that a configuration is written with: single characters,
quoted names, bare names and comments.  A bare name is a `string` unless it is a parenthesis or has
the form of a date; a comma cuts it.
-/
import CatraLibraries.ConfigurationFile.Scanner

namespace CatraLibraries

namespace ConfigurationFile

open Lexer

variable {c d : Char} {w p text rest : List Char}

/-! ### Single characters -/

/-- **A character that no string and no comment has is a piece.** -/
theorem yylex_separator (c : Char) {rule : Rule Token} (hc : stringChar c = false) (hc' : c ≠ '#')
    (hrule : ruleFor rules [c] = some rule) :
    yylex (c :: rest) = (rule.action [c]).toList ++ yylex rest := by
  have hquote : c ≠ '"' := by rintro rfl; cases hc
  refine scan_append (w := [c]) (by simp) hrule ?_
  intro v hv _
  obtain ⟨e, v, rfl⟩ := List.exists_cons_of_ne_nil hv
  have hcomment := isComment_of_head (w := e :: v) hc'
  apply ruleFor_eq_none
  · simp
  · exact isDate_append_cons (w := []) hc (e :: v)
  · exact isQuotedString_of_head hquote
  · exact isString_append_cons (w := []) hc (e :: v)
  · exact hcomment.1
  · exact hcomment.2

@[simp] theorem yylex_nil : yylex [] = [] := rfl

@[simp] theorem yylex_blank : yylex (' ' :: rest) = yylex rest :=
  yylex_separator ' ' (by decide) (by decide) rfl

@[simp] theorem yylex_tab : yylex ('\t' :: rest) = yylex rest :=
  yylex_separator '\t' (by decide) (by decide) rfl

@[simp] theorem yylex_newline : yylex ('\n' :: rest) = yylex rest :=
  yylex_separator '\n' (by decide) (by decide) rfl

@[simp] theorem yylex_equal : yylex ('=' :: rest) = .char '=' :: yylex rest :=
  yylex_separator '=' (by decide) (by decide) rfl

@[simp] theorem yylex_comma : yylex (',' :: rest) = .char ',' :: yylex rest :=
  yylex_separator ',' (by decide) (by decide) rfl

@[simp] theorem yylex_sectionBegin : yylex ('[' :: rest) = .sectionBegin :: yylex rest :=
  yylex_separator '[' (by decide) (by decide) rfl

@[simp] theorem yylex_sectionEnd : yylex (']' :: rest) = .sectionEnd :: yylex rest :=
  yylex_separator ']' (by decide) (by decide) rfl

@[simp] theorem yylex_itemsListBegin : yylex ('{' :: rest) = .itemsListBegin :: yylex rest :=
  yylex_separator '{' (by decide) (by decide) rfl

@[simp] theorem yylex_itemsListEnd : yylex ('}' :: rest) = .itemsListEnd :: yylex rest :=
  yylex_separator '}' (by decide) (by decide) rfl

/-! ### Quoted strings -/

/-- Behind a closing quote no other quote comes before a character that ends quoted strings. -/
structure QuoteEnds (rest : List Char) : Prop where
  head : ∃ d post, rest = d :: post ∧ stringChar d = false
  tail : ∃ pre e post, rest = pre ++ e :: post ∧ '"' ∉ pre ∧ quotedChar e = false

theorem isQuotedString_cons (w : List Char) : isQuotedString ('"' :: w)
    = decide (w.getLast? = some '"' ∧ w.dropLast.all quotedChar = true) := rfl

theorem isQuotedString_append (hw : w.all quotedChar = true) :
    isQuotedString ('"' :: (w ++ ['"'])) = true := by
  rw [isQuotedString_cons, List.getLast?_concat, List.dropLast_concat]
  exact decide_eq_true ⟨rfl, hw⟩

/-- A piece behind the closing quote has no quote at its end, or a character that ends quoted
strings. -/
theorem QuoteEnds.not_quoted {v : List Char} (hrest : QuoteEnds rest) (hv : v ≠ [])
    (hbegins : v <+: rest) : ¬(v.getLast? = some '"' ∧ v.dropLast.all quotedChar = true) := by
  obtain ⟨-, pre, e, post, hcut, hpre, he⟩ := hrest
  rintro ⟨hlast, hall⟩
  have hcut' : pre ++ [e] <+: rest := ⟨post, by rw [hcut, List.append_assoc]; rfl⟩
  rcases List.prefix_or_prefix_of_prefix hcut' hbegins with ⟨u, rfl⟩ | hin
  · -- the piece goes on past the end of the quoted strings
    rcases List.eq_nil_or_concat u with rfl | ⟨u, x, rfl⟩
    · rw [List.append_nil, List.getLast?_concat] at hlast
      cases hlast
      cases he
    · rw [List.concat_eq_append, ← List.append_assoc, List.dropLast_concat, List.all_append,
        List.all_append, List.all_cons, he, Bool.false_and, Bool.and_false, Bool.false_and] at hall
      cases hall
  · rcases List.prefix_concat_iff.mp hin with rfl | hin
    · rw [List.getLast?_concat] at hlast
      cases hlast
      cases he
    · exact hpre (hin.subset (List.mem_of_getLast? hlast))

/-- The greatest quoted string ends at the closing quote. -/
theorem ends_quoted (hrest : QuoteEnds rest) : Ends rules ('"' :: (w ++ ['"'])) rest := by
  intro v hv hbegins
  obtain ⟨d, post, rfl, hd⟩ := hrest.head
  have hend := hrest.not_quoted hv hbegins
  obtain ⟨d', v, rfl⟩ := List.exists_cons_of_ne_nil hv
  obtain ⟨rfl, -⟩ := List.cons_prefix_cons.mp hbegins
  have hcomment := isComment_of_head (w := w ++ ['"'] ++ d' :: v) (show '"' ≠ '#' by decide)
  apply ruleFor_eq_none
  · simp only [List.cons_append, List.length_cons, List.length_append]
    omega
  · exact isDate_append_cons hd v
  · rw [List.cons_append, isQuotedString_cons, List.getLast?_append_of_ne_nil _ hv,
      List.dropLast_append_of_ne_nil hv, List.all_append]
    refine decide_eq_false fun h => hend ⟨h.1, ?_⟩
    exact (Bool.and_eq_true_iff.mp h.2).2
  · exact isString_append_cons hd v
  · exact hcomment.1
  · exact hcomment.2

/-- **A quoted text is the text between its quotes.** -/
theorem yylex_quoted (hw : w.all quotedChar = true) (hrest : QuoteEnds rest) :
    yylex ('"' :: w ++ '"' :: rest) = .string w :: yylex rest := by
  have hrule : ruleFor rules ('"' :: (w ++ ['"'])) = some quotedStringRule := by
    have hquoted := isQuotedString_append hw
    have hdate : isDate ('"' :: (w ++ ['"'])) = false := by
      by_contra h
      have hall := (isDate_all (Bool.not_eq_false _ ▸ h)).2 '"' (List.mem_cons_self ..)
      exact absurd hall (by decide)
    have hchar : ∀ c, isChar c ('"' :: (w ++ ['"'])) = false := fun c => by simp [isChar]
    unfold ruleFor rules
    simp only [List.find?_cons, hchar]
    unfold dateRule quotedStringRule
    simp only [hdate, hquoted]
  have hshape : '"' :: w ++ '"' :: rest = '"' :: (w ++ ['"']) ++ rest := by simp
  unfold yylex
  rw [hshape, scan_append (List.cons_ne_nil _ _) hrule (ends_quoted hrest)]
  show Token.string (w ++ ['"']).dropLast :: _ = _
  rw [List.dropLast_concat]
  rfl

/-! ### Bare strings -/

/-- What a bare piece becomes. -/
def bareToken (p : List Char) : Token :=
  if p = ['('] then .sectionDateBegin
  else if p = [')'] then .sectionDateEnd
  else if isDate p then .sectionDate p
  else .string p

/-- The rule that a bare piece is matched by. -/
theorem ruleFor_bare (hp : p ≠ []) (hall : isString p = true) (hquote : p.head? ≠ some '"') :
    ∃ rule, ruleFor rules p = some rule ∧ rule.action p = some (bareToken p) := by
  have hquoted : isQuotedString p = false := by
    obtain ⟨a, p, rfl⟩ := List.exists_cons_of_ne_nil hp
    exact isQuotedString_of_head fun h => hquote (by rw [h]; rfl)
  have hchar : ∀ c, stringChar c = false → isChar c p = false := by
    intro c hc
    refine decide_eq_false ?_
    rintro rfl
    rw [isString, List.all_cons, hc, Bool.false_and] at hall
    cases hall
  have hopen : isChar '(' p = decide (p = ['(']) := rfl
  have hclose : isChar ')' p = decide (p = [')']) := rfl
  unfold ruleFor rules bareToken dateRule quotedStringRule stringRule
  simp only [List.find?_cons, hchar '=' rfl, hchar '[' rfl, hchar ']' rfl, hchar '{' rfl,
    hchar '}' rfl, hopen, hclose, hquoted, hall]
  by_cases h₁ : p = ['(']
  · simp [h₁]
  · by_cases h₂ : p = [')']
    · simp [h₂]
    · by_cases h₃ : isDate p = true
      · simp [h₁, h₂, h₃]
      · simp [h₁, h₂, h₃]

/-- **A bare piece is one token**, up to a character that no bare string has. -/
theorem yylex_bare (hp : p ≠ []) (hall : isString p = true) (hquote : p.head? ≠ some '"')
    (hd : stringChar d = false) :
    yylex (p ++ d :: rest) = bareToken p :: yylex (d :: rest) := by
  obtain ⟨rule, hrule, haction⟩ := ruleFor_bare hp hall hquote
  have hends : Ends rules p (d :: rest) := by
    obtain ⟨a, p, rfl⟩ := List.exists_cons_of_ne_nil hp
    refine ends_bare (fun h => hquote (by rw [h]; rfl)) ?_ hd
    rintro rfl
    rw [isString, List.all_cons] at hall
    cases hall
  unfold yylex
  rw [scan_append hp hrule hends, haction]
  rfl

/-! ### Comments -/

/-- A comment stays in its line. -/
theorem not_comment_of_newline (h : '\n' ∈ w) :
    isItemComment w = false ∧ isSectionComment w = false := by
  constructor
  · unfold isItemComment
    split
    · next w =>
      have hw : '\n' ∈ w := by simpa using h
      by_contra hall
      exact absurd (List.all_eq_true.mp (Bool.not_eq_false _ ▸ hall) _ hw) (by decide)
    · rfl
  · unfold isSectionComment
    split
    · next w =>
      have hw : '\n' ∈ w := by simpa using h
      by_contra hall
      exact absurd (List.all_eq_true.mp (Bool.not_eq_false _ ▸ hall) _ hw) (by decide)
    · rfl

/-- What begins with a mark is no string and no date. -/
theorem mark_patterns (w : List Char) :
    isString ('#' :: w) = false ∧ isDate ('#' :: w) = false ∧ isQuotedString ('#' :: w) = false :=
  ⟨rfl, isDate_append_cons (w := []) rfl w, isQuotedString_of_head (by decide)⟩

/-- **A comment ends with its line.** -/
theorem yylex_mark {rule : Rule Token} (hrule : ruleFor rules ('#' :: w) = some rule) :
    yylex ('#' :: w ++ '\n' :: rest) = (rule.action ('#' :: w)).toList ++ yylex rest := by
  have hends : Ends rules ('#' :: w) ('\n' :: rest) := by
    intro v hv hbegins
    obtain ⟨d', v, rfl⟩ := List.exists_cons_of_ne_nil hv
    obtain ⟨rfl, -⟩ := List.cons_prefix_cons.mp hbegins
    obtain ⟨hstring, hdate, hquoted⟩ := mark_patterns (w ++ '\n' :: v)
    have hcomment := not_comment_of_newline (w := '#' :: (w ++ '\n' :: v)) (by simp)
    refine ruleFor_eq_none ?_ hdate hquoted hstring hcomment.1 hcomment.2
    simp only [List.cons_append, List.length_cons, List.length_append]
    omega
  unfold yylex
  rw [scan_append (List.cons_ne_nil _ _) hrule hends]
  exact congrArg _ yylex_newline

/-- **A line behind two marks is an item comment.** -/
theorem yylex_itemComment (hw : w.all commentChar = true) :
    yylex ('#' :: '#' :: w ++ '\n' :: rest) = .itemComment w :: yylex rest := by
  have hrule : ruleFor rules ('#' :: '#' :: w) = some itemCommentRule := by
    obtain ⟨hstring, hdate, hquoted⟩ := mark_patterns ('#' :: w)
    have hchar : ∀ c, isChar c ('#' :: '#' :: w) = false := fun c => by simp [isChar]
    unfold ruleFor rules dateRule quotedStringRule stringRule itemCommentRule
    simp only [List.find?_cons, hchar, hstring, hdate, hquoted, isItemComment, hw]
  exact yylex_mark hrule

/-- **A line behind one mark is a section comment.** -/
theorem yylex_sectionComment (hw : w.all commentChar = true) :
    yylex ('#' :: w ++ '\n' :: rest) = .sectionComment w :: yylex rest := by
  have hrule : ruleFor rules ('#' :: w) = some sectionCommentRule := by
    obtain ⟨hstring, hdate, hquoted⟩ := mark_patterns w
    have hchar : ∀ c, c ≠ '#' → isChar c ('#' :: w) = false := fun c hc => by
      simp [isChar, Ne.symm hc]
    have hitem : isItemComment ('#' :: w) = false := by
      unfold isItemComment
      split
      · next heq =>
        cases heq
        cases hw
      · rfl
    unfold ruleFor rules dateRule quotedStringRule stringRule itemCommentRule sectionCommentRule
    simp only [List.find?_cons, hchar '=' (by decide), hchar '(' (by decide),
      hchar ')' (by decide), hchar '[' (by decide), hchar ']' (by decide), hchar '{' (by decide),
      hchar '}' (by decide), hstring, hdate, hquoted, hitem, isSectionComment, hw]
  exact yylex_mark hrule

end ConfigurationFile

end CatraLibraries
