/-
# Reading what has been written

`Config::write` and the writers below it (`Configuration/src`), behind them the scanner and the parser of
`ConfigurationFile/src`.  What comes back is `readBack`: a comment loses its empty lines at the front, an
item without values has one empty value, and a value of a list is cut at its commas when it is not quoted.
The date of a section never comes back: the scanner takes it and its parentheses for one string.
-/
import CatraLibraries.ConfigurationFile.Parser
import CatraLibraries.ConfigurationFile.Pieces

namespace CatraLibraries

namespace ConfigurationFile

open Configuration Lexer

variable {p w c text rest : List Char} {ps : List (List Char)} {i : CfgItem} {s : CfgSection}

/-! ### Texts that are read as they are -/

/-- A text without quotes that is one string. -/
structure BareText (p : List Char) : Prop where
  nonempty : p ≠ []
  isString : isString p = true
  token : bareToken p = .string p

/-- A name that is one string, in the form in which it is written. -/
def ReadableName (p : List Char) : Prop :=
  if needsQuotes p then p.all quotedChar = true else BareText p

/-- The value of an item that has one. -/
def ReadableValue (p : List Char) : Prop :=
  if needsQuotes p ∨ ',' ∈ p then p.all quotedChar = true else p = [] ∨ BareText p

/-- The strings that a value of a list is read as. -/
def listPieces (p : List Char) : List (List Char) :=
  if p = [] ∨ needsQuotes p then [p] else p.splitOn ','

/-- A value of a list. -/
def ReadableListValue (p : List Char) : Prop :=
  p = [] ∨ if needsQuotes p then p.all quotedChar = true else ∀ q ∈ p.splitOn ',', BareText q

/-- The tokens of a list of values. -/
def listTokens : List (List Char) → List Token
  | [] => []
  | p :: ps => .string p :: ps.flatMap fun q => [.char ',', .string q]

theorem listTokens_append (hps : ps ≠ []) (p : List Char) (qs : List (List Char)) :
    listTokens (ps ++ p :: qs) = listTokens ps ++ .char ',' :: listTokens (p :: qs) := by
  obtain ⟨p', ps, rfl⟩ := List.exists_cons_of_ne_nil hps
  simp [listTokens]

theorem quote_notMem (h : needsQuotes p = false) : '"' ∉ p := by
  intro hmem
  simp [needsQuotes, hmem] at h

/-- A bare text is one string, up to a character that no string has. -/
theorem yylex_bareText (h : BareText p) (hquote : '"' ∉ p) {d : Char} (hd : stringChar d = false) :
    yylex (p ++ d :: rest) = .string p :: yylex (d :: rest) := by
  have hhead : p.head? ≠ some '"' := fun hhead => hquote (List.mem_of_mem_head? hhead)
  rw [yylex_bare h.nonempty h.isString hhead hd, h.token]

/-- **A name is one string.** -/
theorem yylex_writtenName (h : ReadableName p) (hrest : QuoteEnds rest) :
    yylex (writtenName p ++ rest) = .string p :: yylex rest := by
  unfold ReadableName at h
  unfold writtenName
  by_cases hquotes : needsQuotes p = true
  · rw [if_pos hquotes] at h ⊢
    show yylex ('"' :: p ++ ['"'] ++ rest) = _
    rw [List.append_assoc]
    exact yylex_quoted h hrest
  · rw [if_neg hquotes] at h ⊢
    obtain ⟨d, post, rfl, hd⟩ := hrest.head
    exact yylex_bareText h (quote_notMem (Bool.not_eq_true _ ▸ hquotes)) hd

theorem quoteEnds_newline (rest : List Char) : QuoteEnds ('\n' :: rest) :=
  ⟨⟨'\n', rest, rfl, rfl⟩, [], '\n', rest, rfl, List.not_mem_nil, rfl⟩

/-- **The value of an item is one string.** -/
theorem yylex_writtenValue (h : ReadableValue p) :
    yylex (ConfigurationItem.writtenValue p ++ '\n' :: rest) = .string p :: yylex rest := by
  have hquoted : ∀ q : List Char, q.all quotedChar = true →
      yylex (quoted q ++ '\n' :: rest) = .string q :: yylex rest := by
    intro q hq
    show yylex ('"' :: q ++ ['"'] ++ '\n' :: rest) = _
    rw [List.append_assoc]
    show yylex ('"' :: q ++ '"' :: '\n' :: rest) = _
    rw [yylex_quoted hq (quoteEnds_newline rest), yylex_newline]
  unfold ReadableValue at h
  unfold ConfigurationItem.writtenValue
  by_cases hquotes : needsQuotes p = true ∨ ',' ∈ p
  · rw [if_pos hquotes] at h ⊢
    exact hquoted p h
  · rw [if_neg hquotes] at h ⊢
    by_cases hempty : p = []
    · subst hempty
      rw [if_pos rfl]
      exact hquoted [] rfl
    · rw [if_neg hempty]
      have hbare := h.resolve_left hempty
      have hquote := quote_notMem (Bool.not_eq_true _ ▸ (not_or.mp hquotes).1)
      rw [yylex_bareText hbare hquote rfl, yylex_newline]

theorem mem_intercalate (sep : List Char) {q : List Char} {x : Char} (hq : q ∈ ps) (hx : x ∈ q) :
    x ∈ List.intercalate sep ps := by
  induction ps with
  | nil => cases hq
  | cons q' ps ih =>
    cases ps with
    | nil =>
      obtain rfl := List.mem_singleton.mp hq
      rwa [List.intercalate_singleton]
    | cons q'' ps =>
      rw [List.intercalate_cons_cons]
      rcases List.mem_cons.mp hq with rfl | hq
      · exact List.mem_append_left _ (List.mem_append_left _ hx)
      · exact List.mem_append_right _ (ih hq)

/-- Bare texts with commas between them. -/
theorem yylex_bareTexts (hps : ps ≠ []) (h : ∀ q ∈ ps, BareText q ∧ '"' ∉ q) {d : Char}
    (hd : stringChar d = false) :
    yylex (List.intercalate [','] ps ++ d :: rest) = listTokens ps ++ yylex (d :: rest) := by
  induction ps with
  | nil => exact absurd rfl hps
  | cons q ps ih =>
    obtain ⟨hq, hquote⟩ := h q List.mem_cons_self
    cases ps with
    | nil =>
      rw [List.intercalate_singleton, yylex_bareText hq hquote hd]
      rfl
    | cons q' ps =>
      have hrest := ih (List.cons_ne_nil _ _) fun q'' hq'' => h q'' (List.mem_cons_of_mem _ hq'')
      rw [List.intercalate_cons_cons, List.append_assoc, List.append_assoc]
      show yylex (q ++ ',' :: (List.intercalate [','] (q' :: ps) ++ d :: rest)) = _
      rw [yylex_bareText hq hquote rfl, yylex_comma, hrest]
      rfl

/-- **A value of a list** is a string, or several when it has commas and no quotes. -/
theorem yylex_writtenListValue (h : ReadableListValue p) (hrest : QuoteEnds rest) :
    yylex (ConfigurationItem.writtenListValue p ++ rest) = listTokens (listPieces p) ++ yylex rest := by
  unfold ConfigurationItem.writtenListValue listPieces
  by_cases hempty : p = []
  · subst hempty
    rw [if_pos rfl, if_pos (Or.inl rfl)]
    exact yylex_quoted (w := []) rfl hrest
  have h := h.resolve_left hempty
  rw [if_neg hempty]
  by_cases hquotes : needsQuotes p = true
  · rw [if_pos hquotes] at h
    rw [if_pos (Or.inr hquotes)]
    refine yylex_writtenName ?_ hrest
    unfold ReadableName
    rw [if_pos hquotes]
    exact h
  · rw [if_neg hquotes] at h
    rw [if_neg (not_or.mpr ⟨hempty, hquotes⟩)]
    unfold writtenName
    rw [if_neg hquotes]
    obtain ⟨d, post, rfl, hd⟩ := hrest.head
    have hquote := quote_notMem (Bool.not_eq_true _ ▸ hquotes)
    have hpieces : ∀ q ∈ p.splitOn ',', BareText q ∧ '"' ∉ q := by
      intro q hq
      refine ⟨h q hq, fun hmem => hquote ?_⟩
      have hin := mem_intercalate [','] hq hmem
      rwa [List.intercalate_splitOn] at hin
    rw [← yylex_bareTexts (List.splitOn_ne_nil ',' p) hpieces hd, List.intercalate_splitOn]

/-! ### Comments -/

/-- The tokens of a comment, one for each line. -/
def commentTokens (token : List Char → Token) (pComment : List Char) : List Token :=
  if pComment = [] then [] else (pComment.splitOn '\n').map token

/-- A comment as it is read: the empty lines at its front are gone. -/
def readComment (pComment : List Char) : List Char := pComment.dropWhile (· = '\n')

/-- A comment without marks of its own. -/
def PlainComment (pComment : List Char) : Prop := '#' ∉ pComment

theorem lines_spec (c : List Char) : ∀ line ∈ c.splitOn '\n', '\n' ∉ line ∧ ∀ x ∈ line, x ∈ c := by
  intro line hline
  refine ⟨fun hmem => ?_, fun x hx => ?_⟩
  · exact Stdio.not_mem_of_mem_splitOn hline hmem
  · have hin := mem_intercalate ['\n'] hline hx
    rwa [List.intercalate_splitOn] at hin

theorem commentChar_line (hc : PlainComment c) : ∀ line ∈ c.splitOn '\n', line.all commentChar = true := by
  intro line hline
  obtain ⟨hnewline, hin⟩ := lines_spec c line hline
  refine List.all_eq_true.mpr fun x hx => decide_eq_true ⟨?_, ?_⟩
  · rintro rfl
    exact hnewline hx
  · rintro rfl
    exact hc (hin _ hx)

/-- **The lines of a comment are tokens**, for an item and for a section. -/
theorem yylex_writtenComment (marks : List Char) (token : List Char → Token)
    (hline : ∀ line rest, line.all commentChar = true →
      yylex (marks ++ line ++ '\n' :: rest) = token line :: yylex rest) (hc : PlainComment c) :
    yylex (writtenComment marks c ++ rest) = commentTokens token c ++ yylex rest := by
  unfold writtenComment commentTokens
  by_cases hempty : c = []
  · rw [if_pos hempty, if_pos hempty]
    rfl
  rw [if_neg hempty, if_neg hempty]
  have hlines := commentChar_line hc
  generalize c.splitOn '\n' = lines at hlines
  induction lines with
  | nil => rfl
  | cons line lines ih =>
    rw [List.flatMap_cons, List.append_assoc, List.append_assoc, List.map_cons]
    show yylex (marks ++ line ++ '\n' :: (lines.flatMap _ ++ rest)) = _
    rw [hline line _ (hlines line List.mem_cons_self), ih fun l hl => hlines l (List.mem_cons_of_mem _ hl)]
    rfl

theorem intercalate_cons_eq_flatMap (sep line : List Char) (lines : List (List Char)) :
    List.intercalate sep (line :: lines) = line ++ lines.flatMap (sep ++ ·) := by
  induction lines generalizing line with
  | nil => simp
  | cons next lines ih => rw [List.intercalate_cons_cons, ih, List.flatMap_cons, List.append_assoc,
      List.append_assoc]

theorem foldl_joinComments_of_ne (lines : List (List Char)) {acc : List Char} (hacc : acc ≠ []) :
    lines.foldl joinComments acc = acc ++ lines.flatMap (['\n'] ++ ·) := by
  induction lines generalizing acc with
  | nil => exact (List.append_nil acc).symm
  | cons line lines ih =>
    have hstep : joinComments acc line = acc ++ '\n' :: line :=
      if_neg fun hlength => hacc (List.length_eq_zero_iff.mp hlength)
    rw [List.foldl_cons, hstep, ih (List.append_ne_nil_of_left_ne_nil hacc _), List.flatMap_cons,
      List.append_assoc]
    rfl

/-- An empty comment takes no line feed behind it. -/
theorem foldl_joinComments_nil (lines : List (List Char)) (h : ∀ line ∈ lines, '\n' ∉ line) :
    lines.foldl joinComments [] = readComment (List.intercalate ['\n'] lines) := by
  induction lines with
  | nil => rfl
  | cons line lines ih =>
    show lines.foldl joinComments line = _
    cases line with
    | nil =>
      rw [ih fun l hl => h l (List.mem_cons_of_mem _ hl)]
      cases lines with
      | nil => rfl
      | cons next lines =>
        rw [List.intercalate_cons_cons]
        exact (List.dropWhile_cons_of_pos (by simp)).symm
    | cons x line =>
      have hx : x ≠ '\n' := fun hx => h _ List.mem_cons_self (hx ▸ List.mem_cons_self)
      rw [foldl_joinComments_of_ne _ (List.cons_ne_nil x line), intercalate_cons_eq_flatMap]
      exact (List.dropWhile_cons_of_neg (by simpa using hx)).symm

/-- **The lines joined again** are the comment without the empty lines at its front. -/
theorem foldl_joinComments (c : List Char) :
    (c.splitOn '\n').foldl joinComments [] = readComment c := by
  rw [foldl_joinComments_nil _ fun line hline => (lines_spec c line hline).1, List.intercalate_splitOn]

/-! ### Items -/

/-- The values of an item, none, one or a list. -/
def ReadableValues : List (List Char) → Prop
  | [] => True
  | [p] => ReadableValue p
  | ps => ∀ p ∈ ps, ReadableListValue p

structure ReadableItem (i : CfgItem) : Prop where
  comment : PlainComment i.comment
  name : ReadableName i.name
  values : ReadableValues i.values

/-- The values as they are read. -/
def readValues : List (List Char) → List (List Char)
  | [] => [[]]
  | [p] => [p]
  | ps => ps.flatMap listPieces

def valueTokens : List (List Char) → List Token
  | [] => [.string []]
  | [p] => [.string p]
  | ps => .itemsListBegin :: listTokens (ps.flatMap listPieces) ++ [.itemsListEnd]

def itemTokens (i : CfgItem) : List Token :=
  commentTokens .itemComment i.comment ++ .string i.name :: .char '=' :: valueTokens i.values

theorem listPieces_ne_nil (p : List Char) : listPieces p ≠ [] := by
  unfold listPieces
  split
  · exact List.cons_ne_nil _ _
  · exact List.splitOn_ne_nil ',' p

theorem yylex_writtenList (hps : ps ≠ []) (h : ∀ p ∈ ps, ReadableListValue p) :
    yylex (ConfigurationItem.writtenList ps ++ rest) = listTokens (ps.flatMap listPieces) ++ yylex rest := by
  induction ps with
  | nil => exact absurd rfl hps
  | cons p ps ih =>
    have hp := h p List.mem_cons_self
    cases ps with
    | nil =>
      show yylex ('\t' :: '\t' :: (ConfigurationItem.writtenListValue p ++ ['\n']) ++ rest) = _
      simp only [List.cons_append, List.append_assoc, List.nil_append, yylex_tab]
      rw [yylex_writtenListValue hp (quoteEnds_newline rest), yylex_newline]
      simp
    | cons q ps =>
      have hrest := ih (List.cons_ne_nil _ _) fun r hr => h r (List.mem_cons_of_mem _ hr)
      have hends : QuoteEnds (',' :: '\n' :: (ConfigurationItem.writtenList (q :: ps) ++ rest)) :=
        ⟨⟨',', _, rfl, rfl⟩, [','], '\n', _, rfl, by decide, rfl⟩
      obtain ⟨q', qs, hqs⟩ : ∃ q' qs, (q :: ps).flatMap listPieces = q' :: qs := by
        refine List.exists_cons_of_ne_nil ?_
        rw [List.flatMap_cons]
        exact List.append_ne_nil_of_left_ne_nil (listPieces_ne_nil q) _
      show yylex ('\t' :: '\t' :: (ConfigurationItem.writtenListValue p ++ [',', '\n'] ++
        ConfigurationItem.writtenList (q :: ps)) ++ rest) = _
      simp only [List.cons_append, List.append_assoc, List.nil_append, yylex_tab]
      have hflat : (p :: q :: ps).flatMap listPieces = listPieces p ++ q' :: qs := by
        rw [List.flatMap_cons, hqs]
      rw [yylex_writtenListValue hp hends, yylex_comma, yylex_newline, hrest, hflat, hqs,
        listTokens_append (listPieces_ne_nil p), List.append_assoc, List.cons_append]

/-- **An item is read as its tokens.** -/
theorem yylex_writeItem (item : ConfigurationItem) (h : ReadableItem item.contents) :
    yylex (item.write ++ rest) = itemTokens item.contents ++ yylex rest := by
  have hends : ∀ value, QuoteEnds ([' ', '=', ' '] ++ value) := fun value =>
    ⟨⟨' ', _, rfl, rfl⟩, [' '], '=', ' ' :: value, rfl, by decide, rfl⟩
  have hhead : ∀ value, yylex (writtenComment ['\t', '#', '#'] item.pItemComment ++
      '\t' :: writtenName item.pItemName ++ [' ', '=', ' '] ++ value) =
      commentTokens .itemComment item.pItemComment ++
        .string item.pItemName :: .char '=' :: yylex value := by
    intro value
    have hline : ∀ line rest, line.all commentChar = true →
        yylex (['\t', '#', '#'] ++ line ++ '\n' :: rest) = .itemComment line :: yylex rest := by
      intro line rest hline
      show yylex ('\t' :: ('#' :: '#' :: line ++ '\n' :: rest)) = _
      rw [yylex_tab, yylex_itemComment hline]
    have hcomment : PlainComment item.pItemComment := h.comment
    have hname : ReadableName item.pItemName := h.name
    rw [List.append_assoc, List.append_assoc, yylex_writtenComment _ _ hline hcomment,
      List.cons_append, yylex_tab, yylex_writtenName hname (hends value)]
    simp
  have hvalue : ∀ value, yylex (value ++ rest) = valueTokens item.pValues ++ yylex rest →
      yylex (writtenComment ['\t', '#', '#'] item.pItemComment ++ '\t' :: writtenName item.pItemName ++
        [' ', '=', ' '] ++ value ++ rest) = itemTokens item.contents ++ yylex rest := by
    intro value hvalue
    rw [List.append_assoc, hhead, hvalue]
    show _ = (commentTokens .itemComment item.pItemComment ++ .string item.pItemName :: .char '=' ::
      valueTokens item.pValues) ++ yylex rest
    simp
  have hvalues : ReadableValues item.pValues := h.values
  unfold ConfigurationItem.write
  apply hvalue
  -- none, one or a list, as they are written
  generalize item.pValues = values at hvalues
  match values, hvalues with
  | [], _ =>
    show yylex (['"', '"'] ++ '\n' :: rest) = _
    exact (yylex_quoted (w := []) rfl (quoteEnds_newline rest)).trans (by simp [valueTokens])
  | [p], hp =>
    show yylex (ConfigurationItem.writtenValue p ++ ['\n'] ++ rest) = _
    rw [List.append_assoc]
    exact yylex_writtenValue hp
  | p :: q :: ps, hps =>
    show yylex ('\n' :: '\t' :: '{' :: '\n' :: (ConfigurationItem.writtenList (p :: q :: ps) ++
      ['\t', '}', '\n']) ++ rest) = _
    simp only [List.cons_append, List.append_assoc, List.nil_append, yylex_newline, yylex_tab,
      yylex_itemsListBegin]
    rw [yylex_writtenList (List.cons_ne_nil _ _) hps, yylex_tab, yylex_itemsListEnd, yylex_newline]
    simp [valueTokens]

theorem yylex_writeItems {items : List (Object ConfigurationItem)} {is : List CfgItem}
    (h : List.Forall₂ ConfigurationItem.Holds items is) (his : ∀ i ∈ is, ReadableItem i) :
    ∃ text, ConfigurationSection.writeItems items = .ok text ∧
      ∀ rest, yylex (text ++ rest) = is.flatMap itemTokens ++ yylex rest := by
  induction h with
  | nil => exact ⟨[], rfl, fun _ => rfl⟩
  | @cons t i items is hitem _ ih =>
    obtain ⟨text, hwrite, htext⟩ := ih fun i hi => his i (List.mem_cons_of_mem _ hi)
    obtain ⟨item, rfl, rfl⟩ := hitem
    refine ⟨item.write ++ '\n' :: text, ?_, fun rest => ?_⟩
    · rw [ConfigurationSection.writeItems, hwrite]
      rfl
    · rw [List.append_assoc, List.cons_append, yylex_writeItem item (his _ List.mem_cons_self),
        yylex_newline, htext, List.flatMap_cons, List.append_assoc]

/-! ### Sections -/

/-- A section whose date, if it has one, is a date of the scanner. -/
structure ReadableSection (s : CfgSection) : Prop where
  comment : PlainComment s.comment
  name : ReadableName s.name
  date : ∀ d ∈ s.date, isDate d = true
  items : ∀ i ∈ s.items, ReadableItem i

/-- The date and its parentheses are one string. -/
def dateTokens (pSectionDate : Option (List Char)) : List Token :=
  pSectionDate.toList.map fun d => .string ('(' :: d ++ [')'])

def sectionTokens (s : CfgSection) : List Token :=
  commentTokens .sectionComment s.comment ++ .sectionBegin :: .string s.name :: .sectionEnd ::
    (dateTokens s.date ++ s.items.flatMap itemTokens)

/-- A date in parentheses is one string. -/
theorem bareText_date {d : List Char} (hd : isDate d = true) :
    BareText ('(' :: d ++ [')']) ∧ '"' ∉ '(' :: d ++ [')'] := by
  have hstring : isString d = true := isString_of_isDate hd
  have hdate : isDate ('(' :: d ++ [')']) = false := by
    by_contra h
    exact absurd ((isDate_all (Bool.not_eq_false _ ▸ h)).2 '(' List.mem_cons_self) (by decide)
  refine ⟨⟨List.cons_ne_nil _ _, ?_, ?_⟩, ?_⟩
  · unfold isString at hstring ⊢
    rw [List.cons_append, List.all_cons, List.all_append, hstring]
    rfl
  · unfold bareToken
    rw [if_neg (by simp), if_neg (by simp), if_neg (by rw [hdate]; exact Bool.false_ne_true)]
  · intro hmem
    have hin : '"' ∈ d := by simpa using hmem
    exact absurd ((isDate_all hd).2 _ hin) (by decide)

/-- **A section is read as its tokens.** -/
theorem yylex_writeSection {csSection : ConfigurationSection} (hm : csSection.Members s)
    (h : ReadableSection s) :
    ∃ text, csSection.write = .ok text ∧
      ∀ rest, yylex (text ++ rest) = sectionTokens s ++ yylex rest := by
  obtain ⟨text, hwrite, htext⟩ := yylex_writeItems hm.items h.items
  have hline : ∀ line rest, line.all commentChar = true →
      yylex (['#'] ++ line ++ '\n' :: rest) = .sectionComment line :: yylex rest :=
    fun _ _ hline => yylex_sectionComment hline
  have hends : ∀ rest, QuoteEnds (']' :: rest) := fun rest =>
    ⟨⟨']', rest, rfl, rfl⟩, [], ']', rest, rfl, List.not_mem_nil, rfl⟩
  -- what is between the bracket and the items
  have hdate : ∀ rest, yylex (((csSection.pSectionDate.map fun d => [' ', '('] ++ d ++ [')']).getD [] ++
      '\n' :: rest)) = dateTokens s.date ++ yylex rest := by
    intro rest
    rw [hm.date]
    cases hd : s.date with
    | none => exact yylex_newline
    | some d =>
      obtain ⟨hbare, hquote⟩ := bareText_date (h.date d hd)
      show yylex ([' ', '('] ++ d ++ [')'] ++ '\n' :: rest) = _
      have hshape : [' ', '('] ++ d ++ [')'] ++ '\n' :: rest =
          ' ' :: (('(' :: d ++ [')']) ++ '\n' :: rest) := by simp
      rw [hshape, yylex_blank, yylex_bareText hbare hquote rfl, yylex_newline]
      rfl
  refine ⟨_, by unfold ConfigurationSection.write; rw [hwrite]; rfl, fun rest => ?_⟩
  generalize (csSection.pSectionDate.map fun d => [' ', '('] ++ d ++ [')']).getD [] = date at hdate ⊢
  rw [hm.comment, hm.name, List.append_assoc, List.append_assoc,
    yylex_writtenComment _ _ hline h.comment]
  unfold sectionTokens
  simp only [List.cons_append, List.append_assoc, yylex_sectionBegin]
  rw [yylex_writtenName h.name (hends _), yylex_sectionEnd, hdate, htext]

/-- **A configuration is read as the tokens of its sections.** -/
theorem yylex_write {sections : List (Object ConfigurationSection)} {ss : List CfgSection}
    (h : List.Forall₂ ConfigurationSection.Holds sections ss) (hss : ∀ s ∈ ss, ReadableSection s) :
    ∃ text, Config.writeSections sections = .ok text ∧ yylex text = ss.flatMap sectionTokens := by
  induction h with
  | nil => exact ⟨[], rfl, rfl⟩
  | @cons t s sections ss hsection _ ih =>
    obtain ⟨rest, hwrite, hrest⟩ := ih fun s hs => hss s (List.mem_cons_of_mem _ hs)
    obtain ⟨csSection, rfl, hm⟩ := hsection
    obtain ⟨text, hwrite', htext⟩ := yylex_writeSection hm (hss s List.mem_cons_self)
    refine ⟨text ++ rest, ?_, ?_⟩
    · rw [Config.writeSections, hwrite', hwrite]
      rfl
    · rw [htext, hrest, List.flatMap_cons]

end ConfigurationFile

end CatraLibraries
