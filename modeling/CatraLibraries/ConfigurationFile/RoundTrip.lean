/-
# Saved and loaded

The parser on the tokens of a written configuration.  A configuration whose texts are readable comes
back as `readSection` says, one with a dated section never.
-/
import CatraLibraries.ConfigurationFile.Parser
import CatraLibraries.ConfigurationFile.WrittenTexts
import Mathlib.Data.List.DropRight

namespace CatraLibraries

namespace ConfigurationFile

open Configuration

/-! ### What comes back -/

/-- An item as it is read. -/
def readItem (b : Bool) (i : CfgItem) : CfgItem := ⟨b, i.name, readComment i.comment, readValues i.values⟩

/-- A section as it is read. -/
def readSection (b : Bool) (s : CfgSection) : CfgSection :=
  ⟨b, s.name, readComment s.comment, none, s.items.map (readItem b)⟩

variable {b : Bool} {x : Items (List CfgSection) CfgSection} {c n pComments : List Char}
  {cfg ss : List CfgSection} {is : List CfgItem} {rest : List Token}

/-- The items of the section that is read. -/
def Items.append (x : Items (List CfgSection) CfgSection) (is : List CfgItem) :
    Items (List CfgSection) CfgSection :=
  { x with pcsSection := { x.pcsSection with items := x.pcsSection.items ++ is } }

theorem Items.append_append (x : Items (List CfgSection) CfgSection) (is is' : List CfgItem) :
    (x.append is).append is' = x.append (is ++ is') := by
  unfold Items.append
  dsimp only
  rw [List.append_assoc]

/-! ### The items of a section -/

theorem run_itemComments (lines : List (List Char)) :
    run (contentActions b) (lines.map .itemComment ++ rest) (.itemComments x pComments) =
      run (contentActions b) rest (.itemComments x (lines.foldl joinComments pComments)) := by
  induction lines generalizing pComments with
  | nil => rfl
  | cons line lines ih => exact ih

theorem run_itemHead :
    run (contentActions b) (commentTokens .itemComment c ++ .string n :: rest) (.items x) =
      run (contentActions b) rest (.itemName x (readComment c) n) := by
  unfold commentTokens
  by_cases hempty : c = []
  · subst hempty
    rfl
  · rw [if_neg hempty]
    have hlines := foldl_joinComments c
    obtain ⟨line, lines, hsplit⟩ := List.exists_cons_of_ne_nil (List.splitOn_ne_nil '\n' c)
    rw [hsplit] at hlines ⊢
    show run (contentActions b) (lines.map .itemComment ++ .string n :: rest)
      (.itemComments x (joinComments [] line)) = _
    rw [run_itemComments, ← List.foldl_cons, hlines]
    rfl

/-- The values behind the first one, up to the end of the list. -/
theorem run_valuesList (qs : List (List Char)) {pFirst : List Char} {i : CfgItem} :
    run (contentActions b) (qs.flatMap (fun q => [.char ',', .string q]) ++ .itemsListEnd :: rest)
        (.valuesList x pComments n pFirst i) =
      run (contentActions b) rest
        (.items (x.append [{ i with name := n, comment := pComments,
                                    values := pFirst :: (i.values ++ qs) }])) := by
  induction qs generalizing i with
  | nil =>
    rw [List.append_nil]
    rfl
  | cons q qs ih =>
    rw [List.flatMap_cons, List.append_assoc]
    show run (contentActions b) (qs.flatMap (fun q => [.char ',', .string q]) ++ .itemsListEnd :: rest)
      (.valuesList x pComments n pFirst { i with values := i.values ++ [q] }) = _
    rw [ih, List.append_assoc]
    rfl

theorem run_values (vs : List (List Char)) :
    run (contentActions b) (valueTokens vs ++ rest) (.itemEqual x pComments n) =
      run (contentActions b) rest (.items (x.append [⟨b, n, pComments, readValues vs⟩])) := by
  match vs with
  | [] => rfl
  | [p] => rfl
  | p :: q :: vs =>
    obtain ⟨piece, pieces, hpieces⟩ : ∃ piece pieces,
        (p :: q :: vs).flatMap listPieces = piece :: pieces := by
      refine List.exists_cons_of_ne_nil ?_
      rw [List.flatMap_cons]
      exact List.append_ne_nil_of_left_ne_nil (listPieces_ne_nil p) _
    show run (contentActions b) (.itemsListBegin :: listTokens ((p :: q :: vs).flatMap listPieces) ++
      [.itemsListEnd] ++ rest) _ =
      run _ rest (.items (x.append [⟨b, n, pComments, (p :: q :: vs).flatMap listPieces⟩]))
    rw [hpieces, List.append_assoc]
    exact run_valuesList pieces

/-- **The items of a section**, one after the other. -/
theorem run_items (is : List CfgItem) :
    run (contentActions b) (is.flatMap itemTokens ++ rest) (.items x) =
      run (contentActions b) rest (.items (x.append (is.map (readItem b)))) := by
  induction is generalizing x with
  | nil =>
    unfold Items.append
    rw [List.map_nil, List.append_nil]
    rfl
  | cons i is ih =>
    rw [List.flatMap_cons, List.append_assoc]
    unfold itemTokens
    rw [List.append_assoc, List.cons_append, run_itemHead]
    show run (contentActions b) (valueTokens i.values ++ (is.flatMap itemTokens ++ rest))
      (.itemEqual x (readComment i.comment) i.name) = _
    rw [run_values, ih, Items.append_append]
    rfl

/-! ### Sections -/

theorem run_sectionComments (lines : List (List Char)) :
    run (contentActions b) (lines.map .sectionComment ++ rest) (.sectionComments cfg pComments) =
      run (contentActions b) rest (.sectionComments cfg (lines.foldl joinComments pComments)) := by
  induction lines generalizing pComments with
  | nil => rfl
  | cons line lines ih => exact ih

theorem run_sectionHead :
    run (contentActions b) (commentTokens .sectionComment c ++
        .sectionBegin :: .string n :: .sectionEnd :: rest) (.sections cfg) =
      run (contentActions b) rest (.sectionEnd cfg (readComment c) n) := by
  unfold commentTokens
  by_cases hempty : c = []
  · subst hempty
    rfl
  · rw [if_neg hempty]
    have hlines := foldl_joinComments c
    obtain ⟨line, lines, hsplit⟩ := List.exists_cons_of_ne_nil (List.splitOn_ne_nil '\n' c)
    rw [hsplit] at hlines ⊢
    show run (contentActions b) (lines.map .sectionComment ++ _)
      (.sectionComments cfg (joinComments [] line)) = _
    rw [run_sectionComments, ← List.foldl_cons, hlines]
    rfl

/-- The section before its first item. -/
def newItems (b : Bool) (cfg : List CfgSection) (pComments pName : List Char) :
    Items (List CfgSection) CfgSection :=
  ⟨cfg, ⟨pComments, pName, []⟩, ⟨b, [], [], none, []⟩⟩

theorem run_sectionEnd (hrest : rest.head? ≠ some .sectionDateBegin) :
    run (contentActions b) rest (.sectionEnd cfg pComments n) =
      run (contentActions b) rest (.items (newItems b cfg pComments n)) := by
  cases rest with
  | nil => rfl
  | cons token rest =>
    cases token with
    | sectionDateBegin => exact absurd rfl hrest
    | _ => rfl

/-- No item and no date begins here. -/
def Opens (tokens : List Token) : Prop :=
  tokens = [] ∨ ∃ rest, tokens = .sectionBegin :: rest ∨ ∃ p, tokens = .sectionComment p :: rest

theorem opens_sections (ss : List CfgSection) : Opens (ss.flatMap sectionTokens) := by
  cases ss with
  | nil => exact Or.inl rfl
  | cons s ss =>
    right
    rw [List.flatMap_cons]
    unfold sectionTokens commentTokens
    by_cases hempty : s.comment = []
    · rw [if_pos hempty]
      exact ⟨_, Or.inl rfl⟩
    · obtain ⟨line, lines, hsplit⟩ := List.exists_cons_of_ne_nil (List.splitOn_ne_nil '\n' s.comment)
      rw [if_neg hempty, hsplit]
      exact ⟨_, Or.inr ⟨line, rfl⟩⟩

theorem Opens.run_items (h : Opens rest) :
    run (contentActions b) rest (.items x) =
      closeSection (contentActions b) x >>= fun cfg => run (contentActions b) rest (.sections cfg) := by
  rcases h with rfl | ⟨rest, rfl | ⟨p, rfl⟩⟩
  · show closeSection (contentActions b) x = _
    rcases closeSection (contentActions b) x with e | cfg
    · rfl
    · rfl
  · show (closeSection (contentActions b) x >>= fun cfg => onSections cfg .sectionBegin) >>= _ = _
    rcases closeSection (contentActions b) x with e | cfg
    · rfl
    · rfl
  · show (closeSection (contentActions b) x >>= fun cfg => onSections cfg (.sectionComment p)) >>= _ = _
    rcases closeSection (contentActions b) x with e | cfg
    · rfl
    · rfl

/-- The head of the items and of what follows them. -/
theorem head_items (is : List CfgItem) (h : Opens rest) :
    (is.flatMap itemTokens ++ rest).head? ≠ some .sectionDateBegin ∧
      (is.flatMap itemTokens ++ rest).head? ≠ some (.char '=') := by
  cases is with
  | nil =>
    rcases h with rfl | ⟨rest, rfl | ⟨p, rfl⟩⟩
    all_goals exact ⟨by simp, by simp⟩
  | cons i is =>
    rw [List.flatMap_cons]
    unfold itemTokens commentTokens
    by_cases hempty : i.comment = []
    · rw [if_pos hempty]
      exact ⟨by simp, by simp⟩
    · obtain ⟨line, lines, hsplit⟩ := List.exists_cons_of_ne_nil (List.splitOn_ne_nil '\n' i.comment)
      rw [if_neg hempty, hsplit]
      exact ⟨by simp, by simp⟩

/-- A section without a date. -/
theorem run_section {s : CfgSection} (hdate : s.date = none) (h : Opens rest) :
    run (contentActions b) (sectionTokens s ++ rest) (.sections cfg) =
      run (contentActions b) rest (.sections (cfg ++ [readSection b s])) := by
  unfold sectionTokens
  rw [List.append_assoc, List.cons_append, List.cons_append, List.cons_append, run_sectionHead, hdate]
  show run (contentActions b) (s.items.flatMap itemTokens ++ rest) _ = _
  rw [run_sectionEnd (head_items s.items h).1, run_items, h.run_items]
  rfl

theorem run_itemName (hrest : rest.head? ≠ some (.char '=')) :
    run (contentActions b) rest (.itemName x pComments n) = .error .syntaxError := by
  cases rest with
  | nil => rfl
  | cons token rest =>
    cases token with
    | char d =>
      have hd : d ≠ '=' := fun hd => hrest (by rw [hd]; rfl)
      show step (contentActions b) (.itemName x pComments n) (.char d) >>= _ = _
      rw [step_itemName_of_ne _ _ _ _ hd]
      rfl
    | _ => rfl

/-- **A section with a date**: the date is taken for the name of an item. -/
theorem run_datedSection {s : CfgSection} (hdate : s.date ≠ none) (h : Opens rest) :
    run (contentActions b) (sectionTokens s ++ rest) (.sections cfg) = .error .syntaxError := by
  obtain ⟨d, hd⟩ := Option.ne_none_iff_exists'.mp hdate
  unfold sectionTokens
  rw [List.append_assoc, List.cons_append, List.cons_append, List.cons_append, run_sectionHead, hd]
  exact run_itemName (head_items s.items h).2

/-- **All the sections.** -/
theorem run_sections (ss : List CfgSection) :
    run (contentActions b) (ss.flatMap sectionTokens) (.sections cfg) =
      if ∀ s ∈ ss, s.date = none then .ok (cfg ++ ss.map (readSection b)) else .error .syntaxError := by
  induction ss generalizing cfg with
  | nil =>
    rw [if_pos (by simp), List.map_nil, List.append_nil]
    rfl
  | cons s ss ih =>
    have hrest := opens_sections ss
    rw [List.flatMap_cons]
    by_cases hdate : s.date = none
    · rw [run_section hdate hrest, ih, List.append_assoc]
      simp only [List.mem_cons, forall_eq_or_imp, hdate, true_and]
      rfl
    · rw [run_datedSection hdate hrest, if_neg fun hall => hdate (hall s List.mem_cons_self)]

/-! ### Written and read -/

/-- `ExceptRel` on a computation that ends well, and on one that does not. -/
theorem ExceptRel.of_ok {ε α β : Type} {R : α → β → Prop} {r : Except ε α} {v : β}
    (h : ExceptRel R r (.ok v)) : ∃ a, r = .ok a ∧ R a v := by
  cases h with
  | ok h => exact ⟨_, rfl, h⟩

theorem ExceptRel.of_error {ε α β : Type} {R : α → β → Prop} {r : Except ε α} {e : ε}
    (h : ExceptRel R r (.error e : Except ε β)) : r = .error e := by
  cases h with
  | error e => rfl

variable {g : Globals} {conf : Config}

/-- **A readable configuration is read back**, but for its comments, its lists and the case
sensitivity, which are as `readSection` says, unless a section of it has a date. -/
theorem yyparse_write (hg : g.Valid) (h : Config.Holds (.initialized conf) ss)
    (hss : ∀ s ∈ ss, ReadableSection s) :
    ∃ text, conf.write = .ok text ∧
      if ∀ s ∈ ss, s.date = none then
        ∃ t, yyparse (objectActions g) (yylex text) = .ok t ∧
          Config.Holds t (ss.map (readSection g.gbIsCaseSensitive))
      else yyparse (objectActions g) (yylex text) = .error .syntaxError := by
  obtain ⟨conf', heq, hsections⟩ := h
  cases heq
  obtain ⟨text, hwrite, htext⟩ := yylex_write hsections hss
  refine ⟨text, hwrite, ?_⟩
  have hrun : yyparse (contentActions g.gbIsCaseSensitive) (yylex text) =
      if ∀ s ∈ ss, s.date = none then .ok ([] ++ ss.map (readSection g.gbIsCaseSensitive))
      else .error .syntaxError := by
    rw [htext]
    exact run_sections ss
  have hobjects := yyparse_objects hg (yylex text)
  rw [hrun] at hobjects
  split at hobjects
  · next hdates =>
    rw [if_pos hdates]
    exact hobjects.of_ok
  · next hdates =>
    rw [if_neg hdates]
    exact hobjects.of_error

/-- An item with a comment and a list of two values. -/
def listItem : ConfigurationItem :=
  ⟨true, ['x'], ['c'], 1, [['a', ' ', 'b'], ['1', ',', '2']], 2⟩

/-- A section whose comment begins with an empty line. -/
def listSection : ConfigurationSection :=
  ⟨true, ['A'], ['\n', 'n'], none, 1, [.initialized listItem], 1⟩

def listConfig : Config := ⟨true, [], 1, [.initialized listSection], 1⟩

theorem listItem_readable : ReadableItem listItem.contents where
  comment := by simp [PlainComment, listItem, ConfigurationItem.contents]
  name := by
    show ReadableName ['x']
    unfold ReadableName
    rw [if_neg (by decide)]
    exact ⟨by decide, by decide, by decide⟩
  values := by
    show ∀ p ∈ [['a', ' ', 'b'], ['1', ',', '2']], ReadableListValue p
    intro p hp
    rcases List.mem_cons.mp hp with rfl | hp
    · exact Or.inr (by rw [if_pos (by decide)]; decide)
    · rw [List.mem_singleton.mp hp]
      refine Or.inr ?_
      rw [if_neg (by decide)]
      intro q hq
      have hq : q ∈ [['1'], ['2']] := hq
      rcases List.mem_cons.mp hq with rfl | hq
      · exact ⟨by decide, by decide, by decide⟩
      · rw [List.mem_singleton.mp hq]
        exact ⟨by decide, by decide, by decide⟩

theorem yyparse_write_listConfig :
    ∃ text, listConfig.write = .ok text ∧
      ∃ t, yyparse (objectActions ⟨true, 1, 1, 1⟩) (yylex text) = .ok t ∧
        Config.Holds t
          [⟨true, ['A'], ['n'], none, [⟨true, ['x'], ['c'], [['a', ' ', 'b'], ['1'], ['2']]⟩]⟩] := by
  have hA : ReadableName ['A'] := by
    unfold ReadableName
    rw [if_neg (by decide)]
    exact ⟨by decide, by decide, by decide⟩
  have hsection : ReadableSection ⟨true, ['A'], ['\n', 'n'], none, [listItem.contents]⟩ :=
    ⟨by simp [PlainComment], hA, by simp, fun i hi => List.mem_singleton.mp hi ▸ listItem_readable⟩
  have hholds : Config.Holds (.initialized listConfig)
      [⟨true, ['A'], ['\n', 'n'], none, [listItem.contents]⟩] :=
    ⟨_, rfl, .cons ⟨_, rfl, rfl, rfl, rfl, rfl, rfl, .cons ⟨_, rfl, rfl⟩ .nil⟩ .nil⟩
  have hg : Globals.Valid ⟨true, 1, 1, 1⟩ := ⟨Int.le_refl 1, Int.le_refl 1, Int.le_refl 1⟩
  obtain ⟨text, hwrite, h⟩ :=
    yyparse_write hg hholds fun s hs => List.mem_singleton.mp hs ▸ hsection
  refine ⟨text, hwrite, ?_⟩
  rw [if_pos (by simp)] at h
  exact h

/-! ### Read texts -/

theorem PlainComment.read (h : PlainComment c) : PlainComment (readComment c) :=
  fun hmem => h ((List.dropWhile_sublist _).subset hmem)

end ConfigurationFile

end CatraLibraries
