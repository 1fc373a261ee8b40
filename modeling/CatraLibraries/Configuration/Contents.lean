/-
# The contents of a configuration

What the operations do, on the contents alone: a list of sections, each with a list of items.  An
operation gives the new contents, or an error, and with an error the contents stay.  `Does` says that
the code does the same; there is one such theorem for each operation.
-/
import CatraLibraries.Configuration.Operations
import CatraLibraries.Lib.Refinement

namespace CatraLibraries

namespace Configuration

open Memory

/-- A configuration as its user knows it. -/
structure Contents where
  caseSensitive : Bool
  sections : List CfgSection
  deriving DecidableEq, Repr

/-- The index of the first item of that name, or the number of the items. -/
def CfgSection.indexOf (pItemName : List Char) (s : CfgSection) : Nat :=
  s.items.findIdx fun i => sameName i.caseSensitive i.name pItemName

theorem CfgSection.indexOf_cases (pItemName : List Char) (s : CfgSection) :
    (s.indexOf pItemName = s.items.length ∧ s.items[s.indexOf pItemName]? = none) ∨
      ∃ i, s.items[s.indexOf pItemName]? = some i ∧ s.indexOf pItemName < s.items.length := by
  rcases FirstMatch.findIdx_cases (fun i => sameName i.caseSensitive i.name pItemName) s.items with
    h | ⟨i, hsome, -, hlt⟩
  · exact Or.inl h
  · exact Or.inr ⟨i, hsome, hlt⟩

/-- A change of the first item of that name. -/
def CfgSection.changeItem (pItemName : List Char) (change : CfgItem → Except OperationError CfgItem)
    (s : CfgSection) : Except OperationError CfgSection :=
  match s.items[s.indexOf pItemName]? with
  | none => .error .cfgConfigurationSectionGetPtrCfgItemByNameFailed
  | some i => (change i).map fun i => { s with items := s.items.set (s.indexOf pItemName) i }

/-- One more item. -/
def CfgSection.append (s : CfgSection) (i : CfgItem) : CfgSection := { s with items := s.items ++ [i] }

/-- One more value of the first item of that name, or a new item. -/
def CfgSection.appendValue (b : Bool) (pItemName pValue : List Char) (s : CfgSection) : CfgSection :=
  match s.items[s.indexOf pItemName]? with
  | none => s.append ⟨b, pItemName, [], [pValue]⟩
  | some i =>
    { s with items := s.items.set (s.indexOf pItemName) { i with values := i.values ++ [pValue] } }

/-- Another value at an index. -/
def CfgItem.setValue (pNewValue : List Char) (index : Int) (i : CfgItem) :
    Except OperationError CfgItem :=
  if (i.values.length : Int) ≤ index then .error .cfgConfigurationItemModifyItemValueFailed
  else .ok { i with values := i.values.set index.toNat pNewValue }

/-- The value at an index, for a buffer of that length. -/
def CfgItem.value (ulMaxItemValueLength : Nat) (index : Int) (i : CfgItem) :
    Except OperationError (List Char) :=
  if (i.values.length : Int) ≤ index then .error (.configuration .cfgActivationWrong)
  else if ulMaxItemValueLength ≤ (i.values.getD index.toNat []).length then
    .error (.cfgConfigurationItemBufferTooShort ulMaxItemValueLength)
  else .ok (i.values.getD index.toNat [])

namespace Contents

/-- The section of that name, or one without items at the end. -/
def changeOrAppend (pSectionName : List Char) (change : CfgSection → CfgSection) (c : Contents) :
    Contents :=
  match c.sections[Config.indexOf pSectionName c.sections]? with
  | none => { c with sections := c.sections ++ [change ⟨c.caseSensitive, pSectionName, [], none, []⟩] }
  | some s =>
    { c with sections := c.sections.set (Config.indexOf pSectionName c.sections) (change s) }

/-- A change of the first section of that name. -/
def changeSection (pSectionName : List Char) (change : CfgSection → Except OperationError CfgSection)
    (c : Contents) : Except OperationError Contents :=
  match c.sections[Config.indexOf pSectionName c.sections]? with
  | none => .error (.configuration (.cfgSectionNotFound pSectionName))
  | some s => (change s).map fun s =>
    { c with sections := c.sections.set (Config.indexOf pSectionName c.sections) s }

/-- The last section takes the place of the first one of that name. -/
def removeSection (pSectionName : List Char) (c : Contents) : Except OperationError Contents :=
  if Config.indexOf pSectionName c.sections < c.sections.length then
    .ok { c with
      sections := (c.sections.set (Config.indexOf pSectionName c.sections)
        (c.sections.getLastD ⟨true, [], [], none, []⟩)).dropLast }
  else .error (.configuration (.cfgSectionNotFound pSectionName))

/-- The value of an item. -/
def value (pSectionName pItemName : List Char) (ulMaxItemValueLength : Nat) (index : Int)
    (c : Contents) : Except OperationError (List Char) :=
  match c.sections[Config.indexOf pSectionName c.sections]? with
  | none => .error (.configuration (.cfgSectionNotFound pSectionName))
  | some s =>
    match s.items[s.indexOf pItemName]? with
    | none => .error (.cfgItemNotFound pItemName)
    | some i => i.value ulMaxItemValueLength index

end Contents

/-! ### What the code does -/

/-- The result is the one of `spec`, and the object has the contents of `spec`, or the ones that it had. -/
def Does {σ τ : Type} (Hold : σ → τ → Prop)
    (outcome : Except Fault (Except OperationError Unit × σ)) (s : τ)
    (spec : Except OperationError τ) : Prop :=
  ∃ t, outcome = .ok (spec.map fun _ => (), t) ∧ Hold t (spec.toOption.getD s)

/-- A call whose object is known. -/
theorem Does.of_ok {σ τ : Type} {Hold : σ → τ → Prop} {t : σ} {s s' : τ} (h : Hold t s') :
    Does Hold (.ok (.ok (), t)) s (.ok s') :=
  ⟨t, rfl, h⟩

theorem Does.of_error {σ τ : Type} {Hold : σ → τ → Prop} {t : σ} {s : τ} {e : OperationError}
    (h : Hold t s) : Does Hold (.ok (.error e, t)) s (.error e) :=
  ⟨t, rfl, h⟩

/-- The members of a configuration with these contents; its name is one that `init` takes. -/
structure Config.Members (cfg : Config) (c : Contents) : Prop where
  name : cfg.pConfigName.length ≤ 256
  caseSensitive : cfg.bIsCaseSensitive = c.caseSensitive
  sections : List.Forall₂ ConfigurationSection.Holds cfg.pcsCfgSections c.sections

/-- An initialized configuration with these contents. -/
def Config.Keeps (t : Object Config) (c : Contents) : Prop :=
  ∃ cfg, t = .initialized cfg ∧ cfg.Members c

variable {pSectionName pItemName : List Char} {t : Object Config} {c : Contents} {s : CfgSection}
  {i : CfgItem} {csSection : Object ConfigurationSection} {ciCfgItem : Object ConfigurationItem}
  {lCfgItemsToAllocOnOverflow lBufferToAllocOnOverflow : Int}

/-! ### Items -/

namespace ConfigurationItem

theorem isNamed_of_holds (h : Holds ciCfgItem i) (pItemName : List Char) :
    isNamed pItemName ciCfgItem = .ok (sameName i.caseSensitive i.name pItemName) := by
  obtain ⟨item, rfl, rfl⟩ := h
  rfl

/-- The value at an index that is not negative. -/
theorem does_modifyItemValue (h : Holds ciCfgItem i) (pNewValue : List Char) {index : Int}
    (hindex : 0 ≤ index) :
    ∃ r ciCfgItem', modifyItemValue (some pNewValue) index ciCfgItem = .ok (r, ciCfgItem') ∧
      Does Holds (.ok (Config.called .cfgConfigurationItemModifyItemValueFailed r, ciCfgItem')) i
        (i.setValue pNewValue index) := by
  obtain ⟨item, rfl, rfl⟩ := h
  unfold modifyItemValue CfgItem.setValue
  dsimp only
  by_cases hlong : (item.pValues.length : Int) ≤ index
  · refine ⟨_, _, if_pos hlong, ?_⟩
    have hlong' : (item.contents.values.length : Int) ≤ index := hlong
    rw [if_pos hlong']
    exact Does.of_error ⟨item, rfl, rfl⟩
  · rw [if_neg hlong, if_neg (Int.not_lt.mpr hindex)]
    have hlong' : ¬(item.contents.values.length : Int) ≤ index := hlong
    rw [if_neg hlong']
    exact ⟨_, _, rfl, Does.of_ok ⟨_, rfl, rfl⟩⟩

theorem getItemValue_of_holds (h : Holds ciCfgItem i) (ulMaxItemValueLength : Nat) {index : Int}
    (hindex : 0 ≤ index) :
    getItemValue ulMaxItemValueLength index ciCfgItem = .ok (i.value ulMaxItemValueLength index) := by
  obtain ⟨item, rfl, rfl⟩ := h
  unfold getItemValue CfgItem.value
  show (if (item.pValues.length : Int) ≤ index then _ else _) =
    Except.ok (if (item.pValues.length : Int) ≤ index then _ else _)
  split
  · rfl
  · rw [if_neg (Int.not_lt.mpr hindex)]
    show (if ulMaxItemValueLength ≤ (item.pValues.getD index.toNat []).length then _ else _) =
      Except.ok (if ulMaxItemValueLength ≤ (item.pValues.getD index.toNat []).length then _ else _)
    split
    · rfl
    · rfl

end ConfigurationItem

/-! ### Sections -/

namespace ConfigurationSection

theorem findCfgItem_of_members {cs : ConfigurationSection} (h : cs.Members s) (pItemName : List Char) :
    findCfgItem pItemName cs.pciCfgItems = .ok (s.indexOf pItemName) :=
  FirstMatch.find_eq (fun _ _ hitem => ConfigurationItem.isNamed_of_holds hitem pItemName) h.items

/-- The item that is found, or that there is none. -/
theorem getPtrCfgItemByName_of_holds (h : Holds csSection s) (pItemName : List Char) :
    getPtrCfgItemByName pItemName csSection = .ok (match s.items[s.indexOf pItemName]? with
      | none => .error (.cfgItemNotFound pItemName)
      | some _ => .ok (s.indexOf pItemName)) := by
  obtain ⟨cs, rfl, hm⟩ := h
  unfold getPtrCfgItemByName
  dsimp only
  rw [findCfgItem_of_members hm, ok_bind, hm.items.length_eq]
  rcases s.indexOf_cases pItemName with ⟨hlast, hnone⟩ | ⟨i, hsome, hlt⟩
  · rw [if_neg (Nat.not_lt.mpr (Nat.le_of_eq hlast.symm)), hnone]
    rfl
  · rw [if_pos hlt, hsome]
    rfl

theorem holds_item (h : Holds csSection s) {n : Nat} (hi : s.items[n]? = some i) :
    ConfigurationItem.Holds (item n csSection) i := by
  obtain ⟨cs, rfl, hm⟩ := h
  exact FirstMatch.forall₂_getD hm.items hi _

theorem holds_setItem (h : Holds csSection s) (n : Nat) (hitem : ConfigurationItem.Holds ciCfgItem i) :
    Holds (setItem n ciCfgItem csSection) { s with items := s.items.set n i } := by
  obtain ⟨cs, rfl, hm⟩ := h
  exact ⟨_, rfl, { hm with items := FirstMatch.forall₂_set hm.items n hitem }⟩

theorem getCfgItemByName_of_holds (h : Holds csSection s) (pItemName : List Char)
    (hbuf : 1 ≤ lBufferToAllocOnOverflow) :
    ∃ r, getCfgItemByName pItemName lBufferToAllocOnOverflow csSection = .ok r ∧
      match s.items[s.indexOf pItemName]? with
      | none => r = .error (.cfgItemNotFound pItemName)
      | some i => ∃ ciCfgItem, r = .ok ciCfgItem ∧ ConfigurationItem.Holds ciCfgItem i := by
  obtain ⟨cs, rfl, hm⟩ := h
  unfold getCfgItemByName
  dsimp only
  rw [findCfgItem_of_members hm, ok_bind, hm.items.length_eq]
  rcases s.indexOf_cases pItemName with ⟨hlast, hnone⟩ | ⟨i, hsome, hlt⟩
  · rw [if_neg (Nat.not_lt.mpr (Nat.le_of_eq hlast.symm)), hnone]
    exact ⟨_, rfl, rfl⟩
  · rw [if_pos hlt]
    obtain ⟨dest, hcopy, hdest⟩ :=
      ConfigurationItem.holds_copy (FirstMatch.forall₂_getD hm.items hsome .builded) hbuf
    rw [hsome, hcopy]
    exact ⟨_, rfl, dest, rfl, hdest⟩

end ConfigurationSection

/-! ### The whole configuration -/

namespace Config

theorem indexOf_cases (pSectionName : List Char) (ss : List CfgSection) :
    (indexOf pSectionName ss = ss.length ∧ ss[indexOf pSectionName ss]? = none) ∨
      ∃ s, ss[indexOf pSectionName ss]? = some s ∧ indexOf pSectionName ss < ss.length := by
  rcases FirstMatch.findIdx_cases (fun s : CfgSection => sameName s.caseSensitive s.name pSectionName) ss
    with h | ⟨s, hsome, -, hlt⟩
  · exact Or.inl h
  · exact Or.inr ⟨s, hsome, hlt⟩

theorem keeps_setSection {cfg : Config} (hm : cfg.Members c) (n : Nat)
    (hs : ConfigurationSection.Holds csSection s) :
    Keeps (cfg.setSection n csSection) { c with sections := c.sections.set n s } :=
  ⟨_, rfl, hm.name, hm.caseSensitive, FirstMatch.forall₂_set hm.sections n hs⟩

/-- **A change of a section**, when the change of the object is the one of the contents. -/
theorem does_modifySection {change : Object ConfigurationSection → Except Fault
    (Except OperationError Unit × Object ConfigurationSection)}
    {spec : CfgSection → Except OperationError CfgSection}
    (hchange : ∀ {csSection s}, ConfigurationSection.Holds csSection s →
      Does ConfigurationSection.Holds (change csSection) s (spec s)) (h : Keeps t c) :
    Does Keeps (modifySection pSectionName change t) c (c.changeSection pSectionName spec) := by
  obtain ⟨cfg, rfl, hm⟩ := h
  unfold modifySection Contents.changeSection
  dsimp only
  rw [findCfgSection_of_holds hm.sections, ok_bind, hm.sections.length_eq]
  rcases indexOf_cases pSectionName c.sections with ⟨hlast, hnone⟩ | ⟨s, hsome, hlt⟩
  · rw [if_pos hlast, hnone]
    exact Does.of_error ⟨cfg, rfl, hm⟩
  · rw [if_neg (Nat.ne_of_lt hlt), hsome]
    obtain ⟨csSection, heq, hholds⟩ := hchange (FirstMatch.forall₂_getD hm.sections hsome .builded)
    unfold sectionAt
    rw [heq, ok_bind]
    dsimp only
    cases hspec : spec s with
    | error e =>
      rw [hspec] at hholds
      have hkeeps := keeps_setSection hm (indexOf pSectionName c.sections) hholds
      dsimp only [Except.toOption, Option.getD_none] at hkeeps
      rw [FirstMatch.set_self hsome] at hkeeps
      exact Does.of_error hkeeps
    | ok s' =>
      rw [hspec] at hholds
      exact Does.of_ok (keeps_setSection hm _ hholds)

/-- **A change of an item.** -/
theorem does_modifyItem {change : Object ConfigurationItem → Except Fault
    (Except OperationError Unit × Object ConfigurationItem)}
    {spec : CfgItem → Except OperationError CfgItem}
    (hchange : ∀ {ciCfgItem i}, ConfigurationItem.Holds ciCfgItem i →
      Does ConfigurationItem.Holds (change ciCfgItem) i (spec i)) (h : Keeps t c) :
    Does Keeps (modifyItem pSectionName pItemName change t) c
      (c.changeSection pSectionName (CfgSection.changeItem pItemName spec)) := by
  refine does_modifySection (fun {csSection s} hs => ?_) h
  dsimp only
  rw [ConfigurationSection.getPtrCfgItemByName_of_holds hs, ok_bind]
  unfold CfgSection.changeItem
  rcases s.indexOf_cases pItemName with ⟨-, hnone⟩ | ⟨i, hsome, -⟩
  · rw [hnone]
    exact Does.of_error hs
  · rw [hsome]
    obtain ⟨ciCfgItem, heq, hholds⟩ := hchange (ConfigurationSection.holds_item hs hsome)
    dsimp only
    rw [heq, ok_bind]
    dsimp only
    cases hspec : spec i with
    | error e =>
      rw [hspec] at hholds
      have hset := ConfigurationSection.holds_setItem hs (s.indexOf pItemName) hholds
      dsimp only [Except.toOption, Option.getD_none] at hset
      rw [FirstMatch.set_self hsome] at hset
      exact Does.of_error hset
    | ok i' =>
      rw [hspec] at hholds
      exact Does.of_ok (ConfigurationSection.holds_setItem hs _ hholds)

theorem growSections_of_members {cfg : Config} (hm : cfg.Members c)
    (hitems : 1 ≤ lCfgItemsToAllocOnOverflow) (hbuf : 1 ≤ lBufferToAllocOnOverflow) :
    ∃ cfg', growSections lCfgItemsToAllocOnOverflow lBufferToAllocOnOverflow cfg = .ok cfg' ∧
      cfg'.Members c := by
  unfold growSections
  split
  · obtain ⟨dests, hcopies, hdests⟩ := copySections_of_holds hitems hbuf hm.sections
    rw [hcopies]
    exact ⟨_, rfl, hm.name, hm.caseSensitive, hdests⟩
  · exact ⟨cfg, rfl, hm⟩

/-- `appendCfgSection`: one more section. -/
theorem keeps_appendCfgSection (h : Keeps t c) (hs : ConfigurationSection.Holds csSection s)
    (hitems : 1 ≤ lCfgItemsToAllocOnOverflow) (hbuf : 1 ≤ lBufferToAllocOnOverflow) :
    ∃ t', appendCfgSection (some csSection) lCfgItemsToAllocOnOverflow lBufferToAllocOnOverflow t =
        (.ok (), t') ∧ Keeps t' { c with sections := c.sections ++ [s] } := by
  obtain ⟨cfg, rfl, hm⟩ := h
  obtain ⟨cfg', hgrow, hm'⟩ := growSections_of_members hm hitems hbuf
  obtain ⟨dest, hcopy, hdest⟩ := ConfigurationSection.holds_copy hs hitems (.inr hbuf)
  refine ⟨.initialized { cfg' with pcsCfgSections := cfg'.pcsCfgSections ++ [dest] }, ?_, _, rfl,
    hm'.name, hm'.caseSensitive, List.rel_append hm'.sections (.cons hdest .nil)⟩
  unfold appendCfgSection
  dsimp only
  rw [hgrow]
  dsimp only
  rw [hcopy]

/-- The section that is filled is appended, and is still there to be finished. -/
theorem keeps_appendFilled {cfg : Config} (h : Keeps (.initialized cfg) c)
    (hs : ConfigurationSection.Holds csSection s) (hi : ConfigurationItem.Holds ciCfgItem i)
    (hitems : 1 ≤ lCfgItemsToAllocOnOverflow) (hbuf : 1 ≤ lBufferToAllocOnOverflow) :
    ∃ csSection' t', appendFilled csSection (some ciCfgItem) lCfgItemsToAllocOnOverflow
        lBufferToAllocOnOverflow cfg = (.ok csSection', t') ∧
      ConfigurationSection.Holds csSection' (s.append i) ∧
      Keeps t' { c with sections := c.sections ++ [s.append i] } := by
  obtain ⟨csSection', hfill, hs'⟩ := ConfigurationSection.holds_appendCfgItem hs hi hbuf
  obtain ⟨t', happend, hkeeps⟩ := keeps_appendCfgSection h hs' hitems hbuf
  refine ⟨csSection', t', ?_, hs', hkeeps⟩
  unfold appendFilled
  rw [hfill]
  dsimp only
  rw [happend]

/-- **`appendCfgItem`** puts the item in the section of that name, or in a new one. -/
theorem does_appendCfgItem (h : Keeps t c) (hi : ConfigurationItem.Holds ciCfgItem i)
    (hitems : 1 ≤ lCfgItemsToAllocOnOverflow) (hbuf : 1 ≤ lBufferToAllocOnOverflow) :
    Does Keeps (appendCfgItem pSectionName (some ciCfgItem) lCfgItemsToAllocOnOverflow
      lBufferToAllocOnOverflow t) c (.ok (c.changeOrAppend pSectionName fun s => s.append i)) := by
  have hkeeps := h
  obtain ⟨cfg, rfl, hm⟩ := h
  unfold appendCfgItem Contents.changeOrAppend
  dsimp only
  rw [findCfgSection_of_holds hm.sections, ok_bind, hm.sections.length_eq]
  rcases indexOf_cases pSectionName c.sections with ⟨hlast, hnone⟩ | ⟨s, hsome, hlt⟩
  · have hdate : (none : Option (List Char)).all ConfigurationSection.isValidDate = true := rfl
    obtain ⟨csSection, hinit, hs⟩ :=
      ConfigurationSection.holds_init pSectionName [] cfg.bIsCaseSensitive hdate hitems
    obtain ⟨csSection', t', hfill, hs', hkeeps'⟩ := keeps_appendFilled hkeeps hs hi hitems hbuf
    rw [if_pos hlast, hinit]
    dsimp only
    rw [hfill]
    dsimp only
    rw [ConfigurationSection.finish_of_holds hs', hnone]
    rw [hm.caseSensitive] at hkeeps'
    exact Does.of_ok hkeeps'
  · rw [if_neg (Nat.ne_of_lt hlt), hsome]
    obtain ⟨csSection', hfill, hs'⟩ := ConfigurationSection.holds_appendCfgItem
      (FirstMatch.forall₂_getD hm.sections hsome .builded) hi hbuf
    unfold sectionAt
    rw [hfill]
    exact Does.of_ok (keeps_setSection hm _ hs')

theorem holds_newItem {cfg : Config} (hb : cfg.bIsCaseSensitive = c.caseSensitive)
    (pItemName pValue : List Char) (hbuf : 1 ≤ lBufferToAllocOnOverflow) :
    ∃ ciCfgItem, cfg.newItem (some pItemName) (some pValue) lBufferToAllocOnOverflow = .ok ciCfgItem ∧
      ConfigurationItem.Holds ciCfgItem ⟨c.caseSensitive, pItemName, [], [pValue]⟩ := by
  obtain ⟨t₁, hinit, h₁⟩ := ConfigurationItem.holds_init pItemName [] cfg.bIsCaseSensitive hbuf
  obtain ⟨t₂, happend, h₂⟩ := ConfigurationItem.holds_appendItemValue pValue h₁
  rw [hb] at h₂
  refine ⟨t₂, ?_, h₂⟩
  unfold newItem
  rw [hinit]
  dsimp only
  rw [happend]

/-- **`appendItemValue`** adds the value to the item of that name, or to a new one, in the section of
that name or in a new one. -/
theorem does_appendItemValue (h : Keeps t c) (pValue : List Char)
    (hitems : 1 ≤ lCfgItemsToAllocOnOverflow) (hbuf : 1 ≤ lBufferToAllocOnOverflow) :
    Does Keeps (appendItemValue pSectionName pItemName (some pValue) lCfgItemsToAllocOnOverflow
      lBufferToAllocOnOverflow t) c (.ok (c.changeOrAppend pSectionName
        (CfgSection.appendValue c.caseSensitive pItemName pValue))) := by
  have hkeeps := h
  obtain ⟨cfg, rfl, hm⟩ := h
  obtain ⟨ciCfgItem, hnew, hi⟩ := holds_newItem hm.caseSensitive pItemName pValue hbuf
  unfold appendItemValue Contents.changeOrAppend
  dsimp only
  rw [findCfgSection_of_holds hm.sections, ok_bind, hm.sections.length_eq]
  rcases indexOf_cases pSectionName c.sections with ⟨hlast, hnone⟩ | ⟨s, hsome, hlt⟩
  · have hdate : (none : Option (List Char)).all ConfigurationSection.isValidDate = true := rfl
    obtain ⟨csSection, hinit, hs⟩ :=
      ConfigurationSection.holds_init pSectionName [] cfg.bIsCaseSensitive hdate hitems
    obtain ⟨csSection', t', hfill, hs', hkeeps'⟩ := keeps_appendFilled hkeeps hs hi hitems hbuf
    rw [if_pos hlast, hinit]
    dsimp only
    rw [hnew]
    dsimp only
    rw [hfill]
    dsimp only
    rw [ConfigurationItem.finish_of_holds hi, ConfigurationSection.finish_of_holds hs', hnone]
    rw [hm.caseSensitive] at hkeeps'
    exact Does.of_ok hkeeps'
  · have hs := FirstMatch.forall₂_getD hm.sections hsome (.builded)
    rw [if_neg (Nat.ne_of_lt hlt), hsome]
    unfold sectionAt CfgSection.appendValue
    dsimp only
    rw [ConfigurationSection.getPtrCfgItemByName_of_holds hs, ok_bind]
    rcases s.indexOf_cases pItemName with ⟨-, hitem⟩ | ⟨i, hitem, -⟩
    · obtain ⟨csSection', hfill, hs'⟩ := ConfigurationSection.holds_appendCfgItem hs hi hbuf
      rw [hitem]
      dsimp only
      rw [hnew]
      dsimp only
      rw [hfill]
      dsimp only
      rw [ConfigurationItem.finish_of_holds hi]
      exact Does.of_ok (keeps_setSection hm _ hs')
    · obtain ⟨ciCfgItem', happend, hi'⟩ := ConfigurationItem.holds_appendItemValue pValue
        (ConfigurationSection.holds_item hs hitem)
      rw [hitem]
      dsimp only
      rw [happend]
      exact Does.of_ok (keeps_setSection hm _ (ConfigurationSection.holds_setItem hs _ hi'))

/-! ### The other changes -/

theorem does_modifySectionComment (h : Keeps t c) (pSectionComment : List Char) :
    Does Keeps (modifySectionComment pSectionName (some pSectionComment) t) c
      (c.changeSection pSectionName fun s => .ok { s with comment := pSectionComment }) := by
  refine does_modifySection (fun {csSection s} hs => ?_) h
  obtain ⟨csSection', hmodify, hs'⟩ :=
    ConfigurationSection.holds_modifySectionComment hs pSectionComment
  dsimp only
  rw [hmodify]
  exact Does.of_ok hs'

theorem does_modifySectionDate (h : Keeps t c) (pSectionDate : Option (List Char)) :
    Does Keeps (modifySectionDate pSectionName pSectionDate t) c
      (c.changeSection pSectionName fun s =>
        if pSectionDate.all ConfigurationSection.isValidDate then .ok { s with date := pSectionDate }
        else .error (.configuration .cfgConfigurationSectionModifySectionDateFailed)) := by
  refine does_modifySection (fun {csSection s} hs => ?_) h
  dsimp only
  by_cases hdate : pSectionDate.all ConfigurationSection.isValidDate = true
  · obtain ⟨csSection', hmodify, hs'⟩ := ConfigurationSection.holds_modifySectionDate hs hdate
    rw [hmodify, if_pos hdate]
    exact Does.of_ok hs'
  · obtain ⟨d, rfl⟩ : ∃ d, pSectionDate = some d := by
      cases pSectionDate with
      | none => exact absurd rfl hdate
      | some d => exact ⟨d, rfl⟩
    rw [ConfigurationSection.modifySectionDate_eq_error hs hdate, if_neg hdate]
    exact Does.of_error hs

theorem does_modifyItemComment (h : Keeps t c) (pItemComment : List Char) :
    Does Keeps (modifyItemComment pSectionName pItemName (some pItemComment) t) c
      (c.changeSection pSectionName (CfgSection.changeItem pItemName fun i =>
        .ok { i with comment := pItemComment })) := by
  refine does_modifyItem (fun {ciCfgItem i} hi => ?_) h
  obtain ⟨ciCfgItem', hmodify, hi'⟩ := ConfigurationItem.holds_modifyItemComment hi pItemComment
  dsimp only
  rw [hmodify]
  exact Does.of_ok hi'

theorem does_modifyItemValue (h : Keeps t c) (pNewItemValue : List Char) {index : Int}
    (hindex : 0 ≤ index) :
    Does Keeps (modifyItemValue pSectionName pItemName (some pNewItemValue) index t) c
      (c.changeSection pSectionName (CfgSection.changeItem pItemName
        (CfgItem.setValue pNewItemValue index))) := by
  refine does_modifyItem (fun {ciCfgItem i} hi => ?_) h
  obtain ⟨r, ciCfgItem', hmodify, hdoes⟩ :=
    ConfigurationItem.does_modifyItemValue hi pNewItemValue hindex
  dsimp only
  rw [hmodify, ok_bind]
  exact hdoes

/-- The name and the index are those of a section that is not the last one, or the name of none. -/
def Removable (pSectionName : List Char) (c : Contents) : Prop :=
  indexOf pSectionName c.sections < c.sections.length →
    indexOf pSectionName c.sections + 1 < c.sections.length

theorem dropLast_set_getLastD {α : Type} (pre mid : List α) (a last d : α) :
    ((pre ++ a :: (mid ++ [last])).set pre.length ((pre ++ a :: (mid ++ [last])).getLastD d)).dropLast =
      pre ++ last :: mid := by
  have hshape : ∀ x, pre ++ x :: (mid ++ [last]) = (pre ++ x :: mid) ++ [last] := fun x => by
    rw [List.append_assoc, List.cons_append]
  have hlast : (pre ++ a :: (mid ++ [last])).getLastD d = last := by
    rw [hshape, List.getLastD_concat]
  rw [hlast, set_append_cons, hshape, List.dropLast_concat]

/-- **`removeCfgSection`** puts the last section in the place of the one of that name. -/
theorem does_removeCfgSection (h : Keeps t c) (hremovable : Removable pSectionName c)
    (hitems : 1 ≤ lCfgItemsToAllocOnOverflow) (hbuf : 1 ≤ lBufferToAllocOnOverflow) :
    ∃ r t', removeCfgSection (some pSectionName) lCfgItemsToAllocOnOverflow lBufferToAllocOnOverflow t =
        .ok (r, t') ∧
      Does Keeps (.ok (r.mapError .configuration, t')) c (c.removeSection pSectionName) := by
  obtain ⟨cfg, rfl, hm⟩ := h
  unfold Removable at hremovable
  unfold removeCfgSection Contents.removeSection
  dsimp only
  rw [findCfgSection_of_holds hm.sections, ok_bind, hm.sections.length_eq]
  have hle : indexOf pSectionName c.sections ≤ c.sections.length := List.findIdx_le_length
  generalize indexOf pSectionName c.sections = n at hremovable hle
  by_cases hn : n < c.sections.length
  · have hinner := hremovable hn
    rw [if_neg (Nat.ne_of_lt hn), if_pos hn]
    -- the configuration cut at the section and before the last one
    obtain ⟨pre, s, mid, last, hcut, rfl⟩ : ∃ pre s mid last,
        c.sections = pre ++ s :: (mid ++ [last]) ∧ pre.length = n := by
      have hrest : c.sections.drop (n + 1) ≠ [] := by
        rw [← List.length_pos_iff, List.length_drop]
        omega
      obtain ⟨mid, last, hlast⟩ := List.eq_nil_or_concat (c.sections.drop (n + 1)) |>.resolve_left hrest
      refine ⟨c.sections.take n, c.sections[n], mid, last, ?_, List.length_take_of_le (Nat.le_of_lt hn)⟩
      rw [← List.concat_eq_append, ← hlast, List.getElem_cons_drop, List.take_append_drop]
    obtain ⟨spre, place, spost, hcfg, hpre, hplace, hpost⟩ :=
      exists_append_of_forall₂ (hcut ▸ hm.sections)
    obtain ⟨smid, lastPlace, snil, rfl, hmid, hlast, hnil⟩ := exists_append_of_forall₂ hpost
    obtain rfl := List.forall₂_nil_right_iff.mp hnil
    obtain ⟨dest, hremove, hdest⟩ :=
      removeAt_inner spre smid hplace hlast hitems (Or.inr hbuf)
    rw [hcut, dropLast_set_getLastD, hcfg, ← hpre.length_eq, hremove]
    exact ⟨_, _, rfl, Does.of_ok ⟨_, rfl, hm.name, hm.caseSensitive,
      List.rel_append hpre (.cons hdest hmid)⟩⟩
  · rw [if_neg hn, if_pos (Nat.le_antisymm hle (Nat.not_lt.mp hn))]
    exact ⟨_, _, rfl, Does.of_error ⟨cfg, rfl, hm⟩⟩

/-! ### Initialization and copies -/

theorem keeps_init {pConfigName : List Char} (b : Bool) {lCfgSectionsToAllocOnOverflow : Int}
    (hname : pConfigName.length ≤ 256) (h : 1 ≤ lCfgSectionsToAllocOnOverflow) :
    ∃ t, init (some pConfigName) b lCfgSectionsToAllocOnOverflow .builded = (.ok (), t) ∧
      Keeps t ⟨b, []⟩ := by
  unfold init maxConfigNameLength
  dsimp only
  rw [if_neg (by omega)]
  exact ⟨_, rfl, _, rfl, hname, rfl, .nil⟩

theorem keeps_modifyConfigName (h : Keeps t c) {pConfigName : List Char}
    (hname : pConfigName.length ≤ 256) :
    ∃ t', modifyConfigName (some pConfigName) t = (.ok (), t') ∧ Keeps t' c := by
  obtain ⟨cfg, rfl, hm⟩ := h
  unfold modifyConfigName maxConfigNameLength
  dsimp only
  rw [if_neg (by omega)]
  exact ⟨_, rfl, _, rfl, hname, hm.caseSensitive, hm.sections⟩

theorem finish_of_keeps (h : Keeps t c) : finish t = (.ok (), .builded) := by
  obtain ⟨cfg, rfl, -⟩ := h
  rfl

theorem keeps_copyEach {dest : Object Config} {sections : List (Object ConfigurationSection)}
    {ss : List CfgSection} (h : List.Forall₂ ConfigurationSection.Holds sections ss)
    (hdest : Keeps dest c) (hitems : 1 ≤ lCfgItemsToAllocOnOverflow)
    (hbuf : 1 ≤ lBufferToAllocOnOverflow) :
    ∃ dest', copyEach lCfgItemsToAllocOnOverflow lBufferToAllocOnOverflow dest sections =
        (.ok (), dest') ∧ Keeps dest' { c with sections := c.sections ++ ss } := by
  induction h generalizing dest c with
  | nil => exact ⟨dest, rfl, by rwa [List.append_nil]⟩
  | @cons csSection s sections ss hs _ ih =>
    obtain ⟨csCfgSection, hcopy, hs'⟩ := ConfigurationSection.holds_copy hs hitems (Or.inr hbuf)
    obtain ⟨dest₁, happend, hdest₁⟩ := keeps_appendCfgSection hdest hs' hitems hbuf
    obtain ⟨dest', hrest, hdest'⟩ := ih hdest₁
    refine ⟨dest', ?_, ?_⟩
    · rw [copyEach, hcopy]
      dsimp only
      rw [happend]
      dsimp only
      rw [ConfigurationSection.finish_of_holds hs']
      exact hrest
    · rwa [List.append_assoc] at hdest'

/-- **`copy` makes a configuration with the same contents.** -/
theorem keeps_copy (h : Keeps t c) {lCfgSectionsToAllocOnOverflow : Int}
    (hsections : 1 ≤ lCfgSectionsToAllocOnOverflow) (hitems : 1 ≤ lCfgItemsToAllocOnOverflow)
    (hbuf : 1 ≤ lBufferToAllocOnOverflow) :
    ∃ dest, copy .builded t lCfgSectionsToAllocOnOverflow lCfgItemsToAllocOnOverflow
        lBufferToAllocOnOverflow = (.ok (), dest) ∧ Keeps dest c := by
  obtain ⟨cfg, rfl, hm⟩ := h
  obtain ⟨dest₁, hinit, hdest₁⟩ := keeps_init cfg.bIsCaseSensitive hm.name hsections
  obtain ⟨dest, hcopy, hdest⟩ := keeps_copyEach hm.sections hdest₁ hitems hbuf
  rw [hm.caseSensitive] at hdest
  refine ⟨dest, ?_, hdest⟩
  unfold copy
  dsimp only
  rw [hinit]
  exact hcopy

/-! ### What is found -/

theorem getCfgSectionByName_of_keeps (h : Keeps t c) (pSectionName : List Char)
    (hitems : 1 ≤ lCfgItemsToAllocOnOverflow) (hbuf : 1 ≤ lBufferToAllocOnOverflow) :
    ∃ r, getCfgSectionByName pSectionName lCfgItemsToAllocOnOverflow lBufferToAllocOnOverflow t =
        .ok r ∧
      match c.sections[indexOf pSectionName c.sections]? with
      | none => r = .error (.configuration (.cfgSectionNotFound pSectionName))
      | some s => ∃ csSection, r = .ok csSection ∧ ConfigurationSection.Holds csSection s := by
  obtain ⟨cfg, rfl, hm⟩ := h
  unfold getCfgSectionByName
  dsimp only
  rw [findCfgSection_of_holds hm.sections, ok_bind, hm.sections.length_eq]
  rcases indexOf_cases pSectionName c.sections with ⟨hlast, hnone⟩ | ⟨s, hsome, hlt⟩
  · rw [if_neg (Nat.not_lt.mpr (Nat.le_of_eq hlast.symm)), hnone]
    exact ⟨_, rfl, rfl⟩
  · rw [if_pos hlt]
    obtain ⟨dest, hcopy, hdest⟩ := ConfigurationSection.holds_copy
      (FirstMatch.forall₂_getD hm.sections hsome .builded) hitems (Or.inr hbuf)
    unfold sectionAt
    rw [hsome, hcopy]
    exact ⟨_, rfl, dest, rfl, hdest⟩

/-- **`getItemValue`** finds the value in copies of the section and of the item. -/
theorem getItemValue_of_keeps (h : Keeps t c) (pSectionName pItemName : List Char)
    (ulMaxItemValueLength : Nat) {index : Int} (hindex : 0 ≤ index)
    (hitems : 1 ≤ lCfgItemsToAllocOnOverflow) (hbuf : 1 ≤ lBufferToAllocOnOverflow) :
    getItemValue pSectionName pItemName ulMaxItemValueLength index lCfgItemsToAllocOnOverflow
        lBufferToAllocOnOverflow t =
      .ok (c.value pSectionName pItemName ulMaxItemValueLength index) := by
  unfold getItemValue getCfgItemByName Contents.value
  obtain ⟨r, hget, hr⟩ := getCfgSectionByName_of_keeps h pSectionName hitems hbuf
  rw [hget, ok_bind]
  rcases indexOf_cases pSectionName c.sections with ⟨-, hnone⟩ | ⟨s, hsome, -⟩
  · rw [hnone] at hr ⊢
    rw [hr]
    rfl
  · rw [hsome] at hr ⊢
    obtain ⟨csSection, rfl, hs⟩ := hr
    obtain ⟨r, hget, hr⟩ := ConfigurationSection.getCfgItemByName_of_holds hs pItemName hbuf
    dsimp only
    rw [hget, ok_bind]
    rcases s.indexOf_cases pItemName with ⟨-, hnone⟩ | ⟨i, hsome, -⟩
    · rw [hnone] at hr ⊢
      rw [hr]
      rfl
    · rw [hsome] at hr ⊢
      obtain ⟨ciCfgItem, rfl, hi⟩ := hr
      dsimp only
      rw [ConfigurationSection.finish_of_holds hs]
      show ConfigurationItem.getItemValue ulMaxItemValueLength index ciCfgItem >>= _ = _
      rw [ConfigurationItem.getItemValue_of_holds hi ulMaxItemValueLength hindex, ok_bind]
      cases i.value ulMaxItemValueLength index with
      | error e => rfl
      | ok pItemValue =>
        dsimp only
        rw [ConfigurationItem.finish_of_holds hi]
        rfl

end Config

/-! ### Sequences of operations -/

/-- The room that a call leaves for more items and values. -/
structure Room where
  lCfgItemsToAllocOnOverflow : Int
  lBufferToAllocOnOverflow : Int
  items_pos : 1 ≤ lCfgItemsToAllocOnOverflow
  buffer_pos : 1 ≤ lBufferToAllocOnOverflow

/-- The calls of a user of an initialized configuration. -/
inductive Operation
  | appendCfgSection (csSection : ConfigurationSection) (s : CfgSection) (h : csSection.Members s)
    (room : Room)
  | appendCfgItem (pSectionName : List Char) (ciCfgItem : ConfigurationItem) (room : Room)
  | appendItemValue (pSectionName pItemName pValue : List Char) (room : Room)
  | modifySectionComment (pSectionName pSectionComment : List Char)
  | modifySectionDate (pSectionName : List Char) (pSectionDate : Option (List Char))
  | modifyItemComment (pSectionName pItemName pItemComment : List Char)
  | modifyItemValue (pSectionName pItemName pNewItemValue : List Char) (lItemValueIndex : Int)
  | removeCfgSection (pSectionName : List Char) (room : Room)
  | getItemValue (pSectionName pItemName : List Char) (ulMaxItemValueLength : Nat)
    (lItemValueIndex : Int) (room : Room)

/-- A result: the text that is found, or none. -/
abbrev OperationResult := Except OperationError (List Char)

/-- The call. -/
def Operation.call (t : Object Config) : Operation → Except Fault (OperationResult × Object Config)
  | appendCfgSection csSection _ _ room =>
    let (r, t) := Config.appendCfgSection (some (.initialized csSection))
      room.lCfgItemsToAllocOnOverflow room.lBufferToAllocOnOverflow t
    .ok ((r.mapError .configuration).map fun _ => [], t)
  | appendCfgItem pSectionName ciCfgItem room => do
    let (r, t) ← Config.appendCfgItem pSectionName (some (.initialized ciCfgItem))
      room.lCfgItemsToAllocOnOverflow room.lBufferToAllocOnOverflow t
    return (r.map fun _ => [], t)
  | appendItemValue pSectionName pItemName pValue room => do
    let (r, t) ← Config.appendItemValue pSectionName pItemName (some pValue)
      room.lCfgItemsToAllocOnOverflow room.lBufferToAllocOnOverflow t
    return (r.map fun _ => [], t)
  | modifySectionComment pSectionName pSectionComment => do
    let (r, t) ← Config.modifySectionComment pSectionName (some pSectionComment) t
    return (r.map fun _ => [], t)
  | modifySectionDate pSectionName pSectionDate => do
    let (r, t) ← Config.modifySectionDate pSectionName pSectionDate t
    return (r.map fun _ => [], t)
  | modifyItemComment pSectionName pItemName pItemComment => do
    let (r, t) ← Config.modifyItemComment pSectionName pItemName (some pItemComment) t
    return (r.map fun _ => [], t)
  | modifyItemValue pSectionName pItemName pNewItemValue lItemValueIndex => do
    let (r, t) ← Config.modifyItemValue pSectionName pItemName (some pNewItemValue) lItemValueIndex t
    return (r.map fun _ => [], t)
  | removeCfgSection pSectionName room => do
    let (r, t) ← Config.removeCfgSection (some pSectionName) room.lCfgItemsToAllocOnOverflow
      room.lBufferToAllocOnOverflow t
    return ((r.mapError .configuration).map fun _ => [], t)
  | getItemValue pSectionName pItemName ulMaxItemValueLength lItemValueIndex room => do
    let r ← Config.getItemValue pSectionName pItemName ulMaxItemValueLength lItemValueIndex
      room.lCfgItemsToAllocOnOverflow room.lBufferToAllocOnOverflow t
    return (r, t)

/-- The contents after a call, or its error. -/
def Operation.change (c : Contents) : Operation → Except OperationError Contents
  | appendCfgSection _ s _ _ => .ok { c with sections := c.sections ++ [s] }
  | appendCfgItem pSectionName ciCfgItem _ =>
    .ok (c.changeOrAppend pSectionName fun s => s.append ciCfgItem.contents)
  | appendItemValue pSectionName pItemName pValue _ =>
    .ok (c.changeOrAppend pSectionName (CfgSection.appendValue c.caseSensitive pItemName pValue))
  | modifySectionComment pSectionName pSectionComment =>
    c.changeSection pSectionName fun s => .ok { s with comment := pSectionComment }
  | modifySectionDate pSectionName pSectionDate => c.changeSection pSectionName fun s =>
    if pSectionDate.all ConfigurationSection.isValidDate then .ok { s with date := pSectionDate }
    else .error (.configuration .cfgConfigurationSectionModifySectionDateFailed)
  | modifyItemComment pSectionName pItemName pItemComment =>
    c.changeSection pSectionName (CfgSection.changeItem pItemName fun i =>
      .ok { i with comment := pItemComment })
  | modifyItemValue pSectionName pItemName pNewItemValue lItemValueIndex =>
    c.changeSection pSectionName (CfgSection.changeItem pItemName
      (CfgItem.setValue pNewItemValue lItemValueIndex))
  | removeCfgSection pSectionName _ => c.removeSection pSectionName
  | getItemValue pSectionName pItemName ulMaxItemValueLength lItemValueIndex _ =>
    (c.value pSectionName pItemName ulMaxItemValueLength lItemValueIndex).map fun _ => c

/-- The text that a call finds. -/
def Operation.found (c : Contents) : Operation → List Char
  | getItemValue pSectionName pItemName ulMaxItemValueLength lItemValueIndex _ =>
    ((c.value pSectionName pItemName ulMaxItemValueLength lItemValueIndex).toOption).getD []
  | _ => []

/-- A call on the contents. -/
def Operation.spec (c : Contents) (op : Operation) : OperationResult × Contents :=
  ((op.change c).map fun _ => op.found c, (op.change c).toOption.getD c)

/-- No index is negative, and the last section is not removed. -/
def Operation.Regular (c : Contents) : Operation → Prop
  | modifyItemValue _ _ _ lItemValueIndex => 0 ≤ lItemValueIndex
  | getItemValue _ _ _ lItemValueIndex _ => 0 ≤ lItemValueIndex
  | removeCfgSection pSectionName _ => Config.Removable pSectionName c
  | _ => True

theorem Does.call {outcome : Except Fault (Except OperationError Unit × Object Config)}
    {spec : Except OperationError Contents} (h : Does Config.Keeps outcome c spec) :
    ∃ t', (outcome >>= fun x => pure (x.1.map fun _ => ([] : List Char), x.2)) =
        .ok (spec.map fun _ => [], t') ∧ Config.Keeps t' (spec.toOption.getD c) := by
  obtain ⟨t', rfl, hkeeps⟩ := h
  refine ⟨t', ?_, hkeeps⟩
  cases spec with
  | error e => rfl
  | ok c' => rfl

/-- **One call** has the result that the contents say, and leaves the configuration with theirs. -/
theorem operation_refines :
    Refinement.Refines Operation.call Operation.spec Config.Keeps Operation.Regular := by
  intro t c op h hregular
  cases op with
  | appendCfgSection csSection s hm room =>
    obtain ⟨t', happend, hkeeps⟩ :=
      Config.keeps_appendCfgSection h ⟨csSection, rfl, hm⟩ room.items_pos room.buffer_pos
    refine ⟨t', ?_, hkeeps⟩
    unfold Operation.call
    dsimp only
    rw [happend]
    rfl
  | appendCfgItem pSectionName ciCfgItem room =>
    exact (Config.does_appendCfgItem h ⟨ciCfgItem, rfl, rfl⟩ room.items_pos room.buffer_pos).call
  | appendItemValue pSectionName pItemName pValue room =>
    exact (Config.does_appendItemValue h pValue room.items_pos room.buffer_pos).call
  | modifySectionComment pSectionName pSectionComment =>
    exact (Config.does_modifySectionComment h pSectionComment).call
  | modifySectionDate pSectionName pSectionDate =>
    exact (Config.does_modifySectionDate h pSectionDate).call
  | modifyItemComment pSectionName pItemName pItemComment =>
    exact (Config.does_modifyItemComment h pItemComment).call
  | modifyItemValue pSectionName pItemName pNewItemValue lItemValueIndex =>
    exact (Config.does_modifyItemValue h pNewItemValue hregular).call
  | removeCfgSection pSectionName room =>
    obtain ⟨r, t', hremove, hdoes⟩ :=
      Config.does_removeCfgSection h hregular room.items_pos room.buffer_pos
    obtain ⟨t'', hcall, hkeeps⟩ := hdoes.call
    refine ⟨t'', ?_, hkeeps⟩
    unfold Operation.call
    dsimp only
    rw [hremove, ok_bind]
    exact hcall
  | getItemValue pSectionName pItemName ulMaxItemValueLength lItemValueIndex room =>
    refine ⟨t, ?_, ?_⟩
    · unfold Operation.call
      dsimp only
      rw [Config.getItemValue_of_keeps h _ _ _ hregular room.items_pos room.buffer_pos, ok_bind]
      unfold Operation.spec Operation.change Operation.found
      dsimp only
      cases c.value pSectionName pItemName ulMaxItemValueLength lItemValueIndex with
      | error e => rfl
      | ok p => rfl
    · unfold Operation.spec Operation.change
      dsimp only
      cases c.value pSectionName pItemName ulMaxItemValueLength lItemValueIndex with
      | error e => exact h
      | ok p => exact h

/-- **Any sequence of regular calls** on a new configuration has the results that the contents say, and
leaves the configuration with theirs. -/
theorem operations_run {pConfigName : List Char} (hname : pConfigName.length ≤ 256) (b : Bool)
    {lCfgSectionsToAllocOnOverflow : Int} (hsections : 1 ≤ lCfgSectionsToAllocOnOverflow)
    {ops : List Operation}
    (hops : Refinement.Allowed Operation.spec Operation.Regular ⟨b, []⟩ ops) :
    ∃ t₀ t, Config.init (some pConfigName) b lCfgSectionsToAllocOnOverflow .builded = (.ok (), t₀) ∧
      Refinement.run Operation.call t₀ ops =
        .ok ((Refinement.specRun Operation.spec ⟨b, []⟩ ops).1, t) ∧
      Config.Keeps t (Refinement.specRun Operation.spec ⟨b, []⟩ ops).2 := by
  obtain ⟨t₀, hinit, hkeeps⟩ := Config.keeps_init b hname hsections
  obtain ⟨t, hrun, hkeeps'⟩ := operation_refines.run hkeeps hops
  exact ⟨t₀, t, hinit, hrun, hkeeps'⟩

/-- Room for one more of each. -/
def oneMore : Room := ⟨1, 1, Int.le_refl 1, Int.le_refl 1⟩

/-- Two values, the first one changed, a section without items and its removal. -/
def someCalls : List Operation :=
  [.appendItemValue ['A'] ['x'] ['1'] oneMore, .appendItemValue ['A'] ['x'] ['2'] oneMore,
    .modifyItemValue ['A'] ['x'] ['3'] 0, .modifySectionDate ['B'] none,
    .appendItemValue ['B'] ['y'] ['4'] oneMore, .removeCfgSection ['A'] oneMore,
    .getItemValue ['B'] ['y'] 2 0 oneMore]

theorem operations_run_someCalls :
    ∃ t₀ t, Config.init (some []) true 1 .builded = (.ok (), t₀) ∧
      Refinement.run Operation.call t₀ someCalls =
        .ok ((Refinement.specRun Operation.spec ⟨true, []⟩ someCalls).1, t) ∧
      Config.Keeps t (Refinement.specRun Operation.spec ⟨true, []⟩ someCalls).2 :=
  operations_run (show ([] : List Char).length ≤ 256 from Nat.zero_le _) true (Int.le_refl 1)
    ⟨trivial, trivial, Int.le_refl 0, trivial, trivial, fun _ => by decide, Int.le_refl 0, trivial⟩

end Configuration

end CatraLibraries
