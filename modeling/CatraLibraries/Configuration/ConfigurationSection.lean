/-
# Sections of a configuration

`Configuration/src/ConfigurationSection.cpp`: a section has a name, a comment, perhaps a date, and
items.  The items are deep copies: `appendCfgItem` copies the item that it is given, and every
item once more when the array of them grows.
-/
import CatraLibraries.Configuration.ConfigurationItem
import CatraLibraries.Lib.Stdio
import Mathlib.Data.List.Forall2

namespace CatraLibraries

namespace Configuration

open Memory Stdio

/-- The members of an initialized `ConfigurationSection`; `pciCfgItems` are the first
`_lCfgItemsNumber` of the allocated items, the others have never been initialized. -/
structure ConfigurationSection where
  bIsCaseSensitive : Bool
  pSectionName : List Char
  pSectionComment : List Char
  pSectionDate : Option (List Char)
  lCfgItemsToAllocOnOverflow : Int
  pciCfgItems : List (Object ConfigurationItem)
  lAllocatedCfgItemNumber : Int
  deriving DecidableEq, Repr

namespace ConfigurationSection

/-- `CFG_SECTIONDATELENGTH`. -/
def sectionDateLength : Nat := 10 + 1

/-- `sscanf (pSectionDate, "%4ld/%2ld/%2ld", ...)`. -/
def scanDate (s : List Char) : Option (Int × Int × Int) := do
  let (lYear, s) ← scanLd 4 s
  let s ← scanChar '/' s
  let (lMonth, s) ← scanLd 2 s
  let s ← scanChar '/' s
  let (lDay, _) ← scanLd 2 s
  some (lYear, lMonth, lDay)

/-- `isValidDate`. -/
def isValidDate (pSectionDate : List Char) : Bool :=
  if pSectionDate.length ≠ sectionDateLength - 1 then false
  else
    match scanDate pSectionDate with
    | none => false
    | some (lYear, lMonth, lDay) =>
      ¬(lYear < 1900 ∨ lMonth < 1 ∨ 12 < lMonth ∨ lDay < 1 ∨ 31 < lDay)

/-- `init`; `none` is a NULL argument. -/
def init (pSectionName pSectionComment pSectionDate : Option (List Char)) (bIsCaseSensitive : Bool)
    (lCfgItemsToAllocOnOverflow : Int) :
    Object ConfigurationSection → Outcome (Object ConfigurationSection)
  | .initialized csSection => (.error (.cfgOperationNotAllowed 1), .initialized csSection)
  | .builded =>
    match pSectionName, pSectionComment with
    | some pSectionName, some pSectionComment =>
      if lCfgItemsToAllocOnOverflow < 1 ∨ ¬pSectionDate.all isValidDate then
        (.error .cfgActivationWrong, .builded)
      else
        (.ok (), .initialized
          { bIsCaseSensitive := bIsCaseSensitive
            pSectionName := pSectionName
            pSectionComment := pSectionComment
            pSectionDate := pSectionDate
            lCfgItemsToAllocOnOverflow := lCfgItemsToAllocOnOverflow
            pciCfgItems := []
            lAllocatedCfgItemNumber := lCfgItemsToAllocOnOverflow })
    | _, _ => (.error .cfgActivationWrong, .builded)

/-- `finish`. -/
def finish : Object ConfigurationSection → Outcome (Object ConfigurationSection)
  | .builded => (.error (.cfgOperationNotAllowed 0), .builded)
  | .initialized _ => (.ok (), .builded)

/-- `operator ==`: an object without members has no name to compare. -/
def isNamed (pSectionName : List Char) : Object ConfigurationSection → Except Fault Bool
  | .builded => .error .uninitialised
  | .initialized csSection =>
    .ok (sameName csSection.bIsCaseSensitive csSection.pSectionName pSectionName)

/-- The items copied into a greater array.  The items that were copied are initialized, so that
`finish` succeeds on them. -/
def copyItems (lBufferToAllocOnOverflow : Int) :
    List (Object ConfigurationItem) → Except ConfigurationError (List (Object ConfigurationItem))
  | [] => .ok []
  | item :: items =>
    match ConfigurationItem.copy .builded item lBufferToAllocOnOverflow with
    | (.error _, _) => .error .cfgConfigurationItemCopyFailed
    | (.ok (), dest) => do
      let dests ← copyItems lBufferToAllocOnOverflow items
      return dest :: dests

/-- The array with room for one more item. -/
def growItems (lBufferToAllocOnOverflow : Int) (csSection : ConfigurationSection) :
    Except ConfigurationError ConfigurationSection :=
  if (csSection.pciCfgItems.length : Int) = csSection.lAllocatedCfgItemNumber then do
    let items ← copyItems lBufferToAllocOnOverflow csSection.pciCfgItems
    return { csSection with
      pciCfgItems := items
      lAllocatedCfgItemNumber :=
        csSection.lAllocatedCfgItemNumber + csSection.lCfgItemsToAllocOnOverflow }
  else .ok csSection

/-- `appendCfgItem`. -/
def appendCfgItem (pciCfgItem : Option (Object ConfigurationItem)) (lBufferToAllocOnOverflow : Int) :
    Object ConfigurationSection → Outcome (Object ConfigurationSection)
  | .builded => (.error (.cfgOperationNotAllowed 0), .builded)
  | .initialized csSection =>
    match pciCfgItem with
    | none => (.error .cfgActivationWrong, .initialized csSection)
    | some pciCfgItem =>
      match growItems lBufferToAllocOnOverflow csSection with
      | .error e => (.error e, .initialized csSection)
      | .ok csSection =>
        match ConfigurationItem.copy .builded pciCfgItem lBufferToAllocOnOverflow with
        | (.error _, _) => (.error .cfgConfigurationItemCopyFailed, .initialized csSection)
        | (.ok (), item) =>
          (.ok (), .initialized { csSection with pciCfgItems := csSection.pciCfgItems ++ [item] })

/-- `modifySectionName`. -/
def modifySectionName (pSectionName : Option (List Char)) :
    Object ConfigurationSection → Outcome (Object ConfigurationSection)
  | .builded => (.error (.cfgOperationNotAllowed 0), .builded)
  | .initialized csSection =>
    match pSectionName with
    | none => (.error .cfgActivationWrong, .initialized csSection)
    | some pSectionName => (.ok (), .initialized { csSection with pSectionName := pSectionName })

/-- `modifySectionComment`. -/
def modifySectionComment (pSectionComment : Option (List Char)) :
    Object ConfigurationSection → Outcome (Object ConfigurationSection)
  | .builded => (.error (.cfgOperationNotAllowed 0), .builded)
  | .initialized csSection =>
    match pSectionComment with
    | none => (.error .cfgActivationWrong, .initialized csSection)
    | some pSectionComment =>
      (.ok (), .initialized { csSection with pSectionComment := pSectionComment })

/-- `modifySectionDate`; NULL takes the date away. -/
def modifySectionDate (pSectionDate : Option (List Char)) :
    Object ConfigurationSection → Outcome (Object ConfigurationSection)
  | .builded => (.error (.cfgOperationNotAllowed 0), .builded)
  | .initialized csSection =>
    if ¬pSectionDate.all isValidDate then (.error .cfgActivationWrong, .initialized csSection)
    else (.ok (), .initialized { csSection with pSectionDate := pSectionDate })

/-- The loop of `copy` over the items, each through an item of its own. -/
def copyEach (lBufferToAllocOnOverflow : Int) (dest : Object ConfigurationSection) :
    List (Object ConfigurationItem) → Outcome (Object ConfigurationSection)
  | [] => (.ok (), dest)
  | item :: items =>
    match ConfigurationItem.copy .builded item lBufferToAllocOnOverflow with
    | (.error _, _) => (.error .cfgConfigurationSectionGetCfgItemByIndexFailed, (finish dest).2)
    | (.ok (), ciCfgItem) =>
      match appendCfgItem (some ciCfgItem) lBufferToAllocOnOverflow dest with
      | (.error _, dest) => (.error .cfgConfigurationSectionAppendCfgItemFailed, (finish dest).2)
      | (.ok (), dest) =>
        match ConfigurationItem.finish ciCfgItem with
        | (.error _, _) => (.error .cfgConfigurationItemFinishFailed, (finish dest).2)
        | (.ok (), _) => copyEach lBufferToAllocOnOverflow dest items

/-- `copy`: the destination as it leaves it. -/
def copy (dest src : Object ConfigurationSection)
    (lCfgItemsToAllocOnOverflow lBufferToAllocOnOverflow : Int) :
    Outcome (Object ConfigurationSection) :=
  match src, dest with
  | .initialized src, .builded =>
    match init (some src.pSectionName) (some src.pSectionComment) src.pSectionDate
        src.bIsCaseSensitive lCfgItemsToAllocOnOverflow .builded with
    | (.error _, dest) => (.error .cfgConfigurationSectionInitFailed, dest)
    | (.ok (), dest) => copyEach lBufferToAllocOnOverflow dest src.pciCfgItems
  | src, dest => (.error (.cfgOperationNotAllowed src.status), dest)

/-- The items as they are written, an empty line after each. -/
def writeItems : List (Object ConfigurationItem) → Except Fault (List Char)
  | [] => .ok []
  | .builded :: _ => .error .uninitialised
  | .initialized item :: items => do
    let text ← writeItems items
    return item.write ++ '\n' :: text

/-- `write`. -/
def write (csSection : ConfigurationSection) : Except Fault (List Char) := do
  let text ← writeItems csSection.pciCfgItems
  return writtenComment ['#'] csSection.pSectionComment ++
    '[' :: writtenName csSection.pSectionName ++ ']' ::
    ((csSection.pSectionDate.map fun pSectionDate => [' ', '('] ++ pSectionDate ++ [')']).getD [] ++
      '\n' :: text)

end ConfigurationSection

/-! ### Contents -/

/-- A section as its user knows it. -/
structure CfgSection where
  caseSensitive : Bool
  name : List Char
  comment : List Char
  date : Option (List Char)
  items : List CfgItem
  deriving DecidableEq, Repr

namespace ConfigurationSection

/-- An initialized object with these contents: every item is initialized, and the date is one
that `isValidDate` accepts. -/
structure Members (csSection : ConfigurationSection) (s : CfgSection) : Prop where
  caseSensitive : csSection.bIsCaseSensitive = s.caseSensitive
  name : csSection.pSectionName = s.name
  comment : csSection.pSectionComment = s.comment
  date : csSection.pSectionDate = s.date
  valid : csSection.pSectionDate.all isValidDate = true
  items : List.Forall₂ ConfigurationItem.Holds csSection.pciCfgItems s.items

def Holds (t : Object ConfigurationSection) (s : CfgSection) : Prop :=
  ∃ csSection, t = .initialized csSection ∧ csSection.Members s

variable {t dest src : Object ConfigurationSection} {s : CfgSection} {i : CfgItem}
  {item : Object ConfigurationItem} {csSection : ConfigurationSection}
  {lCfgItemsToAllocOnOverflow lBufferToAllocOnOverflow : Int}

theorem finish_of_holds (h : Holds t s) : finish t = (.ok (), .builded) := by
  obtain ⟨csSection, rfl, -⟩ := h
  rfl

theorem isNamed_of_holds (h : Holds t s) (pSectionName : List Char) :
    isNamed pSectionName t = .ok (sameName s.caseSensitive s.name pSectionName) := by
  obtain ⟨csSection, rfl, hm⟩ := h
  unfold isNamed
  dsimp only
  rw [hm.caseSensitive, hm.name]

theorem holds_init (pSectionName pSectionComment : List Char) (b : Bool)
    {pSectionDate : Option (List Char)} (hdate : pSectionDate.all isValidDate = true) (h : 1 ≤ lCfgItemsToAllocOnOverflow) :
    ∃ t, init (some pSectionName) (some pSectionComment) pSectionDate b lCfgItemsToAllocOnOverflow
        .builded = (.ok (), t) ∧ Holds t ⟨b, pSectionName, pSectionComment, pSectionDate, []⟩ := by
  unfold init
  dsimp only
  rw [if_neg (by rw [hdate]; simp; omega)]
  exact ⟨_, rfl, _, rfl, rfl, rfl, rfl, rfl, hdate, .nil⟩

theorem holds_modifySectionName (h : Holds t s) (pSectionName : List Char) :
    ∃ t', modifySectionName (some pSectionName) t = (.ok (), t') ∧
      Holds t' { s with name := pSectionName } := by
  obtain ⟨csSection, rfl, hm⟩ := h
  exact ⟨_, rfl, _, rfl, { hm with name := rfl }⟩

theorem holds_modifySectionComment (h : Holds t s) (pSectionComment : List Char) :
    ∃ t', modifySectionComment (some pSectionComment) t = (.ok (), t') ∧
      Holds t' { s with comment := pSectionComment } := by
  obtain ⟨csSection, rfl, hm⟩ := h
  exact ⟨_, rfl, _, rfl, { hm with comment := rfl }⟩

theorem holds_modifySectionDate (h : Holds t s) {pSectionDate : Option (List Char)}
    (hdate : pSectionDate.all isValidDate = true) :
    ∃ t', modifySectionDate pSectionDate t = (.ok (), t') ∧
      Holds t' { s with date := pSectionDate } := by
  obtain ⟨csSection, rfl, hm⟩ := h
  refine ⟨.initialized { csSection with pSectionDate := pSectionDate }, ?_, _, rfl,
    { hm with date := rfl, valid := hdate }⟩
  unfold modifySectionDate
  dsimp only
  rw [if_neg (not_not.mpr hdate)]

theorem modifySectionDate_eq_error (h : Holds t s) {pSectionDate : List Char}
    (hdate : ¬isValidDate pSectionDate = true) :
    modifySectionDate (some pSectionDate) t = (.error .cfgActivationWrong, t) := by
  obtain ⟨csSection, rfl, -⟩ := h
  exact if_pos hdate

/-- **Growing the array keeps the contents of the items.** -/
theorem copyItems_of_holds (hbuf : 1 ≤ lBufferToAllocOnOverflow)
    {items : List (Object ConfigurationItem)} {is : List CfgItem}
    (h : List.Forall₂ ConfigurationItem.Holds items is) :
    ∃ dests, copyItems lBufferToAllocOnOverflow items = .ok dests ∧
      List.Forall₂ ConfigurationItem.Holds dests is := by
  induction h with
  | nil => exact ⟨[], rfl, .nil⟩
  | cons hitem _ ih =>
    obtain ⟨dest, hcopy, hdest⟩ := ConfigurationItem.holds_copy hitem hbuf
    obtain ⟨dests, hcopies, hdests⟩ := ih
    refine ⟨dest :: dests, ?_, .cons hdest hdests⟩
    rw [copyItems, hcopy]
    dsimp only
    rw [hcopies]
    rfl

theorem growItems_of_members (hbuf : 1 ≤ lBufferToAllocOnOverflow) (h : csSection.Members s) :
    ∃ csGrown, growItems lBufferToAllocOnOverflow csSection = .ok csGrown ∧
      csGrown.Members s := by
  unfold growItems
  split
  · obtain ⟨dests, hcopies, hdests⟩ := copyItems_of_holds hbuf h.items
    rw [hcopies]
    exact ⟨_, rfl, { h with items := hdests }⟩
  · exact ⟨csSection, rfl, h⟩

/-- **`appendCfgItem` adds a copy of the item.** -/
theorem holds_appendCfgItem (h : Holds t s) (hitem : ConfigurationItem.Holds item i)
    (hbuf : 1 ≤ lBufferToAllocOnOverflow) :
    ∃ t', appendCfgItem (some item) lBufferToAllocOnOverflow t = (.ok (), t') ∧
      Holds t' { s with items := s.items ++ [i] } := by
  obtain ⟨csSection, rfl, hm⟩ := h
  obtain ⟨csGrown, hgrow, hm'⟩ := growItems_of_members hbuf hm
  obtain ⟨dest, hcopy, hdest⟩ := ConfigurationItem.holds_copy hitem hbuf
  refine ⟨.initialized { csGrown with pciCfgItems := csGrown.pciCfgItems ++ [dest] }, ?_, _, rfl,
    { hm' with items := List.rel_append hm'.items (.cons hdest .nil) }⟩
  unfold appendCfgItem
  dsimp only
  rw [hgrow]
  dsimp only
  rw [hcopy]

theorem holds_copyEach (hbuf : 1 ≤ lBufferToAllocOnOverflow)
    {items : List (Object ConfigurationItem)} {is : List CfgItem}
    (h : List.Forall₂ ConfigurationItem.Holds items is) (hdest : Holds dest s) :
    ∃ dest', copyEach lBufferToAllocOnOverflow dest items = (.ok (), dest') ∧
      Holds dest' { s with items := s.items ++ is } := by
  induction h generalizing dest s with
  | nil => exact ⟨dest, rfl, by rwa [List.append_nil]⟩
  | cons hitem _ ih =>
    obtain ⟨ciCfgItem, hcopy, hholds⟩ := ConfigurationItem.holds_copy hitem hbuf
    obtain ⟨dest₁, happend, hdest₁⟩ := holds_appendCfgItem hdest hholds hbuf
    obtain ⟨dest', hrest, hdest'⟩ := ih hdest₁
    refine ⟨dest', ?_, ?_⟩
    · rw [copyEach, hcopy]
      dsimp only
      rw [happend]
      dsimp only
      rw [ConfigurationItem.finish_of_holds hholds]
      exact hrest
    · rwa [List.append_assoc] at hdest'

/-- **`copy` makes an object with the same contents.** -/
theorem holds_copy (h : Holds src s) (hitems : 1 ≤ lCfgItemsToAllocOnOverflow)
    (hbuf : s.items = [] ∨ 1 ≤ lBufferToAllocOnOverflow) :
    ∃ dest, copy .builded src lCfgItemsToAllocOnOverflow lBufferToAllocOnOverflow = (.ok (), dest) ∧
      Holds dest s := by
  obtain ⟨csSection, rfl, hm⟩ := h
  obtain ⟨dest₁, hinit, hdest₁⟩ := holds_init csSection.pSectionName csSection.pSectionComment
    csSection.bIsCaseSensitive hm.valid hitems
  rw [hm.caseSensitive, hm.name, hm.comment, hm.date] at hdest₁
  have hcopy : ∃ dest, copyEach lBufferToAllocOnOverflow dest₁ csSection.pciCfgItems = (.ok (), dest) ∧
      Holds dest s := by
    rcases hbuf with hnil | hbuf
    · have hitems' := hm.items
      rw [hnil, List.forall₂_nil_right_iff] at hitems'
      rw [hitems']
      refine ⟨dest₁, rfl, ?_⟩
      rwa [← hnil] at hdest₁
    · obtain ⟨dest, hcopy, hdest⟩ := holds_copyEach hbuf hm.items hdest₁
      exact ⟨dest, hcopy, hdest⟩
  obtain ⟨dest, hcopy, hdest⟩ := hcopy
  refine ⟨dest, ?_, hdest⟩
  unfold copy
  dsimp only
  rw [hinit]
  exact hcopy

/-- Without room for an item, or for a value of one, `copy` fails and leaves its destination
without members. -/
theorem copy_eq_error (h : Holds src s)
    (hroom : ¬(1 ≤ lCfgItemsToAllocOnOverflow ∧ (s.items = [] ∨ 1 ≤ lBufferToAllocOnOverflow))) :
    ∃ e, copy .builded src lCfgItemsToAllocOnOverflow lBufferToAllocOnOverflow
      = (.error e, .builded) := by
  obtain ⟨csSection, rfl, hm⟩ := h
  by_cases hitems : 1 ≤ lCfgItemsToAllocOnOverflow
  · have hbuf : ¬(s.items = [] ∨ 1 ≤ lBufferToAllocOnOverflow) := fun hbuf => hroom ⟨hitems, hbuf⟩
    obtain ⟨hne, hbuf⟩ := not_or.mp hbuf
    obtain ⟨dest₁, hinit, hdest₁⟩ := holds_init csSection.pSectionName csSection.pSectionComment
      csSection.bIsCaseSensitive hm.valid hitems
    cases hitemsEq : csSection.pciCfgItems with
    | nil =>
      have hforall := hm.items
      rw [hitemsEq, List.forall₂_nil_left_iff] at hforall
      exact absurd hforall hne
    | cons item items =>
      have hforall := hm.items
      rw [hitemsEq] at hforall
      obtain ⟨i, is, hitem, -, -⟩ := List.forall₂_cons_left_iff.mp hforall
      refine ⟨.cfgConfigurationSectionGetCfgItemByIndexFailed, ?_⟩
      unfold copy
      dsimp only
      rw [hinit]
      dsimp only
      rw [hitemsEq, copyEach, ConfigurationItem.copy_eq_error hitem hbuf]
      dsimp only
      rw [finish_of_holds hdest₁]
  · refine ⟨.cfgConfigurationSectionInitFailed, ?_⟩
    unfold copy init
    dsimp only
    rw [if_pos (.inl (by omega))]

end ConfigurationSection

end Configuration

end CatraLibraries
