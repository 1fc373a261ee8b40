/-
# Items of a configuration

`Configuration/src/ConfigurationItem.cpp`: an item has a name, a comment and values.  A text is
the list of its characters before the NUL.  An object between its constructor and `init`, or
after `finish`, has no members that may be read; `new` and the mutexes do not fail.

The getters copy a member of an initialized object and are not written out where `copy` calls
them.  `FileIO::writeChars` appends to the text of the file.
-/
import CatraLibraries.Lib.Memory

namespace CatraLibraries

namespace Configuration

open Memory

/-- The errors of `ConfigurationErrors` that are returned below. -/
inductive ConfigurationError
  | cfgConfigurationItemInitFailed
  | cfgConfigurationItemInsertItemValueFailed
  | cfgConfigurationItemAppendItemValueFailed
  | cfgConfigurationItemModifyItemNameFailed
  | cfgConfigurationItemModifyItemCommentFailed
  | cfgConfigurationItemFinishFailed
  | cfgConfigurationItemCopyFailed
  | cfgConfigurationSectionInitFailed
  | cfgConfigurationSectionAppendCfgItemFailed
  | cfgConfigurationSectionModifySectionNameFailed
  | cfgConfigurationSectionModifySectionCommentFailed
  | cfgConfigurationSectionModifySectionDateFailed
  | cfgConfigurationSectionGetCfgItemByIndexFailed
  | cfgConfigurationSectionFinishFailed
  | cfgConfigurationSectionCopyFailed
  | cfgConfigInitFailed
  | cfgConfigAppendCfgSectionFailed
  | cfgConfigGetCfgSectionByIndexFailed
  | cfgSectionNotFound (pSectionName : List Char)
  | cfgActivationWrong
  | cfgOperationNotAllowed (status : Nat)
  deriving DecidableEq, Repr

/-- An object with the two states of these classes, `..._BUILDED` and `..._INITIALIZED`. -/
inductive Object (α : Type)
  | builded
  | initialized (members : α)
  deriving DecidableEq, Repr

/-- The state as the number of its enumeration. -/
def Object.status {α : Type} : Object α → Nat
  | .builded => 0
  | .initialized _ => 1

/-- What a method returns: its error, and the object as it leaves it. -/
abbrev Outcome (σ : Type) := Except ConfigurationError Unit × σ

/-- An `operator ==` with a name: `strcmp`, or `strcasecmp` in the C locale. -/
def sameName (bIsCaseSensitive : Bool) (pName pOther : List Char) : Bool :=
  if bIsCaseSensitive then pName = pOther else pName.map Char.toLower = pOther.map Char.toLower

/-- The test for the quotes around a name: a blank, a tabulator or a quote in it. -/
def needsQuotes (pText : List Char) : Bool := ' ' ∈ pText ∨ '\t' ∈ pText ∨ '"' ∈ pText

def quoted (pText : List Char) : List Char := '"' :: pText ++ ['"']

/-- A name as it is written. -/
def writtenName (pName : List Char) : List Char :=
  if needsQuotes pName then quoted pName else pName

/-- A comment as it is written: each of its lines after the marks. -/
def writtenComment (marks pComment : List Char) : List Char :=
  if pComment = [] then [] else (pComment.splitOn '\n').flatMap fun line => marks ++ line ++ ['\n']

/-- The members of an initialized `ConfigurationItem`; `pValues` are the first `_lValuesNumber`
of the allocated buffers. -/
structure ConfigurationItem where
  bIsCaseSensitive : Bool
  pItemName : List Char
  pItemComment : List Char
  lBufferToAllocOnOverflow : Int
  pValues : List (List Char)
  lAllocatedBuffersNumber : Int
  deriving DecidableEq, Repr

namespace ConfigurationItem

/-- `init`; `none` is a NULL argument. -/
def init (pItemName pItemComment : Option (List Char)) (bIsCaseSensitive : Bool)
    (lBufferToAllocOnOverflow : Int) : Object ConfigurationItem → Outcome (Object ConfigurationItem)
  | .initialized item => (.error (.cfgOperationNotAllowed 1), .initialized item)
  | .builded =>
    match pItemName, pItemComment with
    | some pItemName, some pItemComment =>
      if lBufferToAllocOnOverflow < 1 then (.error .cfgActivationWrong, .builded)
      else
        (.ok (), .initialized
          { bIsCaseSensitive := bIsCaseSensitive
            pItemName := pItemName
            pItemComment := pItemComment
            lBufferToAllocOnOverflow := lBufferToAllocOnOverflow
            pValues := []
            lAllocatedBuffersNumber := lBufferToAllocOnOverflow })
    | _, _ => (.error .cfgActivationWrong, .builded)

/-- `finish`. -/
def finish : Object ConfigurationItem → Outcome (Object ConfigurationItem)
  | .builded => (.error (.cfgOperationNotAllowed 0), .builded)
  | .initialized _ => (.ok (), .builded)

/-- `insertItemValue`; the values from the index on move one place up, and an index past the
end appends. -/
def insertItemValue (pValue : Option (List Char)) (lValueIndexToInsert : Nat) :
    Object ConfigurationItem → Outcome (Object ConfigurationItem)
  | .builded => (.error (.cfgOperationNotAllowed 0), .builded)
  | .initialized item =>
    match pValue with
    | none => (.error .cfgActivationWrong, .initialized item)
    | some pValue =>
      (.ok (), .initialized
        { item with
          pValues := item.pValues.take lValueIndexToInsert ++
            pValue :: item.pValues.drop lValueIndexToInsert
          lAllocatedBuffersNumber :=
            if (item.pValues.length : Int) = item.lAllocatedBuffersNumber then
              item.lAllocatedBuffersNumber + item.lBufferToAllocOnOverflow
            else item.lAllocatedBuffersNumber })

/-- `appendItemValue`; the number of values of an object without members is not looked at. -/
def appendItemValue (pValue : Option (List Char)) (t : Object ConfigurationItem) :
    Outcome (Object ConfigurationItem) :=
  match t with
  | .builded => insertItemValue pValue 0 .builded
  | .initialized item => insertItemValue pValue item.pValues.length (.initialized item)

/-- `modifyItemName`. -/
def modifyItemName (pItemName : Option (List Char)) :
    Object ConfigurationItem → Outcome (Object ConfigurationItem)
  | .builded => (.error (.cfgOperationNotAllowed 0), .builded)
  | .initialized item =>
    match pItemName with
    | none => (.error .cfgActivationWrong, .initialized item)
    | some pItemName => (.ok (), .initialized { item with pItemName := pItemName })

/-- `modifyItemComment`. -/
def modifyItemComment (pItemComment : Option (List Char)) :
    Object ConfigurationItem → Outcome (Object ConfigurationItem)
  | .builded => (.error (.cfgOperationNotAllowed 0), .builded)
  | .initialized item =>
    match pItemComment with
    | none => (.error .cfgActivationWrong, .initialized item)
    | some pItemComment => (.ok (), .initialized { item with pItemComment := pItemComment })

/-- The loop of `copy` over the values. -/
def copyValues (dest : Object ConfigurationItem) :
    List (List Char) → Outcome (Object ConfigurationItem)
  | [] => (.ok (), dest)
  | pValue :: pValues =>
    match appendItemValue (some pValue) dest with
    | (.error _, dest) => (.error .cfgConfigurationItemAppendItemValueFailed, (finish dest).2)
    | (.ok (), dest) => copyValues dest pValues

/-- `copy`: the destination as it leaves it. -/
def copy (dest src : Object ConfigurationItem) (lBufferToAllocOnOverflow : Int) :
    Outcome (Object ConfigurationItem) :=
  match src, dest with
  | .initialized src, .builded =>
    match init (some src.pItemName) (some src.pItemComment) src.bIsCaseSensitive
        lBufferToAllocOnOverflow .builded with
    | (.error _, dest) => (.error .cfgConfigurationItemInitFailed, dest)
    | (.ok (), dest) => copyValues dest src.pValues
  | src, dest => (.error (.cfgOperationNotAllowed src.status), dest)

/-- The value of an item with one value: a comma needs quotes too. -/
def writtenValue (pValue : List Char) : List Char :=
  if needsQuotes pValue ∨ ',' ∈ pValue then quoted pValue
  else if pValue = [] then ['"', '"']
  else pValue

/-- A value of a list. -/
def writtenListValue (pValue : List Char) : List Char :=
  if pValue = [] then ['"', '"'] else writtenName pValue

/-- The values of a list, each on a line of its own, with a comma after all but the last. -/
def writtenList : List (List Char) → List Char
  | [] => []
  | [pValue] => ['\t', '\t'] ++ writtenListValue pValue ++ ['\n']
  | pValue :: pValues => ['\t', '\t'] ++ writtenListValue pValue ++ [',', '\n'] ++ writtenList pValues

/-- `write`. -/
def write (item : ConfigurationItem) : List Char :=
  writtenComment ['\t', '#', '#'] item.pItemComment ++ '\t' :: writtenName item.pItemName ++
    [' ', '=', ' '] ++
    match item.pValues with
    | [] => ['"', '"', '\n']
    | [pValue] => writtenValue pValue ++ ['\n']
    | pValues => ['\n', '\t', '{', '\n'] ++ writtenList pValues ++ ['\t', '}', '\n']

end ConfigurationItem

/-! ### Contents -/

/-- An item as its user knows it. -/
structure CfgItem where
  caseSensitive : Bool
  name : List Char
  comment : List Char
  values : List (List Char)
  deriving DecidableEq, Repr

namespace ConfigurationItem

def contents (item : ConfigurationItem) : CfgItem :=
  ⟨item.bIsCaseSensitive, item.pItemName, item.pItemComment, item.pValues⟩

/-- An initialized object with these contents. -/
def Holds (t : Object ConfigurationItem) (i : CfgItem) : Prop :=
  ∃ item, t = .initialized item ∧ item.contents = i

variable {t dest src : Object ConfigurationItem} {i : CfgItem}
  {lBufferToAllocOnOverflow : Int}

theorem holds_init (pItemName pItemComment : List Char) (b : Bool)
    (h : 1 ≤ lBufferToAllocOnOverflow) :
    ∃ t, init (some pItemName) (some pItemComment) b lBufferToAllocOnOverflow .builded
      = (.ok (), t) ∧ Holds t ⟨b, pItemName, pItemComment, []⟩ := by
  unfold init
  dsimp only
  rw [if_neg (by omega)]
  exact ⟨_, rfl, _, rfl, rfl⟩

theorem holds_insertItemValue (pValue : List Char) (h : Holds t i) (n : Nat) :
    ∃ t', insertItemValue (some pValue) n t = (.ok (), t') ∧
      Holds t' { i with values := i.values.take n ++ pValue :: i.values.drop n } := by
  obtain ⟨item, rfl, rfl⟩ := h
  exact ⟨_, rfl, _, rfl, rfl⟩

theorem holds_appendItemValue (pValue : List Char) (h : Holds t i) :
    ∃ t', appendItemValue (some pValue) t = (.ok (), t') ∧
      Holds t' { i with values := i.values ++ [pValue] } := by
  obtain ⟨item, rfl, rfl⟩ := h
  obtain ⟨t', ht', hholds⟩ := holds_insertItemValue pValue
    ⟨item, rfl, rfl⟩ item.pValues.length
  refine ⟨t', ht', ?_⟩
  simp only [contents, List.take_length, List.drop_length] at hholds
  exact hholds

theorem holds_modifyItemName (h : Holds t i) (pItemName : List Char) :
    ∃ t', modifyItemName (some pItemName) t = (.ok (), t') ∧ Holds t' { i with name := pItemName } := by
  obtain ⟨item, rfl, rfl⟩ := h
  exact ⟨_, rfl, _, rfl, rfl⟩

theorem holds_modifyItemComment (h : Holds t i) (pItemComment : List Char) :
    ∃ t', modifyItemComment (some pItemComment) t = (.ok (), t') ∧
      Holds t' { i with comment := pItemComment } := by
  obtain ⟨item, rfl, rfl⟩ := h
  exact ⟨_, rfl, _, rfl, rfl⟩

theorem finish_of_holds (h : Holds t i) : finish t = (.ok (), .builded) := by
  obtain ⟨item, rfl, -⟩ := h
  rfl

theorem holds_copyValues (pValues : List (List Char)) (h : Holds dest i) :
    ∃ dest', copyValues dest pValues = (.ok (), dest') ∧
      Holds dest' { i with values := i.values ++ pValues } := by
  induction pValues generalizing dest i with
  | nil => exact ⟨dest, rfl, by rwa [List.append_nil]⟩
  | cons pValue pValues ih =>
    obtain ⟨dest₁, happend, h₁⟩ := holds_appendItemValue pValue h
    obtain ⟨dest', hcopy, h'⟩ := ih h₁
    refine ⟨dest', ?_, ?_⟩
    · rw [copyValues, happend]
      exact hcopy
    · rwa [List.append_assoc] at h'

/-- **`copy` makes an object with the same contents.** -/
theorem holds_copy (h : Holds src i) (hbuf : 1 ≤ lBufferToAllocOnOverflow) :
    ∃ dest, copy .builded src lBufferToAllocOnOverflow = (.ok (), dest) ∧ Holds dest i := by
  obtain ⟨item, rfl, rfl⟩ := h
  obtain ⟨dest₁, hinit, h₁⟩ := holds_init item.pItemName item.pItemComment item.bIsCaseSensitive hbuf
  obtain ⟨dest, hcopy, hdest⟩ := holds_copyValues item.pValues h₁
  refine ⟨dest, ?_, hdest⟩
  unfold copy
  dsimp only
  rw [hinit]
  exact hcopy

/-- Without room for a value `copy` fails. -/
theorem copy_eq_error (h : Holds src i) (hbuf : ¬1 ≤ lBufferToAllocOnOverflow) :
    copy .builded src lBufferToAllocOnOverflow
      = (.error .cfgConfigurationItemInitFailed, .builded) := by
  obtain ⟨item, rfl, rfl⟩ := h
  unfold copy init
  dsimp only
  rw [if_pos (by omega)]

end ConfigurationItem

end Configuration

end CatraLibraries
