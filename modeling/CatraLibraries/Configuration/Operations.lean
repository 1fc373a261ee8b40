/-
# Operations on a configuration

`Configuration/src/Config.cpp`, from `appendCfgItem` to `modifyItemValue`, with `getPtrCfgItemByName`,
`getCfgItemByName`, `getItemValue` and `modifyItemValue` of the classes below it.  A section or an item is
the first one of its name.  The two `append` methods make what is missing; the others report it.

The security level is `CFG_NOENCRIPTION`.  An index that is negative is not checked.
-/
import CatraLibraries.Configuration.RemoveSection
import CatraLibraries.Lib.FirstMatch

namespace CatraLibraries

namespace Configuration

open Memory

/-- The errors of the operations, beside the ones that the objects return. -/
inductive OperationError
  | configuration (e : ConfigurationError)
  | cfgItemNotFound (pItemName : List Char)
  | cfgConfigurationItemBufferTooShort (ulMaxItemValueLength : Nat)
  | cfgConfigurationItemModifyItemValueFailed
  | cfgConfigurationSectionGetPtrCfgItemByNameFailed
  | cfgEncryptFailed
  | cfgDecryptFailed
  deriving DecidableEq, Repr

namespace ConfigurationItem

/-- `operator ==`: an object without members has no name to compare. -/
def isNamed (pItemName : List Char) : Object ConfigurationItem → Except Fault Bool
  | .builded => .error .uninitialised
  | .initialized item => .ok (sameName item.bIsCaseSensitive item.pItemName pItemName)

/-- `getItemValue`: the value that is copied to the buffer of the caller. -/
def getItemValue (ulMaxItemValueLength : Nat) (lValueIndex : Int) :
    Object ConfigurationItem → Except Fault (Except OperationError (List Char))
  | .builded => .ok (.error (.configuration (.cfgOperationNotAllowed 0)))
  | .initialized item =>
    if (item.pValues.length : Int) ≤ lValueIndex then .ok (.error (.configuration .cfgActivationWrong))
    else if lValueIndex < 0 then .error .outOfBounds
    else
      let pValue := item.pValues.getD lValueIndex.toNat []
      if ulMaxItemValueLength ≤ pValue.length then
        .ok (.error (.cfgConfigurationItemBufferTooShort ulMaxItemValueLength))
      else .ok (.ok pValue)

/-- `modifyItemValue`. -/
def modifyItemValue (pNewValue : Option (List Char)) (lValueIndexToModify : Int) :
    Object ConfigurationItem → Except Fault (Outcome (Object ConfigurationItem))
  | .builded => .ok (.error (.cfgOperationNotAllowed 0), .builded)
  | .initialized item =>
    match pNewValue with
    | none => .ok (.error .cfgActivationWrong, .initialized item)
    | some pNewValue =>
      if (item.pValues.length : Int) ≤ lValueIndexToModify then
        .ok (.error .cfgActivationWrong, .initialized item)
      else if lValueIndexToModify < 0 then .error .outOfBounds
      else
        .ok (.ok (), .initialized
          { item with pValues := item.pValues.set lValueIndexToModify.toNat pNewValue })

end ConfigurationItem

namespace ConfigurationSection

/-- The loop that looks for an item: its index, or the number of the items. -/
def findCfgItem (pItemName : List Char) (items : List (Object ConfigurationItem)) : Except Fault Nat :=
  FirstMatch.find (ConfigurationItem.isNamed pItemName) items

/-- `getPtrCfgItemByName`: the index of the item that the pointer is to. -/
def getPtrCfgItemByName (pItemName : List Char) : Object ConfigurationSection → Except Fault (Except OperationError Nat)
  | .builded => .ok (.error (.configuration (.cfgOperationNotAllowed 0)))
  | .initialized csSection => do
    let lCfgItemIndex ← findCfgItem pItemName csSection.pciCfgItems
    if lCfgItemIndex < csSection.pciCfgItems.length then return .ok lCfgItemIndex
    else return .error (.cfgItemNotFound pItemName)

/-- `getCfgItemByName`: the item is copied into a new one. -/
def getCfgItemByName (pItemName : List Char) (lBufferToAllocOnOverflow : Int) :
    Object ConfigurationSection → Except Fault (Except OperationError (Object ConfigurationItem))
  | .builded => .ok (.error (.configuration (.cfgOperationNotAllowed 0)))
  | .initialized csSection => do
    let lCfgItemIndex ← findCfgItem pItemName csSection.pciCfgItems
    if lCfgItemIndex < csSection.pciCfgItems.length then
      match ConfigurationItem.copy .builded (csSection.pciCfgItems.getD lCfgItemIndex .builded)
          lBufferToAllocOnOverflow with
      | (.error _, _) => return .error (.configuration .cfgConfigurationItemCopyFailed)
      | (.ok (), pciCfgItem) => return .ok pciCfgItem
    else return .error (.cfgItemNotFound pItemName)

/-- The item that a pointer is to. -/
def item (lCfgItemIndex : Nat) : Object ConfigurationSection → Object ConfigurationItem
  | .builded => .builded
  | .initialized csSection => csSection.pciCfgItems.getD lCfgItemIndex .builded

/-- The section after a change of the item. -/
def setItem (lCfgItemIndex : Nat) (ciCfgItem : Object ConfigurationItem) :
    Object ConfigurationSection → Object ConfigurationSection
  | .builded => .builded
  | .initialized csSection =>
    .initialized { csSection with pciCfgItems := csSection.pciCfgItems.set lCfgItemIndex ciCfgItem }

end ConfigurationSection

namespace Config

/-- What an operation returns, and the configuration as it leaves it. -/
abbrev Changed := Except Fault (Except OperationError Unit × Object Config)

def sectionAt (lCfgSectionIndex : Nat) (cfg : Config) : Object ConfigurationSection :=
  cfg.pcsCfgSections.getD lCfgSectionIndex .builded

/-- The configuration after a change of a section. -/
def setSection (lCfgSectionIndex : Nat) (csSection : Object ConfigurationSection) (cfg : Config) :
    Object Config :=
  .initialized { cfg with pcsCfgSections := cfg.pcsCfgSections.set lCfgSectionIndex csSection }

/-- A method of an object in a section, and the error that its own error becomes. -/
def called (e : OperationError) (r : Except ConfigurationError Unit) : Except OperationError Unit :=
  r.mapError fun _ => e

/-- A new section gets its item and is appended; what is left is to finish it. -/
def appendFilled (csSection : Object ConfigurationSection) (pciCfgItem : Option (Object ConfigurationItem))
    (lCfgItemsToAllocOnOverflow lBufferToAllocOnOverflow : Int) (cfg : Config) :
    Except OperationError (Object ConfigurationSection) × Object Config :=
  match ConfigurationSection.appendCfgItem pciCfgItem lBufferToAllocOnOverflow csSection with
  | (.error _, _) =>
    (.error (.configuration .cfgConfigurationSectionAppendCfgItemFailed), .initialized cfg)
  | (.ok (), csSection) =>
    match appendCfgSection (some csSection) lCfgItemsToAllocOnOverflow lBufferToAllocOnOverflow
        (.initialized cfg) with
    | (.error _, t) => (.error (.configuration .cfgConfigurationSectionAppendCfgItemFailed), t)
    | (.ok (), t) => (.ok csSection, t)

/-- `appendCfgItem`. -/
def appendCfgItem (pSectionName : List Char) (pciCfgItem : Option (Object ConfigurationItem))
    (lCfgItemsToAllocOnOverflow lBufferToAllocOnOverflow : Int) : Object Config → Changed
  | .builded => .ok (.error (.configuration (.cfgOperationNotAllowed 0)), .builded)
  | .initialized cfg => do
    let lCfgSectionIndex ← findCfgSection pSectionName cfg.pcsCfgSections
    if lCfgSectionIndex = cfg.pcsCfgSections.length then
      match ConfigurationSection.init (some pSectionName) (some []) none cfg.bIsCaseSensitive
          lCfgItemsToAllocOnOverflow .builded with
      | (.error _, _) =>
        return (.error (.configuration .cfgConfigurationSectionInitFailed), .initialized cfg)
      | (.ok (), csSection) =>
        match appendFilled csSection pciCfgItem lCfgItemsToAllocOnOverflow lBufferToAllocOnOverflow
            cfg with
        | (.error e, t) => return (.error e, t)
        | (.ok csSection, t) =>
          return (called (.configuration .cfgConfigurationSectionFinishFailed)
            (ConfigurationSection.finish csSection).1, t)
    else
      let (r, csSection) := ConfigurationSection.appendCfgItem pciCfgItem lBufferToAllocOnOverflow
        (cfg.sectionAt lCfgSectionIndex)
      return (called (.configuration .cfgConfigurationSectionAppendCfgItemFailed) r,
        cfg.setSection lCfgSectionIndex csSection)

/-- A new item with one value. -/
def newItem (pItemName pValue : Option (List Char)) (lBufferToAllocOnOverflow : Int) (cfg : Config) :
    Except OperationError (Object ConfigurationItem) :=
  match ConfigurationItem.init pItemName (some []) cfg.bIsCaseSensitive lBufferToAllocOnOverflow
      .builded with
  | (.error _, _) => .error (.configuration .cfgConfigurationItemInitFailed)
  | (.ok (), ciCfgItem) =>
    match ConfigurationItem.appendItemValue pValue ciCfgItem with
    | (.error _, _) => .error (.configuration .cfgConfigurationItemAppendItemValueFailed)
    | (.ok (), ciCfgItem) => .ok ciCfgItem

/-- `appendItemValue`; a new section is made before its item, and nothing of it is left when the item
cannot be made. -/
def appendItemValue (pSectionName pItemName : List Char) (pValue : Option (List Char))
    (lCfgItemsToAllocOnOverflow lBufferToAllocOnOverflow : Int) : Object Config → Changed
  | .builded => .ok (.error (.configuration (.cfgOperationNotAllowed 0)), .builded)
  | .initialized cfg => do
    let lCfgSectionIndex ← findCfgSection pSectionName cfg.pcsCfgSections
    if lCfgSectionIndex = cfg.pcsCfgSections.length then
      match ConfigurationSection.init (some pSectionName) (some []) none cfg.bIsCaseSensitive
          lCfgItemsToAllocOnOverflow .builded with
      | (.error _, _) =>
        return (.error (.configuration .cfgConfigurationSectionInitFailed), .initialized cfg)
      | (.ok (), csSection) =>
        match cfg.newItem (some pItemName) pValue lBufferToAllocOnOverflow with
        | .error e => return (.error e, .initialized cfg)
        | .ok ciCfgItem =>
          match appendFilled csSection (some ciCfgItem) lCfgItemsToAllocOnOverflow
              lBufferToAllocOnOverflow cfg with
          | (.error e, t) => return (.error e, t)
          | (.ok csSection, t) =>
            match ConfigurationItem.finish ciCfgItem with
            | (.error _, _) =>
              return (.error (.configuration .cfgConfigurationItemFinishFailed), t)
            | (.ok (), _) =>
              return (called (.configuration .cfgConfigurationSectionFinishFailed)
                (ConfigurationSection.finish csSection).1, t)
    else
      let csSection := cfg.sectionAt lCfgSectionIndex
      match ← ConfigurationSection.getPtrCfgItemByName pItemName csSection with
      | .ok lCfgItemIndex =>
        let (r, ciCfgItem) :=
          ConfigurationItem.appendItemValue pValue (ConfigurationSection.item lCfgItemIndex csSection)
        return (called (.configuration .cfgConfigurationItemAppendItemValueFailed) r,
          cfg.setSection lCfgSectionIndex (ConfigurationSection.setItem lCfgItemIndex ciCfgItem csSection))
      | .error (.cfgItemNotFound _) =>
        match cfg.newItem (some pItemName) pValue lBufferToAllocOnOverflow with
        | .error e => return (.error e, .initialized cfg)
        | .ok ciCfgItem =>
          match ConfigurationSection.appendCfgItem (some ciCfgItem) lBufferToAllocOnOverflow
              csSection with
          | (.error _, csSection) =>
            return (.error (.configuration .cfgConfigurationSectionAppendCfgItemFailed),
              cfg.setSection lCfgSectionIndex csSection)
          | (.ok (), csSection) =>
            return (called (.configuration .cfgConfigurationItemFinishFailed)
              (ConfigurationItem.finish ciCfgItem).1, cfg.setSection lCfgSectionIndex csSection)
      | .error _ =>
        return (.error .cfgConfigurationSectionGetPtrCfgItemByNameFailed, .initialized cfg)

/-- A change of the section of that name. -/
def modifySection (pSectionName : List Char)
    (change : Object ConfigurationSection → Except Fault (Except OperationError Unit ×
      Object ConfigurationSection)) : Object Config → Changed
  | .builded => .ok (.error (.configuration (.cfgOperationNotAllowed 0)), .builded)
  | .initialized cfg => do
    let lCfgSectionIndex ← findCfgSection pSectionName cfg.pcsCfgSections
    if lCfgSectionIndex = cfg.pcsCfgSections.length then
      return (.error (.configuration (.cfgSectionNotFound pSectionName)), .initialized cfg)
    else
      let (r, csSection) ← change (cfg.sectionAt lCfgSectionIndex)
      return (r, cfg.setSection lCfgSectionIndex csSection)

/-- A change of the item of that name. -/
def modifyItem (pSectionName pItemName : List Char)
    (change : Object ConfigurationItem → Except Fault (Except OperationError Unit ×
      Object ConfigurationItem)) : Object Config → Changed :=
  modifySection pSectionName fun csSection => do
    match ← ConfigurationSection.getPtrCfgItemByName pItemName csSection with
    | .error _ => return (.error .cfgConfigurationSectionGetPtrCfgItemByNameFailed, csSection)
    | .ok lCfgItemIndex =>
      let (r, ciCfgItem) ← change (ConfigurationSection.item lCfgItemIndex csSection)
      return (r, ConfigurationSection.setItem lCfgItemIndex ciCfgItem csSection)

/-- `modifySectionComment`. -/
def modifySectionComment (pSectionName : List Char) (pSectionComment : Option (List Char)) :
    Object Config → Changed :=
  modifySection pSectionName fun csSection =>
    let (r, csSection) := ConfigurationSection.modifySectionComment pSectionComment csSection
    .ok (called (.configuration .cfgConfigurationSectionModifySectionCommentFailed) r, csSection)

/-- `modifySectionDate`. -/
def modifySectionDate (pSectionName : List Char) (pSectionDate : Option (List Char)) :
    Object Config → Changed :=
  modifySection pSectionName fun csSection =>
    let (r, csSection) := ConfigurationSection.modifySectionDate pSectionDate csSection
    .ok (called (.configuration .cfgConfigurationSectionModifySectionDateFailed) r, csSection)

/-- `modifyItemComment`. -/
def modifyItemComment (pSectionName pItemName : List Char) (pItemComment : Option (List Char)) :
    Object Config → Changed :=
  modifyItem pSectionName pItemName fun ciCfgItem =>
    let (r, ciCfgItem) := ConfigurationItem.modifyItemComment pItemComment ciCfgItem
    .ok (called (.configuration .cfgConfigurationItemModifyItemCommentFailed) r, ciCfgItem)

/-- `modifyItemValue (..., CFG_NOENCRIPTION)`. -/
def modifyItemValue (pSectionName pItemName : List Char) (pNewItemValue : Option (List Char))
    (lItemValueIndex : Int) : Object Config → Changed :=
  modifyItem pSectionName pItemName fun ciCfgItem => do
    let (r, ciCfgItem) ← ConfigurationItem.modifyItemValue pNewItemValue lItemValueIndex ciCfgItem
    return (called .cfgConfigurationItemModifyItemValueFailed r, ciCfgItem)

/-- `getCfgSectionByName`: the section is copied into a new one. -/
def getCfgSectionByName (pSectionName : List Char)
    (lCfgItemsToAllocOnOverflow lBufferToAllocOnOverflow : Int) :
    Object Config → Except Fault (Except OperationError (Object ConfigurationSection))
  | .builded => .ok (.error (.configuration (.cfgOperationNotAllowed 0)))
  | .initialized cfg => do
    let lCfgSectionIndex ← findCfgSection pSectionName cfg.pcsCfgSections
    if lCfgSectionIndex < cfg.pcsCfgSections.length then
      match ConfigurationSection.copy .builded (cfg.sectionAt lCfgSectionIndex)
          lCfgItemsToAllocOnOverflow lBufferToAllocOnOverflow with
      | (.error _, _) => return .error (.configuration .cfgConfigurationSectionCopyFailed)
      | (.ok (), pcsCfgSection) => return .ok pcsCfgSection
    else return .error (.configuration (.cfgSectionNotFound pSectionName))

/-- `getCfgItemByName`. -/
def getCfgItemByName (pSectionName pItemName : List Char)
    (lCfgItemsToAllocOnOverflow lBufferToAllocOnOverflow : Int) (t : Object Config) :
    Except Fault (Except OperationError (Object ConfigurationItem)) := do
  match ← getCfgSectionByName pSectionName lCfgItemsToAllocOnOverflow lBufferToAllocOnOverflow t with
  | .error e => return .error e
  | .ok csCfgSection =>
    match ← ConfigurationSection.getCfgItemByName pItemName lBufferToAllocOnOverflow csCfgSection with
    | .error e => return .error e
    | .ok pciCfgItem =>
      match ConfigurationSection.finish csCfgSection with
      | (.error _, _) => return .error (.configuration .cfgConfigurationSectionFinishFailed)
      | (.ok (), _) => return .ok pciCfgItem

/-- `getItemValue (..., CFG_NOENCRIPTION, ...)`. -/
def getItemValue (pSectionName pItemName : List Char) (ulMaxItemValueLength : Nat)
    (lItemValueIndex lCfgItemsToAllocOnOverflow lBufferToAllocOnOverflow : Int) (t : Object Config) :
    Except Fault (Except OperationError (List Char)) := do
  match ← getCfgItemByName pSectionName pItemName lCfgItemsToAllocOnOverflow
      lBufferToAllocOnOverflow t with
  | .error e => return .error e
  | .ok ciCfgItem =>
    match ← ConfigurationItem.getItemValue ulMaxItemValueLength lItemValueIndex ciCfgItem with
    | .error e => return .error e
    | .ok pItemValue =>
      match ConfigurationItem.finish ciCfgItem with
      | (.error _, _) => return .error (.configuration .cfgConfigurationItemFinishFailed)
      | (.ok (), _) => return .ok pItemValue

/-- `modifyConfigName`. -/
def modifyConfigName (pConfigName : Option (List Char)) : Object Config → Outcome (Object Config)
  | .builded => (.error (.cfgOperationNotAllowed 0), .builded)
  | .initialized cfg =>
    match pConfigName with
    | none => (.error .cfgActivationWrong, .initialized cfg)
    | some pConfigName =>
      if maxConfigNameLength - 1 < pConfigName.length then
        (.error .cfgActivationWrong, .initialized cfg)
      else (.ok (), .initialized { cfg with pConfigName := pConfigName })

/-- `finish`. -/
def finish : Object Config → Outcome (Object Config)
  | .builded => (.error (.cfgOperationNotAllowed 0), .builded)
  | .initialized _ => (.ok (), .builded)

/-- The loop of `copy` over the sections, each through `getCfgSectionByIndex` in a section of its
own. -/
def copyEach (lCfgItemsToAllocOnOverflow lBufferToAllocOnOverflow : Int) (dest : Object Config) :
    List (Object ConfigurationSection) → Except OperationError Unit × Object Config
  | [] => (.ok (), dest)
  | csSection :: sections =>
    match ConfigurationSection.copy .builded csSection lCfgItemsToAllocOnOverflow
        lBufferToAllocOnOverflow with
    | (.error _, _) =>
      (.error (.configuration .cfgConfigGetCfgSectionByIndexFailed), (finish dest).2)
    | (.ok (), csCfgSection) =>
      match appendCfgSection (some csCfgSection) lCfgItemsToAllocOnOverflow lBufferToAllocOnOverflow
          dest with
      | (.error _, dest) => (.error (.configuration .cfgConfigAppendCfgSectionFailed), (finish dest).2)
      | (.ok (), dest) =>
        match ConfigurationSection.finish csCfgSection with
        | (.error _, _) =>
          (.error (.configuration .cfgConfigurationSectionFinishFailed), (finish dest).2)
        | (.ok (), _) => copyEach lCfgItemsToAllocOnOverflow lBufferToAllocOnOverflow dest sections

/-- `copy`: the destination as it leaves it. -/
def copy (dest src : Object Config) (lCfgSectionsToAllocOnOverflow lCfgItemsToAllocOnOverflow
    lBufferToAllocOnOverflow : Int) : Except OperationError Unit × Object Config :=
  match src, dest with
  | .initialized src, .builded =>
    match init (some src.pConfigName) src.bIsCaseSensitive lCfgSectionsToAllocOnOverflow .builded with
    | (.error _, dest) => (.error (.configuration .cfgConfigInitFailed), dest)
    | (.ok (), dest) =>
      copyEach lCfgItemsToAllocOnOverflow lBufferToAllocOnOverflow dest src.pcsCfgSections
  | src, dest => (.error (.configuration (.cfgOperationNotAllowed src.status)), dest)

end Config

end Configuration

end CatraLibraries
