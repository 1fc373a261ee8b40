/-
# A configuration

`Configuration/src/Config.cpp`: a configuration is a growing array of sections.  The sections are
deep copies, like the items of a section.  `removeCfgSection` fills the place of the removed
section with a copy of the last one.
-/
import CatraLibraries.Configuration.ConfigurationSection

namespace CatraLibraries

namespace Configuration

open Memory

/-- The members of an initialized `Config`; `pcsCfgSections` are the first `_lCfgSectionsNumber` of
the allocated sections, the others are not initialized. -/
structure Config where
  bIsCaseSensitive : Bool
  pConfigName : List Char
  lCfgSectionsToAllocOnOverflow : Int
  pcsCfgSections : List (Object ConfigurationSection)
  lAllocatedCfgSectionsNumber : Int
  deriving DecidableEq, Repr

namespace Config

/-- `CFG_MAXCONFIGNAMELENGTH`. -/
def maxConfigNameLength : Nat := 256 + 1

/-- `init`; `none` is a NULL argument. -/
def init (pConfigName : Option (List Char)) (bIsCaseSensitive : Bool)
    (lCfgSectionsToAllocOnOverflow : Int) : Object Config → Outcome (Object Config)
  | .initialized cfg => (.error (.cfgOperationNotAllowed 1), .initialized cfg)
  | .builded =>
    match pConfigName with
    | none => (.error .cfgActivationWrong, .builded)
    | some pConfigName =>
      if maxConfigNameLength - 1 < pConfigName.length ∨ lCfgSectionsToAllocOnOverflow < 1 then
        (.error .cfgActivationWrong, .builded)
      else
        (.ok (), .initialized
          { bIsCaseSensitive := bIsCaseSensitive
            pConfigName := pConfigName
            lCfgSectionsToAllocOnOverflow := lCfgSectionsToAllocOnOverflow
            pcsCfgSections := []
            lAllocatedCfgSectionsNumber := lCfgSectionsToAllocOnOverflow })

/-- The sections copied into a greater array.  The sections that were copied are initialized, so
that `finish` succeeds on them. -/
def copySections (lCfgItemsToAllocOnOverflow lBufferToAllocOnOverflow : Int) :
    List (Object ConfigurationSection) →
      Except ConfigurationError (List (Object ConfigurationSection))
  | [] => .ok []
  | csSection :: sections =>
    match ConfigurationSection.copy .builded csSection lCfgItemsToAllocOnOverflow
        lBufferToAllocOnOverflow with
    | (.error _, _) => .error .cfgConfigurationSectionCopyFailed
    | (.ok (), dest) => do
      let dests ← copySections lCfgItemsToAllocOnOverflow lBufferToAllocOnOverflow sections
      return dest :: dests

/-- The array with room for one more section. -/
def growSections (lCfgItemsToAllocOnOverflow lBufferToAllocOnOverflow : Int) (cfg : Config) :
    Except ConfigurationError Config :=
  if (cfg.pcsCfgSections.length : Int) = cfg.lAllocatedCfgSectionsNumber then do
    let sections ←
      copySections lCfgItemsToAllocOnOverflow lBufferToAllocOnOverflow cfg.pcsCfgSections
    return { cfg with
      pcsCfgSections := sections
      lAllocatedCfgSectionsNumber :=
        cfg.lAllocatedCfgSectionsNumber + cfg.lCfgSectionsToAllocOnOverflow }
  else .ok cfg

/-- `appendCfgSection`. -/
def appendCfgSection (pcsCfgSection : Option (Object ConfigurationSection))
    (lCfgItemsToAllocOnOverflow lBufferToAllocOnOverflow : Int) :
    Object Config → Outcome (Object Config)
  | .builded => (.error (.cfgOperationNotAllowed 0), .builded)
  | .initialized cfg =>
    match pcsCfgSection with
    | none => (.error .cfgActivationWrong, .initialized cfg)
    | some pcsCfgSection =>
      match growSections lCfgItemsToAllocOnOverflow lBufferToAllocOnOverflow cfg with
      | .error e => (.error e, .initialized cfg)
      | .ok cfg =>
        match ConfigurationSection.copy .builded pcsCfgSection lCfgItemsToAllocOnOverflow
            lBufferToAllocOnOverflow with
        | (.error _, _) => (.error .cfgConfigurationSectionCopyFailed, .initialized cfg)
        | (.ok (), csSection) =>
          (.ok (), .initialized { cfg with pcsCfgSections := cfg.pcsCfgSections ++ [csSection] })

/-- The loop that looks for a section: its index, or the number of the sections. -/
def findCfgSection (pSectionName : List Char) :
    List (Object ConfigurationSection) → Except Fault Nat
  | [] => .ok 0
  | csSection :: sections => do
    if ← ConfigurationSection.isNamed pSectionName csSection then return 0
    else return (← findCfgSection pSectionName sections) + 1

/-- `removeCfgSection`, once the section is found. -/
def removeAt (lCfgSectionIndex : Nat) (lCfgItemsToAllocOnOverflow lBufferToAllocOnOverflow : Int)
    (sections : List (Object ConfigurationSection)) : Outcome (List (Object ConfigurationSection)) :=
  match ConfigurationSection.finish (sections.getD lCfgSectionIndex .builded) with
  | (.error _, place) =>
    (.error .cfgConfigurationSectionFinishFailed, sections.set lCfgSectionIndex place)
  | (.ok (), place) =>
    let sections := sections.set lCfgSectionIndex place
    match ConfigurationSection.copy place (sections.getLastD .builded) lCfgItemsToAllocOnOverflow
        lBufferToAllocOnOverflow with
    | (.error _, place) =>
      (.error .cfgConfigurationSectionCopyFailed, sections.set lCfgSectionIndex place)
    | (.ok (), place) =>
      let sections := sections.set lCfgSectionIndex place
      match ConfigurationSection.finish (sections.getLastD .builded) with
      | (.error _, _) => (.error .cfgConfigurationSectionFinishFailed, sections)
      | (.ok (), _) => (.ok (), sections.dropLast)

/-- `removeCfgSection`. -/
def removeCfgSection (pSectionName : Option (List Char))
    (lCfgItemsToAllocOnOverflow lBufferToAllocOnOverflow : Int) :
    Object Config → Except Fault (Outcome (Object Config))
  | .builded => .ok (.error (.cfgOperationNotAllowed 0), .builded)
  | .initialized cfg =>
    match pSectionName with
    | none => .ok (.error .cfgActivationWrong, .initialized cfg)
    | some pSectionName => do
      let lCfgSectionIndex ← findCfgSection pSectionName cfg.pcsCfgSections
      if lCfgSectionIndex = cfg.pcsCfgSections.length then
        return (.error (.cfgSectionNotFound pSectionName), .initialized cfg)
      else
        let (r, sections) := removeAt lCfgSectionIndex lCfgItemsToAllocOnOverflow
          lBufferToAllocOnOverflow cfg.pcsCfgSections
        return (r, .initialized { cfg with pcsCfgSections := sections })

/-- `write`: the sections one after the other. -/
def writeSections : List (Object ConfigurationSection) → Except Fault (List Char)
  | [] => .ok []
  | .builded :: _ => .error .uninitialised
  | .initialized csSection :: sections => do
    let text ← csSection.write
    let rest ← writeSections sections
    return text ++ rest

def write (cfg : Config) : Except Fault (List Char) := writeSections cfg.pcsCfgSections

/-! ### Contents -/

/-- An initialized configuration whose sections have these contents. -/
def Holds (t : Object Config) (ss : List CfgSection) : Prop :=
  ∃ cfg, t = .initialized cfg ∧ List.Forall₂ ConfigurationSection.Holds cfg.pcsCfgSections ss

variable {t : Object Config} {ss : List CfgSection} {s : CfgSection} {cfg : Config}
  {csSection : Object ConfigurationSection} {sections : List (Object ConfigurationSection)}
  {lCfgItemsToAllocOnOverflow lBufferToAllocOnOverflow : Int}

theorem holds_init {pConfigName : List Char} (b : Bool) {lCfgSectionsToAllocOnOverflow : Int}
    (hname : pConfigName.length ≤ 256) (h : 1 ≤ lCfgSectionsToAllocOnOverflow) :
    ∃ t, init (some pConfigName) b lCfgSectionsToAllocOnOverflow .builded = (.ok (), t) ∧
      Holds t [] := by
  unfold init maxConfigNameLength
  dsimp only
  rw [if_neg (by omega)]
  exact ⟨_, rfl, _, rfl, .nil⟩

/-- **Growing the array keeps the contents of the sections.** -/
theorem copySections_of_holds (hitems : 1 ≤ lCfgItemsToAllocOnOverflow)
    (hbuf : 1 ≤ lBufferToAllocOnOverflow)
    (h : List.Forall₂ ConfigurationSection.Holds sections ss) :
    ∃ dests, copySections lCfgItemsToAllocOnOverflow lBufferToAllocOnOverflow sections = .ok dests ∧
      List.Forall₂ ConfigurationSection.Holds dests ss := by
  induction h with
  | nil => exact ⟨[], rfl, .nil⟩
  | cons hsection _ ih =>
    obtain ⟨dest, hcopy, hdest⟩ := ConfigurationSection.holds_copy hsection hitems (.inr hbuf)
    obtain ⟨dests, hcopies, hdests⟩ := ih
    refine ⟨dest :: dests, ?_, .cons hdest hdests⟩
    rw [copySections, hcopy]
    dsimp only
    rw [hcopies]
    rfl

/-- **`appendCfgSection` adds a copy of the section.** -/
theorem holds_appendCfgSection (h : Holds t ss) (hsection : ConfigurationSection.Holds csSection s)
    (hitems : 1 ≤ lCfgItemsToAllocOnOverflow) (hbuf : 1 ≤ lBufferToAllocOnOverflow) :
    ∃ t', appendCfgSection (some csSection) lCfgItemsToAllocOnOverflow lBufferToAllocOnOverflow t
        = (.ok (), t') ∧ Holds t' (ss ++ [s]) := by
  obtain ⟨cfg, rfl, hsections⟩ := h
  have hgrow : ∃ cfg', growSections lCfgItemsToAllocOnOverflow lBufferToAllocOnOverflow cfg
      = .ok cfg' ∧ List.Forall₂ ConfigurationSection.Holds cfg'.pcsCfgSections ss := by
    unfold growSections
    split
    · obtain ⟨dests, hcopies, hdests⟩ := copySections_of_holds hitems hbuf hsections
      rw [hcopies]
      exact ⟨_, rfl, hdests⟩
    · exact ⟨cfg, rfl, hsections⟩
  obtain ⟨cfg', hgrow, hsections'⟩ := hgrow
  obtain ⟨dest, hcopy, hdest⟩ := ConfigurationSection.holds_copy hsection hitems (.inr hbuf)
  refine ⟨.initialized { cfg' with pcsCfgSections := cfg'.pcsCfgSections ++ [dest] }, ?_, _, rfl,
    List.rel_append hsections' (.cons hdest .nil)⟩
  unfold appendCfgSection
  dsimp only
  rw [hgrow]
  dsimp only
  rw [hcopy]

end Config

end Configuration

end CatraLibraries
