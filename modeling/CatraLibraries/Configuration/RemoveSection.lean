/-
# Removing a section

`removeCfgSection` finishes the section that it has found, copies the last section into its place
and finishes the last one.  When the section found is itself the last one, the copy is made from
a section that has just been finished: it fails, and the configuration is left with a counted
section that has no members.
-/
import CatraLibraries.Configuration.Config

namespace CatraLibraries

namespace Configuration

open Memory

namespace Config

/-- The index of the first section of that name, or the number of the sections. -/
def indexOf (pSectionName : List Char) (ss : List CfgSection) : Nat :=
  ss.findIdx fun s => sameName s.caseSensitive s.name pSectionName

variable {pSectionName : List Char} {t : Object Config} {ss pre mid : List CfgSection}
  {s last : CfgSection} {place lastPlace : Object ConfigurationSection}
  {sections spre : List (Object ConfigurationSection)}
  {lCfgItemsToAllocOnOverflow lBufferToAllocOnOverflow : Int}

theorem findCfgSection_of_holds (h : List.Forall₂ ConfigurationSection.Holds sections ss) :
    findCfgSection pSectionName sections = .ok (indexOf pSectionName ss) := by
  induction h with
  | nil => rfl
  | @cons _ s _ ss hsection _ ih =>
    have hnamed := ConfigurationSection.isNamed_of_holds hsection pSectionName
    unfold findCfgSection indexOf
    rw [hnamed, ok_bind, List.findIdx_cons]
    cases sameName s.caseSensitive s.name pSectionName with
    | true => rfl
    | false =>
      rw [ih]
      rfl

/-! ### The place of the section -/

theorem getD_append_cons {α : Type} (pre post : List α) (a d : α) :
    (pre ++ a :: post).getD pre.length d = a := by
  rw [List.getD_eq_getElem?_getD, List.getElem?_append_right (Nat.le_refl _), Nat.sub_self]
  rfl

theorem set_append_cons {α : Type} (pre post : List α) (a b : α) :
    (pre ++ a :: post).set pre.length b = pre ++ b :: post := by
  rw [List.set_append_right _ _ (Nat.le_refl _), Nat.sub_self]
  rfl

/-- **The last section is not removed**: it is finished, and copied onto itself. -/
theorem removeAt_last (hplace : ConfigurationSection.Holds place s) :
    removeAt spre.length lCfgItemsToAllocOnOverflow lBufferToAllocOnOverflow (spre ++ [place])
      = (.error .cfgConfigurationSectionCopyFailed, spre ++ [.builded]) := by
  unfold removeAt
  rw [getD_append_cons, ConfigurationSection.finish_of_holds hplace]
  dsimp only
  rw [set_append_cons, List.getLastD_concat]
  show (_, (spre ++ [Object.builded]).set spre.length Object.builded) = _
  rw [set_append_cons]

/-- **Any other section is removed** when there is room for a copy of the last one. -/
theorem removeAt_inner (spre smid : List (Object ConfigurationSection))
    (hplace : ConfigurationSection.Holds place s)
    (hlast : ConfigurationSection.Holds lastPlace last) (hitems : 1 ≤ lCfgItemsToAllocOnOverflow)
    (hbuf : last.items = [] ∨ 1 ≤ lBufferToAllocOnOverflow) :
    ∃ dest, removeAt spre.length lCfgItemsToAllocOnOverflow lBufferToAllocOnOverflow
        (spre ++ place :: (smid ++ [lastPlace])) = (.ok (), spre ++ dest :: smid) ∧
      ConfigurationSection.Holds dest last := by
  obtain ⟨dest, hcopy, hdest⟩ := ConfigurationSection.holds_copy hlast hitems hbuf
  have hshape : ∀ a : Object ConfigurationSection,
      spre ++ a :: (smid ++ [lastPlace]) = (spre ++ a :: smid) ++ [lastPlace] := by
    intro a
    rw [List.append_assoc, List.cons_append]
  refine ⟨dest, ?_, hdest⟩
  unfold removeAt
  rw [getD_append_cons, ConfigurationSection.finish_of_holds hplace]
  dsimp only
  rw [set_append_cons, hshape, List.getLastD_concat, hcopy]
  dsimp only
  rw [← hshape, set_append_cons, hshape, List.getLastD_concat,
    ConfigurationSection.finish_of_holds hlast]
  dsimp only
  rw [List.dropLast_concat]

/-- Without room for the copy it is lost: its place stays empty. -/
theorem removeAt_no_room (spre smid : List (Object ConfigurationSection))
    (hplace : ConfigurationSection.Holds place s)
    (hlast : ConfigurationSection.Holds lastPlace last)
    (hroom : ¬(1 ≤ lCfgItemsToAllocOnOverflow ∧
      (last.items = [] ∨ 1 ≤ lBufferToAllocOnOverflow))) :
    (removeAt spre.length lCfgItemsToAllocOnOverflow lBufferToAllocOnOverflow
      (spre ++ place :: (smid ++ [lastPlace]))).1
        = .error .cfgConfigurationSectionCopyFailed := by
  obtain ⟨e, hcopy⟩ := ConfigurationSection.copy_eq_error hlast hroom
  have hshape : spre ++ .builded :: (smid ++ [lastPlace])
      = (spre ++ .builded :: smid) ++ [lastPlace] := by
    rw [List.append_assoc, List.cons_append]
  unfold removeAt
  rw [getD_append_cons, ConfigurationSection.finish_of_holds hplace]
  dsimp only
  rw [set_append_cons, hshape, List.getLastD_concat, hcopy]

/-! ### Every configuration -/

/-- A section that is there is removed and the others stay, perhaps in another order; the absence
of a section is reported and changes nothing. -/
def Removes (pSectionName : List Char) (lCfgItemsToAllocOnOverflow lBufferToAllocOnOverflow : Int)
    (t : Object Config) (ss : List CfgSection) : Prop :=
  ∃ r t', removeCfgSection (some pSectionName) lCfgItemsToAllocOnOverflow lBufferToAllocOnOverflow t
      = .ok (r, t') ∧
    if indexOf pSectionName ss < ss.length then
      r = .ok () ∧ ∃ ss', Holds t' ss' ∧ ss'.Perm (ss.eraseIdx (indexOf pSectionName ss))
    else r = .error (.cfgSectionNotFound pSectionName) ∧ t' = t

/-- The section, if it is there, is not the last one, and there is room for a copy of that. -/
def CanRemove (pSectionName : List Char) (lCfgItemsToAllocOnOverflow lBufferToAllocOnOverflow : Int)
    (ss : List CfgSection) : Prop :=
  indexOf pSectionName ss < ss.length → indexOf pSectionName ss + 1 < ss.length ∧
    1 ≤ lCfgItemsToAllocOnOverflow ∧
    ∀ last ∈ ss.getLast?, last.items = [] ∨ 1 ≤ lBufferToAllocOnOverflow

/-- Lists that agree, cut at the same place. -/
theorem exists_append_of_forall₂ {α β : Type} {R : α → β → Prop} {l : List α} {pre post : List β}
    {b : β} (h : List.Forall₂ R l (pre ++ b :: post)) :
    ∃ lpre a lpost, l = lpre ++ a :: lpost ∧ List.Forall₂ R lpre pre ∧ R a b ∧
      List.Forall₂ R lpost post := by
  induction pre generalizing l with
  | nil =>
    obtain ⟨a, lpost, hab, hpost, rfl⟩ := List.forall₂_cons_right_iff.mp h
    exact ⟨[], a, lpost, rfl, .nil, hab, hpost⟩
  | cons c pre ih =>
    obtain ⟨d, l', hd, hl', rfl⟩ := List.forall₂_cons_right_iff.mp h
    obtain ⟨lpre, a, lpost, rfl, hpre, hab, hpost⟩ := ih hl'
    exact ⟨d :: lpre, a, lpost, rfl, .cons hd hpre, hab, hpost⟩

/-- **`removeCfgSection` removes a section exactly when it is not the last one**, given room for
the copy that it makes. -/
theorem removes_iff (h : Holds t ss) :
    Removes pSectionName lCfgItemsToAllocOnOverflow lBufferToAllocOnOverflow t ss ↔
      CanRemove pSectionName lCfgItemsToAllocOnOverflow lBufferToAllocOnOverflow ss := by
  obtain ⟨cfg, rfl, hsections⟩ := h
  have hfind : findCfgSection pSectionName cfg.pcsCfgSections = .ok (indexOf pSectionName ss) :=
    findCfgSection_of_holds hsections
  have hle : indexOf pSectionName ss ≤ ss.length := List.findIdx_le_length
  unfold Removes CanRemove removeCfgSection
  dsimp only
  rw [hfind, ok_bind, hsections.length_eq]
  generalize indexOf pSectionName ss = i at hle ⊢
  by_cases hi : i < ss.length
  · rw [if_neg (Nat.ne_of_lt hi)]
    simp only [hi, if_true, true_implies]
    -- the configuration cut at the section that is found
    obtain ⟨pre, s, post, rfl, rfl⟩ : ∃ pre s post, ss = pre ++ s :: post ∧ pre.length = i :=
      ⟨ss.take i, ss[i], ss.drop (i + 1), by simp, by simp; omega⟩
    obtain ⟨spre, place, spost, hcfg, hpre, hplace, hpost⟩ := exists_append_of_forall₂ hsections
    rw [hcfg, ← hpre.length_eq]
    rcases List.eq_nil_or_concat post with rfl | ⟨mid, last, rfl⟩
    · -- it is the last one
      obtain rfl := List.forall₂_nil_right_iff.mp hpost
      rw [removeAt_last hplace]
      constructor
      · rintro ⟨r, t', hrun, rfl, -⟩
        cases hrun
      · intro hcond
        have hnot := hcond.1
        rw [hpre.length_eq, List.length_append] at hnot
        exact absurd hnot (Nat.lt_irrefl _)
    · rw [List.concat_eq_append] at hpost hi ⊢
      obtain ⟨smid, lastPlace, snil, rfl, hmid, hlast, hnil⟩ := exists_append_of_forall₂ hpost
      obtain rfl := List.forall₂_nil_right_iff.mp hnil
      have hgetLast : (pre ++ s :: (mid ++ [last])).getLast? = some last := by
        rw [← List.cons_append, ← List.append_assoc, List.getLast?_concat]
      rw [hgetLast]
      constructor
      · rintro ⟨r, t', hrun, rfl, -⟩
        refine ⟨by rw [hpre.length_eq]; simp, ?_⟩
        by_contra hroom
        have herror := removeAt_no_room spre smid hplace hlast
          (fun h => hroom ⟨h.1, fun last' hlast' => by cases hlast'; exact h.2⟩)
        generalize removeAt _ _ _ _ = outcome at hrun herror
        obtain ⟨r, sections⟩ := outcome
        cases herror
        cases hrun
      · rintro ⟨-, hitems, hbuf⟩
        obtain ⟨dest, hremove, hdest⟩ :=
          removeAt_inner spre smid hplace hlast hitems (hbuf last rfl)
        rw [hremove]
        refine ⟨.ok (), _, rfl, rfl, pre ++ last :: mid, ⟨_, rfl,
          List.rel_append hpre (.cons hdest hmid)⟩, ?_⟩
        rw [hpre.length_eq, List.eraseIdx_append_of_length_le (Nat.le_refl _), Nat.sub_self]
        exact List.Perm.append_left pre (List.perm_append_singleton last mid).symm
  · obtain rfl : i = ss.length := by omega
    rw [if_pos rfl]
    simp only [hi, if_false, false_implies, iff_true]
    exact ⟨_, _, rfl, rfl, rfl⟩

/-- A section without items. -/
def emptySection (pSectionName : String) : ConfigurationSection where
  bIsCaseSensitive := true
  pSectionName := pSectionName.toList
  pSectionComment := []
  pSectionDate := none
  lCfgItemsToAllocOnOverflow := 5
  pciCfgItems := []
  lAllocatedCfgItemNumber := 5

/-- A configuration of the sections "A" and "B". -/
def twoSections : Object Config := .initialized
  { bIsCaseSensitive := true
    pConfigName := []
    lCfgSectionsToAllocOnOverflow := 20
    pcsCfgSections := [.initialized (emptySection "A"), .initialized (emptySection "B")]
    lAllocatedCfgSectionsNumber := 20 }

theorem holds_twoSections :
    Holds twoSections [⟨true, ['A'], [], none, []⟩, ⟨true, ['B'], [], none, []⟩] :=
  ⟨_, rfl, .cons ⟨_, rfl, rfl, rfl, rfl, rfl, rfl, .nil⟩
    (.cons ⟨_, rfl, rfl, rfl, rfl, rfl, rfl, .nil⟩ .nil)⟩

/-- The first one is removed. -/
theorem removes_first : Removes ['A'] 5 20 twoSections
    [⟨true, ['A'], [], none, []⟩, ⟨true, ['B'], [], none, []⟩] :=
  (removes_iff holds_twoSections).mpr fun _ => ⟨by decide, by decide, fun _ _ => .inr (by decide)⟩

/-- The second one is not, although the arguments are the default ones. -/
theorem not_removes_second :
    ¬∀ (pSectionName : List Char) (t : Object Config) (ss : List CfgSection), Holds t ss →
      Removes pSectionName 5 20 t ss := by
  intro hall
  obtain ⟨r, t', hrun, hremoves⟩ := hall ['B'] _ _ holds_twoSections
  have hfails : (removeCfgSection (some ['B']) 5 20 twoSections).map (·.1)
      = .ok (.error .cfgConfigurationSectionCopyFailed) := by decide
  rw [hrun] at hfails
  cases hfails
  rw [if_pos (by decide)] at hremoves
  cases hremoves.1

end Config

end Configuration

end CatraLibraries
