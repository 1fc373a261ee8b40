/-
# The retention of the trace files

A tracer that maintains `M` trace files removes, when it closes the file with the number `n`,
the file with the number `n - M + 1`, or the one as far back before the numbers came round.  So
the files of the tracer are those younger than `M - 1` before a new one is opened
(`Window`), and `M` of them exist afterwards.

The removal is skipped when compressing or copying the closed file fails; a failed compression
may leave two files with one number; the file to remove is found by its number only, whoever it
belongs to; and the start-up removes a file even where `M` is -1.  In every run whose steps
avoid these four (`KeepsRetention`) the retention is right (`retained_run`).
-/
import CatraLibraries.Tracer.TraceFiles
import CatraLibraries.Lib.Transition

namespace CatraLibraries

namespace TraceFiles

open Stdio CyclicNumbers Transition

/-! ### Names and numbers -/

theorem length_tailOfTheFile {k : ℤ} (hk : k ≤ maxFileNumber) :
    (tailOfTheFile k).length = 12 := by
  have hprint : (printLu 4 k.toNat).length = 4 :=
    length_printLu (by decide) (by unfold maxFileNumber at hk; omega)
  rw [tailOfTheFile, List.length_cons, List.length_append, hprint]
  rfl

theorem tailOfTheFile_injective {x y : FileName} {j k : ℤ} (hj : 1 ≤ j) (hjmax : j ≤ maxFileNumber)
    (hk : 1 ≤ k) (hkmax : k ≤ maxFileNumber) (h : x ++ tailOfTheFile j = y ++ tailOfTheFile k) :
    j = k := by
  have htail := List.append_inj_right' h
    ((length_tailOfTheFile hjmax).trans (length_tailOfTheFile hkmax).symm)
  have hprint := List.append_inj_left' (List.cons.inj htail).2 rfl
  have hnat := congrArg decimal hprint
  rw [decimal_printLu, decimal_printLu] at hnat
  omega

theorem tailOfTheFileGZIP_injective {x y : FileName} {j k : ℤ} (hj : 1 ≤ j)
    (hjmax : j ≤ maxFileNumber) (hk : 1 ≤ k) (hkmax : k ≤ maxFileNumber)
    (h : x ++ tailOfTheFileGZIP j = y ++ tailOfTheFileGZIP k) : j = k := by
  unfold tailOfTheFileGZIP at h
  rw [← List.append_assoc, ← List.append_assoc] at h
  exact tailOfTheFile_injective hj hjmax hk hkmax (List.append_inj_left' h rfl)

/-- A compressed file has another end than an uncompressed one. -/
theorem tail_ne_tailGZIP (x y : FileName) (j k : ℤ) :
    x ++ tailOfTheFile j ≠ y ++ tailOfTheFileGZIP k := by
  intro h
  have hplain : tailOfTheFile j = ('_' :: (printLu 4 j.toNat ++ "_.trac".toList)) ++ ['e'] := by
    rw [List.cons_append, List.append_assoc]; rfl
  have hgzip : tailOfTheFileGZIP k = (tailOfTheFile k ++ ".g".toList) ++ ['z'] := by
    rw [List.append_assoc]; rfl
  rw [hplain, hgzip, ← List.append_assoc, ← List.append_assoc] at h
  exact absurd (List.append_inj_right' h rfl) (by decide)

/-- `f` is the file of the tracer with the number `k`. -/
def Mine (c : RetentionConfiguration) (f : FileName) (k : ℤ) : Prop :=
  1 ≤ k ∧ k ≤ maxFileNumber ∧ ∃ base, c.isBase base = true
    ∧ (f = base ++ tailOfTheFile k ∨ f = base ++ tailOfTheFileGZIP k)

/-- `f` is a file of the tracer. -/
def Own (c : RetentionConfiguration) (f : FileName) : Prop := ∃ k, Mine c f k

/-- Among the files of the tracer, the tail finds the number. -/
theorem Mine.hasTail_iff {c : RetentionConfiguration} {f : FileName} {j k : ℤ} (h : Mine c f j)
    (hk : 1 ≤ k) (hkmax : k ≤ maxFileNumber) : hasTail k f = true ↔ j = k := by
  obtain ⟨hj, hjmax, base, -, hname⟩ := h
  unfold hasTail
  rw [Bool.or_eq_true, List.isSuffixOf_iff_suffix, List.isSuffixOf_iff_suffix]
  constructor
  · rintro (⟨x, hx⟩ | ⟨x, hx⟩)
    · rcases hname with rfl | rfl
      · exact tailOfTheFile_injective hj hjmax hk hkmax hx.symm
      · exact absurd hx (tail_ne_tailGZIP x base k j)
    · rcases hname with rfl | rfl
      · exact absurd hx.symm (tail_ne_tailGZIP base x j k)
      · exact tailOfTheFileGZIP_injective hj hjmax hk hkmax hx.symm
  · rintro rfl
    rcases hname with rfl | rfl
    · exact Or.inl (List.suffix_append base _)
    · exact Or.inr (List.suffix_append base _)

theorem Mine.unique {c : RetentionConfiguration} {f : FileName} {j k : ℤ} (hj : Mine c f j)
    (hk : Mine c f k) : j = k :=
  (hj.hasTail_iff hk.1 hk.2.1).mp ((hk.hasTail_iff hk.1 hk.2.1).mpr rfl)

/-! ### The window -/

/-- The files of the tracer are younger than `d`, where `n` is the last number given out. -/
def Window (c : RetentionConfiguration) (directory : List FileName) (n : ℤ) (hasRound : Bool)
    (d : ℤ) : Prop :=
  ∀ f ∈ directory, ∀ k, Mine c f k → age maxFileNumber n k < d ∧ (hasRound = false → k ≤ n)

/-- No two files of the tracer have the same number. -/
def Distinct (c : RetentionConfiguration) (directory : List FileName) : Prop :=
  ∀ f ∈ directory, ∀ g ∈ directory, ∀ k, Mine c f k → Mine c g k → f = g

section

variable {c : RetentionConfiguration} {directory directory' : List FileName} {n d : ℤ}
  {hasRound : Bool}

theorem Window.subset (h : Window c directory n hasRound d)
    (hsub : ∀ f ∈ directory', f ∈ directory) : Window c directory' n hasRound d :=
  fun f hf => h f (hsub f hf)

theorem Distinct.subset (h : Distinct c directory) (hsub : ∀ f ∈ directory', f ∈ directory) :
    Distinct c directory' :=
  fun f hf g hg => h f (hsub f hf) g (hsub g hg)

/-- A file of somebody else changes nothing. -/
theorem Window.insert (h : Window c directory n hasRound d) {g : FileName} (hg : ¬ Own c g) :
    Window c (directory.insert g) n hasRound d := by
  intro f hf k hmine
  rcases List.mem_insert_iff.mp hf with rfl | hf
  · exact absurd ⟨k, hmine⟩ hg
  · exact h f hf k hmine

theorem Distinct.insert (h : Distinct c directory) {g : FileName} (hg : ¬ Own c g) :
    Distinct c (directory.insert g) := by
  intro f hf e he k hf' he'
  rcases List.mem_insert_iff.mp hf with rfl | hf
  · exact absurd ⟨k, hf'⟩ hg
  · rcases List.mem_insert_iff.mp he with rfl | he
    · exact absurd ⟨k, he'⟩ hg
    · exact h f hf e he k hf' he'

/-- The window bounds the number of the files. -/
theorem Window.length_le {files : List FileName} (h : Window c directory n hasRound d)
    (hdistinct : Distinct c directory) (hn : 0 ≤ n) (hd : 0 ≤ d) (hfiles : files.Nodup)
    (hown : ∀ f ∈ files, f ∈ directory ∧ Own c f) : (files.length : ℤ) ≤ d := by
  refine length_le_of_numbered hd hfiles
    (R := fun f i => ∃ k, Mine c f k ∧ age maxFileNumber n k = i) ?_ ?_
  · intro f hf
    obtain ⟨hmem, k, hmine⟩ := hown f hf
    exact ⟨_, age_nonneg hn hmine.2.1, (h f hmem k hmine).1, k, hmine, rfl⟩
  · rintro f hf g hg i ⟨j, hj, hagej⟩ ⟨k, hk, hagek⟩
    obtain rfl := age_injective hj.1 hj.2.1 hk.1 hk.2.1 (hagej.trans hagek.symm)
    exact hdistinct f (hown f hf).1 g (hown g hg).1 j hj hk

end

/-- The number that the retention removes, if any. -/
def retireNumber (c : RetentionConfiguration) (number : ℤ) (hasRound : Bool) : Option ℤ :=
  if number ≥ c.lTraceFilesNumberToMaintain then
    some (number - c.lTraceFilesNumberToMaintain + 1)
  else if hasRound then some (number + 9999 - c.lTraceFilesNumberToMaintain + 1)
  else none

theorem retire_eq (c : RetentionConfiguration) (s : TraceFiles) (listing : List FileName)
    (number : ℤ) (hasRound : Bool) :
    s.retire listing number hasRound c.lTraceFilesNumberToMaintain
      = match retireNumber c number hasRound with
        | some k => s.removeOldFile listing k
        | none => s := by
  unfold retire retireNumber
  split
  · rfl
  · cases hasRound with
    | false => rfl
    | true => rfl

/-- Removing a file leaves everything but the directory, where one file with the tail may be
missing. -/
theorem removeOldFile_spec (s : TraceFiles) (listing : List FileName) (k : ℤ) :
    (∃ directory, s.removeOldFile listing k = { s with directory := directory })
      ∧ (∀ f ∈ (s.removeOldFile listing k).directory, f ∈ s.directory)
      ∧ ∀ f ∈ s.directory, f ∉ (s.removeOldFile listing k).directory → hasTail k f = true := by
  unfold removeOldFile
  cases hfind : listing.find? (hasTail k) with
  | none => exact ⟨⟨s.directory, rfl⟩, fun f hf => hf, fun f hf hout => absurd hf hout⟩
  | some g =>
    refine ⟨⟨_, rfl⟩, fun f hf => List.mem_of_mem_filter hf, ?_⟩
    intro f hf hout
    have hfg : f = g := by
      by_contra hne
      exact hout (List.mem_filter.mpr ⟨hf, by simpa using hne⟩)
    rw [hfg]
    exact List.find?_some hfind

/-- Where only files of the tracer have the tail, its file with the number is gone. -/
theorem removeOldFile_gone {c : RetentionConfiguration} {s : TraceFiles} {listing : List FileName}
    {k : ℤ} (hlisting : listing.Perm s.directory) (hdistinct : Distinct c s.directory)
    (hown : ∀ f ∈ s.directory, hasTail k f = true → Own c f) :
    ∀ f ∈ (s.removeOldFile listing k).directory, ¬ Mine c f k := by
  intro f hf hmine
  have hfs := (removeOldFile_spec s listing k).2.1 f hf
  have htail := (hmine.hasTail_iff hmine.1 hmine.2.1).mpr rfl
  unfold removeOldFile at hf
  cases hfind : listing.find? (hasTail k) with
  | none =>
    have hno := List.find?_eq_none.mp hfind f (hlisting.symm.mem_iff.mp hfs)
    exact hno htail
  | some g =>
    rw [hfind] at hf
    have hgtail := List.find?_some hfind
    have hgs := hlisting.mem_iff.mp (List.mem_of_find?_eq_some hfind)
    obtain ⟨j, hj⟩ := hown g hgs hgtail
    obtain rfl := (hj.hasTail_iff hmine.1 hmine.2.1).mp hgtail
    have hfg : f = g := hdistinct f hfs g hgs _ hmine hj
    have hne := (List.mem_filter.mp hf).2
    rw [hfg] at hne
    exact absurd hne (by simp)

/-- **The retention** leaves the files younger than `M - 1`. -/
theorem retire_window {c : RetentionConfiguration} {s : TraceFiles} {listing : List FileName}
    {n : ℤ} {hasRound : Bool} (hM : 1 ≤ c.lTraceFilesNumberToMaintain)
    (hMmax : c.lTraceFilesNumberToMaintain ≤ maxFileNumber)
    (hwindow : Window c s.directory n hasRound c.lTraceFilesNumberToMaintain)
    (hdistinct : Distinct c s.directory) (hlisting : listing.Perm s.directory)
    (hown : ∀ k ∈ retireNumber c n hasRound, ∀ f ∈ s.directory, hasTail k f = true → Own c f) :
    Window c (s.retire listing n hasRound c.lTraceFilesNumberToMaintain).directory n hasRound
      (c.lTraceFilesNumberToMaintain - 1) := by
  intro f hf k hmine
  rw [retire_eq] at hf
  cases hnumber : retireNumber c n hasRound with
  | none =>
    -- the numbers have not come round, and there are fewer than `M` of them
    rw [hnumber] at hf
    obtain ⟨hage, hle⟩ := hwindow f hf k hmine
    refine ⟨age_lt_of_ne hM hMmax hmine.1 hmine.2.1 hage ?_, hle⟩
    unfold retireNumber at hnumber
    unfold maxFileNumber at hMmax
    unfold retired maxFileNumber
    split at hnumber
    · cases hnumber
    · next hlt =>
      cases hasRound with
      | true => cases hnumber
      | false =>
        have hkn := hle rfl
        rw [if_neg hlt]
        omega
  | some j =>
    rw [hnumber] at hf
    have hgone := removeOldFile_gone hlisting hdistinct (hown j hnumber) f hf
    obtain ⟨hage, hle⟩ := hwindow f ((removeOldFile_spec s listing j).2.1 f hf) k hmine
    refine ⟨age_lt_of_ne hM hMmax hmine.1 hmine.2.1 hage ?_, hle⟩
    intro hretired
    have hj : j = retired maxFileNumber n c.lTraceFilesNumberToMaintain := by
      unfold retireNumber at hnumber
      unfold retired maxFileNumber
      split at hnumber
      · next hge =>
        rw [if_pos hge]
        exact (Option.some.inj hnumber).symm
      · next hlt =>
        rw [if_neg hlt]
        split at hnumber
        · exact (Option.some.inj hnumber).symm
        · cases hnumber
    rw [hretired, ← hj] at hmine
    exact hgone hmine

/-- The retention leaves everything but the directory, from which only files with the tail of
its number go. -/
theorem retire_spec (c : RetentionConfiguration) (s : TraceFiles) (listing : List FileName)
    (n : ℤ) (hasRound : Bool) :
    (∃ directory, s.retire listing n hasRound c.lTraceFilesNumberToMaintain
        = { s with directory := directory })
      ∧ (∀ f ∈ (s.retire listing n hasRound c.lTraceFilesNumberToMaintain).directory,
        f ∈ s.directory)
      ∧ ∀ f ∈ s.directory,
        f ∉ (s.retire listing n hasRound c.lTraceFilesNumberToMaintain).directory →
        ∃ k ∈ retireNumber c n hasRound, hasTail k f = true := by
  rw [retire_eq]
  cases hnumber : retireNumber c n hasRound with
  | none => exact ⟨⟨s.directory, rfl⟩, fun f hf => hf, fun f hf hout => absurd hf hout⟩
  | some k =>
    obtain ⟨hsame, hsub, htail⟩ := removeOldFile_spec s listing k
    exact ⟨hsame, hsub, fun f hf hout => ⟨k, rfl, htail f hf hout⟩⟩

/-! ### Runs -/

/-- What happens in the trace directory.  A process may end without `finish`; other programs
create files, and may remove any. -/
inductive FileAction
  | init (listing : List FileName)
  | openTraceFile (base : FileName)
  | closeTraceFile (listing : List FileName) (outcome : GzipOutcome) (copied : Bool)
  | finish (outcome : GzipOutcome)
  | kill
  | othersCreate (f : FileName)
  | othersRemove (f : FileName)

/-- One action; a listing shows the files of the directory when it is read. -/
def fileStep (c : RetentionConfiguration) (s : TraceFiles) : FileAction → Option TraceFiles
  | .init listing =>
    if s.running = false ∧ listing.Perm s.directory then some (init c s listing) else none
  | .openTraceFile base =>
    if s.running = true ∧ s.fileOpen = false ∧ c.isBase base = true then
      some (s.openTraceFile base)
    else none
  | .closeTraceFile listing outcome copied =>
    if s.running = true ∧ s.fileOpen = true
        ∧ listing.Perm (compress c { s with fileOpen := false } outcome).1.directory then
      some (closeTraceFile c s listing outcome copied)
    else none
  | .finish outcome => if s.running = true then some (finish c s outcome) else none
  | .kill =>
    if s.running = true then some { s with running := false, fileOpen := false } else none
  | .othersCreate f => some (s.create f)
  | .othersRemove f => some (s.remove f)

/-- A directory without files of the tracer, before its first start. -/
def fresh (directory : List FileName) : TraceFiles where
  directory := directory
  info := none
  running := false
  fileOpen := false
  lCurrentTraceFileNumber := -1
  bHasFileNumberRound := false
  bLastTraceFilePathName := []

/-- Only files of the tracer go, and with `M = -1` only one whose compressed form is there. -/
def RemovesOwn (c : RetentionConfiguration) (s s' : TraceFiles) : Prop :=
  ∀ f ∈ s.directory, f ∉ s'.directory → Own c f
    ∧ (c.lTraceFilesNumberToMaintain = -1 → f ++ ".gz".toList ∈ s'.directory)

/-- At most `M` files of the tracer exist. -/
def AtMost (c : RetentionConfiguration) (s : TraceFiles) : Prop :=
  ∀ files : List FileName, files.Nodup → (∀ f ∈ files, f ∈ s.directory ∧ Own c f) →
    (files.length : ℤ) ≤ c.lTraceFilesNumberToMaintain

/-- **What the retention promises** at an action of the tracer. -/
def Retained (c : RetentionConfiguration) (s : TraceFiles) : FileAction → TraceFiles → Prop
  | .openTraceFile _, s' =>
    RemovesOwn c s s' ∧ (c.lTraceFilesNumberToMaintain ≠ -1 → AtMost c s')
  | .othersCreate _, _ => True
  | .othersRemove _, _ => True
  | _, s' => RemovesOwn c s s'

/-- The files that the retention could remove are the tracer's, and with `M = -1` there are
none. -/
def OwnTails (c : RetentionConfiguration) (directory : List FileName) (n : ℤ)
    (hasRound : Bool) : Prop :=
  ∀ k ∈ retireNumber c n hasRound, ∀ f ∈ directory, hasTail k f = true →
    Own c f ∧ c.lTraceFilesNumberToMaintain ≠ -1

/-- The steps that avoid the defects: what the retention could remove belongs to the tracer; a
closed file ends as one file; and its compression and its copy succeed, unless there is nothing
to retire. -/
def KeepsRetention (c : RetentionConfiguration) (s : TraceFiles) : FileAction → TraceFiles → Prop
  | .init _, _ =>
    OwnTails c s.directory s.getCurrentTraceFileNumber.1 s.getCurrentTraceFileNumber.2
  | .closeTraceFile _ outcome copied, _ => c.lTraceFilesNumberToMaintain ≠ -1 →
      OwnTails c (compress c { s with fileOpen := false } outcome).1.directory
        s.lCurrentTraceFileNumber s.bHasFileNumberRound
      ∧ (c.bCompressedTraceFile = true → outcome = .done ∨ outcome = .notCreated)
      ∧ ((c.bCompressedTraceFile = true ∧ outcome = .notCreated)
          ∨ (c.bClosedFileToBeCopied = true ∧ copied = false) →
        retireNumber c s.lCurrentTraceFileNumber s.bHasFileNumberRound = none)
  | .finish outcome, _ => c.lTraceFilesNumberToMaintain ≠ -1 → c.bCompressedTraceFile = true →
      s.fileOpen = true → outcome = .done ∨ outcome = .notCreated
  | _, _ => True

/-- The invariant. -/
structure Retaining (c : RetentionConfiguration) (s : TraceFiles) : Prop where
  nonneg : 0 ≤ s.getCurrentTraceFileNumber.1
  le_max : s.getCurrentTraceFileNumber.1 ≤ maxFileNumber
  opened : s.fileOpen = true →
    s.getCurrentTraceFileNumber = (s.lCurrentTraceFileNumber, s.bHasFileNumberRound)
      ∧ 1 ≤ s.lCurrentTraceFileNumber ∧ ∃ base, c.isBase base = true
        ∧ s.bLastTraceFilePathName = base ++ tailOfTheFile s.lCurrentTraceFileNumber
  current : c.lTraceFilesNumberToMaintain ≠ -1 → s.fileOpen = true → ∀ f ∈ s.directory,
    Mine c f s.lCurrentTraceFileNumber → f = s.bLastTraceFilePathName
  distinct : c.lTraceFilesNumberToMaintain ≠ -1 → Distinct c s.directory
  window : c.lTraceFilesNumberToMaintain ≠ -1 →
    Window c s.directory s.getCurrentTraceFileNumber.1 s.getCurrentTraceFileNumber.2
      c.lTraceFilesNumberToMaintain
  closed : c.lTraceFilesNumberToMaintain ≠ -1 → s.running = true → s.fileOpen = false →
    Window c s.directory s.getCurrentTraceFileNumber.1 s.getCurrentTraceFileNumber.2
      (c.lTraceFilesNumberToMaintain - 1)

theorem fresh_retaining {c : RetentionConfiguration} {directory : List FileName}
    (hfresh : ∀ f ∈ directory, ¬ Own c f) : Retaining c (fresh directory) where
  nonneg := Int.le_refl 0
  le_max := show (0 : ℤ) ≤ 9999 by decide
  opened := fun h => by cases h
  current := fun _ h => by cases h
  distinct := fun _ f hf _ _ k hmine => absurd ⟨k, hmine⟩ (hfresh f hf)
  window := fun _ f hf k hmine => absurd ⟨k, hmine⟩ (hfresh f hf)
  closed := fun _ h => by cases h

/-! ### The steps -/

section

variable {c : RetentionConfiguration} {s : TraceFiles}

theorem getNextTraceFileNumber_fst (s : TraceFiles) :
    s.getNextTraceFileNumber.1 = next maxFileNumber s.getCurrentTraceFileNumber.1 := by
  unfold getNextTraceFileNumber next
  dsimp only
  split
  · rfl
  · rfl

/-- The numbers that have not come round yet go up by one. -/
theorem getNextTraceFileNumber_snd (h : s.getNextTraceFileNumber.2 = false) :
    s.getCurrentTraceFileNumber.2 = false
      ∧ s.getCurrentTraceFileNumber.1 < s.getNextTraceFileNumber.1 := by
  unfold getNextTraceFileNumber at h ⊢
  dsimp only at h ⊢
  split at h
  · cases h
  · next hlt =>
    rw [if_neg hlt]
    exact ⟨h, Int.lt_succ _⟩

theorem next_bounds (hnonneg : 0 ≤ s.getCurrentTraceFileNumber.1) :
    1 ≤ s.getNextTraceFileNumber.1 ∧ s.getNextTraceFileNumber.1 ≤ maxFileNumber := by
  rw [getNextTraceFileNumber_fst]
  unfold next maxFileNumber
  split <;> omega

/-- **A new file** makes the others older by one, and its number is its own. -/
theorem openTraceFile_window {base : FileName} {d : ℤ} (hbase : c.isBase base = true)
    (hpos : 1 ≤ d) (hd : d ≤ maxFileNumber) (hnonneg : 0 ≤ s.getCurrentTraceFileNumber.1)
    (hle : s.getCurrentTraceFileNumber.1 ≤ maxFileNumber)
    (hwindow : Window c s.directory s.getCurrentTraceFileNumber.1 s.getCurrentTraceFileNumber.2
      (d - 1))
    (hdistinct : Distinct c s.directory) :
    Window c (s.openTraceFile base).directory s.getNextTraceFileNumber.1
        s.getNextTraceFileNumber.2 d
      ∧ Distinct c (s.openTraceFile base).directory
      ∧ ∀ f ∈ (s.openTraceFile base).directory, Mine c f s.getNextTraceFileNumber.1 →
        f = base ++ tailOfTheFile s.getNextTraceFileNumber.1 := by
  have hbounds := next_bounds hnonneg
  have hnew : Mine c (base ++ tailOfTheFile s.getNextTraceFileNumber.1)
      s.getNextTraceFileNumber.1 := ⟨hbounds.1, hbounds.2, base, hbase, Or.inl rfl⟩
  have hdirectory : (s.openTraceFile base).directory
      = s.directory.insert (base ++ tailOfTheFile s.getNextTraceFileNumber.1) := rfl
  -- the age of the others
  have holder : ∀ f ∈ s.directory, ∀ k, Mine c f k →
      age maxFileNumber s.getNextTraceFileNumber.1 k
        = age maxFileNumber s.getCurrentTraceFileNumber.1 k + 1 := by
    intro f hf k hmine
    have hage := (hwindow f hf k hmine).1
    rw [getNextTraceFileNumber_fst]
    exact age_next hle hmine.1 hmine.2.1 (by omega)
  have hother : ∀ f ∈ s.directory, ¬ Mine c f s.getNextTraceFileNumber.1 := by
    intro f hf hmine
    have hage := holder f hf _ hmine
    have hage0 := age_nonneg hnonneg hmine.2.1
    rw [age_self] at hage
    omega
  rw [hdirectory]
  refine ⟨?_, ?_, ?_⟩
  · intro f hf k hmine
    rcases List.mem_insert_iff.mp hf with rfl | hf
    · obtain rfl := hmine.unique hnew
      rw [age_self]
      exact ⟨by omega, fun _ => Int.le_refl _⟩
    · obtain ⟨hage, hround⟩ := hwindow f hf k hmine
      rw [holder f hf k hmine]
      refine ⟨by omega, fun hfalse => ?_⟩
      obtain ⟨hcurrent, hlt⟩ := getNextTraceFileNumber_snd hfalse
      exact Int.le_of_lt (Int.lt_of_le_of_lt (hround hcurrent) hlt)
  · intro f hf g hg k hfk hgk
    rcases List.mem_insert_iff.mp hf with rfl | hf
    · rcases List.mem_insert_iff.mp hg with rfl | hg
      · rfl
      · obtain rfl := hfk.unique hnew
        exact absurd hgk (hother g hg)
    · rcases List.mem_insert_iff.mp hg with rfl | hg
      · obtain rfl := hgk.unique hnew
        exact absurd hfk (hother f hf)
      · exact hdistinct f hf g hg k hfk hgk
  · intro f hf hmine
    rcases List.mem_insert_iff.mp hf with rfl | hf
    · rfl
    · exact absurd hmine (hother f hf)

/-- What compressing a closed file changes. -/
theorem compress_spec (c : RetentionConfiguration) (s : TraceFiles) (outcome : GzipOutcome) :
    (compress c s outcome).1.info = s.info
      ∧ (compress c s outcome).1.running = s.running
      ∧ (compress c s outcome).1.fileOpen = s.fileOpen
      ∧ (compress c s outcome).1.lCurrentTraceFileNumber = s.lCurrentTraceFileNumber
      ∧ (compress c s outcome).1.bHasFileNumberRound = s.bHasFileNumberRound := by
  unfold compress
  split
  · cases outcome with
    | done => exact ⟨rfl, rfl, rfl, rfl, rfl⟩
    | sourceKept => exact ⟨rfl, rfl, rfl, rfl, rfl⟩
    | notCreated => exact ⟨rfl, rfl, rfl, rfl, rfl⟩
    | incomplete => exact ⟨rfl, rfl, rfl, rfl, rfl⟩
  · exact ⟨rfl, rfl, rfl, rfl, rfl⟩

/-- Compressing takes out the file itself only, and its compressed form is there then. -/
theorem compress_removes (c : RetentionConfiguration) (s : TraceFiles) (outcome : GzipOutcome)
    {f : FileName} (hf : f ∈ s.directory) (hout : f ∉ (compress c s outcome).1.directory) :
    f = s.bLastTraceFilePathName ∧ f ++ ".gz".toList ∈ (compress c s outcome).1.directory := by
  unfold compress at hout ⊢
  split at hout
  · next hcompressed =>
    rw [if_pos hcompressed]
    have hkept : f ∈ s.directory.insert (s.bLastTraceFilePathName ++ ".gz".toList) :=
      List.mem_insert_of_mem hf
    cases outcome with
    | done =>
      have hlast : f = s.bLastTraceFilePathName := by
        by_contra hne
        exact hout (List.mem_filter.mpr ⟨hkept, by simpa using hne⟩)
      refine ⟨hlast, List.mem_filter.mpr ⟨?_, ?_⟩⟩
      · rw [hlast]
        exact List.mem_insert_self
      · have hne : f ++ ".gz".toList ≠ s.bLastTraceFilePathName := by
          rw [hlast]
          intro h
          have hlen := congrArg List.length h
          rw [List.length_append] at hlen
          exact absurd hlen (Nat.ne_of_gt (Nat.lt_add_of_pos_right (by decide)))
        simpa using hne
    | sourceKept => exact absurd hkept hout
    | notCreated => exact absurd hf hout
    | incomplete => exact absurd hkept hout
  · exact absurd hf hout

/-- **A compressed file** takes the place of the closed one. -/
theorem compress_window {base : FileName} {outcome : GzipOutcome} {hasRound : Bool} {d : ℤ}
    (hbase : c.isBase base = true) (hpos : 1 ≤ s.lCurrentTraceFileNumber)
    (hmax : s.lCurrentTraceFileNumber ≤ maxFileNumber)
    (hlast : s.bLastTraceFilePathName = base ++ tailOfTheFile s.lCurrentTraceFileNumber)
    (hcurrent : ∀ f ∈ s.directory, Mine c f s.lCurrentTraceFileNumber →
      f = s.bLastTraceFilePathName)
    (houtcome : c.bCompressedTraceFile = true → outcome = .done ∨ outcome = .notCreated)
    (hd : 1 ≤ d) (hwindow : Window c s.directory s.lCurrentTraceFileNumber hasRound d)
    (hdistinct : Distinct c s.directory) :
    Window c (compress c s outcome).1.directory s.lCurrentTraceFileNumber hasRound d
      ∧ Distinct c (compress c s outcome).1.directory := by
  unfold compress
  split
  · next hcompressed =>
    rcases houtcome hcompressed with rfl | rfl
    · have hgzip : Mine c (s.bLastTraceFilePathName ++ ".gz".toList) s.lCurrentTraceFileNumber := by
        refine ⟨hpos, hmax, base, hbase, Or.inr ?_⟩
        rw [hlast, tailOfTheFileGZIP, List.append_assoc]
      -- what is in the directory now
      have hmem : ∀ f ∈ (s.gzipAndDeleteCurrentTraceFile .done).1.directory,
          f = s.bLastTraceFilePathName ++ ".gz".toList
            ∨ f ∈ s.directory ∧ ¬ Mine c f s.lCurrentTraceFileNumber := by
        intro f hf
        obtain ⟨hinsert, hne⟩ := List.mem_filter.mp hf
        rcases List.mem_insert_iff.mp hinsert with rfl | hdir
        · exact Or.inl rfl
        · refine Or.inr ⟨hdir, fun hmine => ?_⟩
          have hflast := hcurrent f hdir hmine
          rw [hflast] at hne
          exact absurd hne (by simp)
      constructor
      · intro f hf k hmine
        rcases hmem f hf with rfl | ⟨hdir, -⟩
        · obtain rfl := hmine.unique hgzip
          rw [age_self]
          exact ⟨by omega, fun _ => Int.le_refl _⟩
        · exact hwindow f hdir k hmine
      · intro f hf g hg k hfk hgk
        rcases hmem f hf with rfl | ⟨hfdir, hfnot⟩
        · rcases hmem g hg with rfl | ⟨-, hgnot⟩
          · rfl
          · obtain rfl := hfk.unique hgzip
            exact absurd hgk hgnot
        · rcases hmem g hg with rfl | ⟨hgdir, -⟩
          · obtain rfl := hgk.unique hgzip
            exact absurd hfk hfnot
          · exact hdistinct f hfdir g hgdir k hfk hgk
    · exact ⟨hwindow, hdistinct⟩
  · exact ⟨hwindow, hdistinct⟩

/-- The open file belongs to the tracer. -/
theorem Retaining.own_last (h : Retaining c s) (hopen : s.fileOpen = true) :
    Own c s.bLastTraceFilePathName := by
  obtain ⟨hnumber, hpos, base, hbase, hlast⟩ := h.opened hopen
  have hmax := h.le_max
  rw [hnumber] at hmax
  exact ⟨_, hpos, hmax, base, hbase, Or.inl hlast⟩

/-- Where the retention finds files of the tracer only, it removes nothing else. -/
theorem OwnTails.removesOwn {n : ℤ} {hasRound : Bool} {listing : List FileName}
    (h : OwnTails c s.directory n hasRound) :
    RemovesOwn c s (s.retire listing n hasRound c.lTraceFilesNumberToMaintain) := by
  intro f hf hout
  obtain ⟨k, hk, htail⟩ := (retire_spec c s listing n hasRound).2.2 f hf hout
  obtain ⟨hown, hM⟩ := h k hk f hf htail
  exact ⟨hown, fun h => absurd h hM⟩

end

section

variable {c : RetentionConfiguration} {s s' : TraceFiles}

/-- The values of `M` that the tracer documents. -/
def Documented (c : RetentionConfiguration) : Prop :=
  c.lTraceFilesNumberToMaintain = -1
    ∨ 1 ≤ c.lTraceFilesNumberToMaintain ∧ c.lTraceFilesNumberToMaintain ≤ maxFileNumber

theorem Documented.bounds (hM : Documented c) (hne : c.lTraceFilesNumberToMaintain ≠ -1) :
    1 ≤ c.lTraceFilesNumberToMaintain ∧ c.lTraceFilesNumberToMaintain ≤ maxFileNumber :=
  hM.resolve_left hne

/-- The start-up. -/
theorem init_retaining {listing : List FileName} (hM : Documented c) (h : Retaining c s)
    (hlisting : listing.Perm s.directory)
    (hown : OwnTails c s.directory s.getCurrentTraceFileNumber.1 s.getCurrentTraceFileNumber.2) :
    Retaining c (init c s listing) ∧ RemovesOwn c s (init c s listing) := by
  -- the numbers are in the file, and the retention changes the directory only
  obtain ⟨⟨directory, hretire⟩, hsub, -⟩ := retire_spec c
    { s with info := some s.getCurrentTraceFileNumber } listing s.getCurrentTraceFileNumber.1
    s.getCurrentTraceFileNumber.2
  have hremoves : RemovesOwn c s (init c s listing) :=
    OwnTails.removesOwn (s := { s with info := some s.getCurrentTraceFileNumber }) hown
  have hnumber : (init c s listing).getCurrentTraceFileNumber = s.getCurrentTraceFileNumber := by
    unfold init
    dsimp only
    rw [hretire]
    rfl
  refine ⟨⟨?_, ?_, ?_, ?_, ?_, ?_, ?_⟩, hremoves⟩
  · rw [hnumber]; exact h.nonneg
  · rw [hnumber]; exact h.le_max
  · exact fun hopen => by cases hopen
  · exact fun _ hopen => by cases hopen
  · exact fun hne => (h.distinct hne).subset hsub
  · rw [hnumber]
    exact fun hne => (h.window hne).subset hsub
  · intro hne _ _
    obtain ⟨hpos, hmax⟩ := hM.bounds hne
    rw [hnumber]
    exact retire_window (s := { s with info := some s.getCurrentTraceFileNumber }) hpos hmax
      (h.window hne) (h.distinct hne) hlisting (fun k hk f hf ht => (hown k hk f hf ht).1)

/-- A new trace file. -/
theorem openTraceFile_retaining {base : FileName} (hM : Documented c) (h : Retaining c s)
    (hrunning : s.running = true) (hclosed : s.fileOpen = false) (hbase : c.isBase base = true) :
    Retaining c (s.openTraceFile base)
      ∧ (c.lTraceFilesNumberToMaintain ≠ -1 → AtMost c (s.openTraceFile base)) := by
  have hbounds := next_bounds h.nonneg
  have hnonneg : 0 ≤ s.getNextTraceFileNumber.1 := Int.le_trans (by decide) hbounds.1
  have hwindow : c.lTraceFilesNumberToMaintain ≠ -1 →
      Window c (s.openTraceFile base).directory s.getNextTraceFileNumber.1
          s.getNextTraceFileNumber.2 c.lTraceFilesNumberToMaintain
        ∧ Distinct c (s.openTraceFile base).directory
        ∧ ∀ f ∈ (s.openTraceFile base).directory, Mine c f s.getNextTraceFileNumber.1 →
          f = base ++ tailOfTheFile s.getNextTraceFileNumber.1 := by
    intro hne
    obtain ⟨hpos, hmax⟩ := hM.bounds hne
    exact openTraceFile_window hbase hpos hmax h.nonneg h.le_max (h.closed hne hrunning hclosed)
      (h.distinct hne)
  refine ⟨⟨hnonneg, hbounds.2, ?_, ?_, ?_, ?_, ?_⟩, ?_⟩
  · exact fun _ => ⟨rfl, hbounds.1, base, hbase, rfl⟩
  · exact fun hne _ => (hwindow hne).2.2
  · exact fun hne => (hwindow hne).2.1
  · exact fun hne => (hwindow hne).1
  · exact fun _ _ hopen => by cases hopen
  · intro hne files hfiles hown
    obtain ⟨hpos, -⟩ := hM.bounds hne
    exact (hwindow hne).1.length_le (hwindow hne).2.1 hnonneg (Int.le_trans (by decide) hpos)
      hfiles hown

/-- A closed file, compressed. -/
theorem compress_retaining {outcome : GzipOutcome} (hM : Documented c) (h : Retaining c s)
    (hopen : s.fileOpen = true) (hne : c.lTraceFilesNumberToMaintain ≠ -1)
    (houtcome : c.bCompressedTraceFile = true → outcome = .done ∨ outcome = .notCreated) :
    Window c (compress c { s with fileOpen := false } outcome).1.directory
        s.lCurrentTraceFileNumber s.bHasFileNumberRound c.lTraceFilesNumberToMaintain
      ∧ Distinct c (compress c { s with fileOpen := false } outcome).1.directory := by
  obtain ⟨hnumber, hpos, base, hbase, hlast⟩ := h.opened hopen
  have hmax := h.le_max
  have hwindow := h.window hne
  rw [hnumber] at hmax hwindow
  exact compress_window (s := { s with fileOpen := false }) hbase hpos hmax hlast
    (h.current hne hopen) houtcome (hM.bounds hne).1 hwindow (h.distinct hne)

/-- Compressing fails without a complete compressed file only. -/
theorem compress_failed {outcome : GzipOutcome} (h : (compress c s outcome).2 = false) :
    c.bCompressedTraceFile = true ∧ (outcome = .notCreated ∨ outcome = .incomplete) := by
  unfold compress at h
  split at h
  · next hcompressed =>
    refine ⟨hcompressed, ?_⟩
    cases outcome with
    | done => cases h
    | sourceKept => cases h
    | notCreated => exact Or.inl rfl
    | incomplete => exact Or.inr rfl
  · cases h

/-- A close that keeps the retention compresses the file and then retires an old one. -/
theorem closeTraceFile_eq {listing : List FileName} {outcome : GzipOutcome} {copied : Bool}
    (hkeep : KeepsRetention c s (.closeTraceFile listing outcome copied) s') :
    closeTraceFile c s listing outcome copied
      = if c.lTraceFilesNumberToMaintain = -1 then
          (compress c { s with fileOpen := false } outcome).1
        else (compress c { s with fileOpen := false } outcome).1.retire listing
          s.lCurrentTraceFileNumber s.bHasFileNumberRound c.lTraceFilesNumberToMaintain := by
  obtain ⟨-, -, -, hnumber, hround⟩ := compress_spec c { s with fileOpen := false } outcome
  have hfailed : (compress c { s with fileOpen := false } outcome).2 = false →
      c.bCompressedTraceFile = true ∧ (outcome = .notCreated ∨ outcome = .incomplete) :=
    compress_failed
  unfold closeTraceFile
  rcases hcompress : compress c { s with fileOpen := false } outcome with ⟨s₁, ok⟩
  rw [hcompress] at hnumber hround hfailed
  by_cases hM : c.lTraceFilesNumberToMaintain = -1
  · rw [if_pos hM]
    cases ok with
    | false => rfl
    | true =>
      dsimp only
      split
      · rfl
      · rw [if_neg (not_not.mpr hM)]
  · obtain ⟨-, houtcome, hnone⟩ := hkeep hM
    have hskip : retireNumber c s.lCurrentTraceFileNumber s.bHasFileNumberRound = none →
        s₁.retire listing s.lCurrentTraceFileNumber s.bHasFileNumberRound
          c.lTraceFilesNumberToMaintain = s₁ := by
      intro h
      rw [retire_eq, h]
    rw [if_neg hM]
    cases ok with
    | false =>
      obtain ⟨hcompressed, hout⟩ := hfailed rfl
      have hcreated : outcome = .notCreated := by
        rcases hout with hout | rfl
        · exact hout
        · rcases houtcome hcompressed with h | h <;> cases h
      exact (hskip (hnone (Or.inl ⟨hcompressed, hcreated⟩))).symm
    | true =>
      dsimp only
      split
      · next hcopy => exact (hskip (hnone (Or.inr hcopy))).symm
      · exact congrArg₂ (fun n r => s₁.retire listing n r c.lTraceFilesNumberToMaintain) hnumber
          hround

/-- The end of a trace file. -/
theorem closeTraceFile_retaining {listing : List FileName} {outcome : GzipOutcome}
    {copied : Bool} (hM : Documented c) (h : Retaining c s) (hopen : s.fileOpen = true)
    (hlisting : listing.Perm (compress c { s with fileOpen := false } outcome).1.directory)
    (hkeep : KeepsRetention c s (.closeTraceFile listing outcome copied) s') :
    Retaining c (closeTraceFile c s listing outcome copied)
      ∧ RemovesOwn c s (closeTraceFile c s listing outcome copied) := by
  obtain ⟨hinfo, hrunning, hclosed, -, -⟩ := compress_spec c { s with fileOpen := false } outcome
  obtain ⟨hnumber, -⟩ := h.opened hopen
  have hnonneg := h.nonneg
  have hmax := h.le_max
  rw [hnumber] at hnonneg hmax
  rw [closeTraceFile_eq hkeep]
  generalize hs₁ : (compress c { s with fileOpen := false } outcome).1 = s₁ at *
  have hremoved : ∀ f ∈ s.directory, f ∉ s₁.directory →
      Own c f ∧ f ++ ".gz".toList ∈ s₁.directory := by
    intro f hf hout
    rw [← hs₁] at hout ⊢
    obtain ⟨rfl, hgzip⟩ := compress_removes c { s with fileOpen := false } outcome hf hout
    exact ⟨h.own_last hopen, hgzip⟩
  split
  · next hminus =>
    have hnumber₁ : s₁.getCurrentTraceFileNumber
        = (s.lCurrentTraceFileNumber, s.bHasFileNumberRound) := by
      rw [← hnumber]
      unfold getCurrentTraceFileNumber
      rw [hinfo]
    refine ⟨⟨?_, ?_, ?_, ?_, ?_, ?_, ?_⟩, ?_⟩
    · rw [hnumber₁]; exact hnonneg
    · rw [hnumber₁]; exact hmax
    · exact fun hopened => by rw [hclosed] at hopened; cases hopened
    · exact fun hne => absurd hminus hne
    · exact fun hne => absurd hminus hne
    · exact fun hne => absurd hminus hne
    · exact fun hne => absurd hminus hne
    · exact fun f hf hout => ⟨(hremoved f hf hout).1, fun _ => (hremoved f hf hout).2⟩
  · next hne =>
    obtain ⟨htails, houtcome, -⟩ := hkeep hne
    rw [hs₁] at htails
    obtain ⟨hpos, hMmax⟩ := hM.bounds hne
    obtain ⟨hwindow, hdistinct⟩ := compress_retaining hM h hopen hne houtcome
    rw [hs₁] at hwindow hdistinct
    obtain ⟨⟨directory, hretire⟩, hsub, -⟩ := retire_spec c s₁ listing s.lCurrentTraceFileNumber
      s.bHasFileNumberRound
    have hyounger := retire_window hpos hMmax hwindow hdistinct hlisting
      (fun k hk f hf ht => (htails k hk f hf ht).1)
    have hremoves : RemovesOwn c s₁ (s₁.retire listing s.lCurrentTraceFileNumber
        s.bHasFileNumberRound c.lTraceFilesNumberToMaintain) := htails.removesOwn
    generalize s₁.retire listing s.lCurrentTraceFileNumber s.bHasFileNumberRound
      c.lTraceFilesNumberToMaintain = s₂ at *
    have hnumber₂ : s₂.getCurrentTraceFileNumber
        = (s.lCurrentTraceFileNumber, s.bHasFileNumberRound) := by
      rw [← hnumber, hretire]
      unfold getCurrentTraceFileNumber
      rw [hinfo]
    refine ⟨⟨?_, ?_, ?_, ?_, ?_, ?_, ?_⟩, ?_⟩
    · rw [hnumber₂]; exact hnonneg
    · rw [hnumber₂]; exact hmax
    · exact fun hopened => by rw [hretire, hclosed] at hopened; cases hopened
    · exact fun _ hopened => by rw [hretire, hclosed] at hopened; cases hopened
    · exact fun _ => hdistinct.subset hsub
    · rw [hnumber₂]
      exact fun _ => hwindow.subset hsub
    · rw [hnumber₂]
      exact fun _ _ _ => hyounger
    · intro f hf hout
      refine ⟨?_, fun h => absurd h hne⟩
      by_cases hf₁ : f ∈ s₁.directory
      · exact (hremoves f hf₁ hout).1
      · exact (hremoved f hf hf₁).1

/-- The end of the process through `finish`. -/
theorem finish_retaining {outcome : GzipOutcome} (hM : Documented c) (h : Retaining c s)
    (hkeep : KeepsRetention c s (.finish outcome) s') :
    Retaining c (finish c s outcome) ∧ RemovesOwn c s (finish c s outcome) := by
  unfold finish
  split
  · next hopen =>
    obtain ⟨hinfo, -, hclosed, -, -⟩ := compress_spec c { s with fileOpen := false } outcome
    obtain ⟨hnumber, -⟩ := h.opened hopen
    have hsame : getCurrentTraceFileNumber
        { (compress c { s with fileOpen := false } outcome).1 with running := false }
        = s.getCurrentTraceFileNumber := by
      unfold getCurrentTraceFileNumber
      rw [hinfo]
    refine ⟨⟨?_, ?_, ?_, ?_, ?_, ?_, ?_⟩, ?_⟩
    · rw [hsame]; exact h.nonneg
    · rw [hsame]; exact h.le_max
    · exact fun hopened => by rw [hclosed] at hopened; cases hopened
    · exact fun _ hopened => by rw [hclosed] at hopened; cases hopened
    · exact fun hne => (compress_retaining hM h hopen hne (fun hc => hkeep hne hc hopen)).2
    · rw [hsame, hnumber]
      exact fun hne => (compress_retaining hM h hopen hne (fun hc => hkeep hne hc hopen)).1
    · exact fun _ hrunning => by cases hrunning
    · intro f hf hout
      obtain ⟨rfl, hgzip⟩ := compress_removes c { s with fileOpen := false } outcome hf hout
      exact ⟨h.own_last hopen, fun _ => hgzip⟩
  · exact ⟨⟨h.nonneg, h.le_max, h.opened, h.current, h.distinct, h.window,
      fun _ hrunning => by cases hrunning⟩, fun f hf hout => absurd hf hout⟩

/-- A file of somebody else. -/
theorem create_retaining {f : FileName} (h : Retaining c s) (hf : ¬ Own c f) :
    Retaining c (s.create f) where
  nonneg := h.nonneg
  le_max := h.le_max
  opened := h.opened
  current := by
    intro hne hopen g hg hmine
    rcases List.mem_insert_iff.mp hg with rfl | hg
    · exact absurd ⟨_, hmine⟩ hf
    · exact h.current hne hopen g hg hmine
  distinct := fun hne => (h.distinct hne).insert hf
  window := fun hne => (h.window hne).insert hf
  closed := fun hne hrunning hclosed => (h.closed hne hrunning hclosed).insert hf

/-- A file that somebody removes. -/
theorem remove_retaining (h : Retaining c s) (f : FileName) : Retaining c (s.remove f) := by
  have hsub : ∀ g ∈ (s.remove f).directory, g ∈ s.directory :=
    fun g hg => List.mem_of_mem_filter hg
  exact {
    nonneg := h.nonneg
    le_max := h.le_max
    opened := h.opened
    current := fun hne hopen g hg => h.current hne hopen g (hsub g hg)
    distinct := fun hne => (h.distinct hne).subset hsub
    window := fun hne => (h.window hne).subset hsub
    closed := fun hne hrunning hclosed => (h.closed hne hrunning hclosed).subset hsub }

/-- **One action** that avoids the defects keeps the retention. -/
theorem fileStep_retaining {a : FileAction} (hM : Documented c)
    (hothers : ∀ f, a = .othersCreate f → ¬ Own c f) (h : Retaining c s)
    (hkeep : KeepsRetention c s a s') (hstep : fileStep c s a = some s') :
    Retaining c s' ∧ Retained c s a s' := by
  cases a with
  | init listing =>
    obtain ⟨⟨-, hlisting⟩, heq⟩ := Option.ite_none_right_eq_some.mp hstep
    obtain rfl := Option.some.inj heq
    exact init_retaining hM h hlisting hkeep
  | openTraceFile base =>
    obtain ⟨⟨hrunning, hclosed, hbase⟩, heq⟩ := Option.ite_none_right_eq_some.mp hstep
    obtain rfl := Option.some.inj heq
    obtain ⟨hretaining, hmost⟩ := openTraceFile_retaining hM h hrunning hclosed hbase
    refine ⟨hretaining, ?_, hmost⟩
    exact fun f hf hout => absurd (List.mem_insert_of_mem hf) hout
  | closeTraceFile listing outcome copied =>
    obtain ⟨⟨-, hopen, hlisting⟩, heq⟩ := Option.ite_none_right_eq_some.mp hstep
    obtain rfl := Option.some.inj heq
    exact closeTraceFile_retaining hM h hopen hlisting hkeep
  | finish outcome =>
    obtain ⟨-, heq⟩ := Option.ite_none_right_eq_some.mp hstep
    obtain rfl := Option.some.inj heq
    exact finish_retaining hM h hkeep
  | kill =>
    obtain ⟨-, heq⟩ := Option.ite_none_right_eq_some.mp hstep
    obtain rfl := Option.some.inj heq
    refine ⟨⟨h.nonneg, h.le_max, ?_, ?_, h.distinct, h.window, ?_⟩, ?_⟩
    · exact fun hopen => by cases hopen
    · exact fun _ hopen => by cases hopen
    · exact fun _ hrunning => by cases hrunning
    · exact fun f hf hout => absurd hf hout
  | othersCreate f =>
    obtain rfl := Option.some.inj hstep
    exact ⟨create_retaining h (hothers f rfl), trivial⟩
  | othersRemove f =>
    obtain rfl := Option.some.inj hstep
    exact ⟨remove_retaining h f, trivial⟩

end

/-- **The retention over a run**, with any number of switches, ends and restarts of the process,
from a directory without files of the tracer. -/
theorem retained_run {c : RetentionConfiguration} {directory : List FileName}
    {as : List FileAction} (hM : Documented c) (hfresh : ∀ f ∈ directory, ¬ Own c f)
    (hothers : ∀ f, .othersCreate f ∈ as → ¬ Own c f)
    (hkeep : Always (fileStep c) (KeepsRetention c) (fresh directory) as) :
    Always (fileStep c) (Retained c) (fresh directory) as := by
  have hnames : Always (fileStep c) (fun _ a _ => ∀ f, a = .othersCreate f → ¬ Own c f)
      (fresh directory) as := by
    apply always_of_actions
    rintro a ha - - f rfl
    exact hothers f ha
  have hstep : ∀ s a s', Retaining c s →
      ((∀ f, a = .othersCreate f → ¬ Own c f) ∧ KeepsRetention c s a s') →
      fileStep c s a = some s' → Retaining c s' ∧ Retained c s a s' :=
    fun s a s' h hmeets hstep => fileStep_retaining hM hmeets.1 h hmeets.2 hstep
  exact always_of_invariant hstep (fresh_retaining hfresh) (hnames.and hkeep)

/-- A tracer `t` that maintains one file. -/
def oneFile : RetentionConfiguration where
  lTraceFilesNumberToMaintain := 1
  bCompressedTraceFile := false
  bClosedFileToBeCopied := false
  isBase := fun base => base = ['t']

/-- The first file of the tracer `t`, and that of a tracer `u`. -/
def firstFile : FileName := "t_0001_.trace".toList

def otherFile : FileName := "u_0001_.trace".toList

theorem own_firstFile : Own oneFile firstFile :=
  ⟨1, by decide, by decide, ['t'], rfl, Or.inl rfl⟩

theorem not_own_otherFile : ¬ Own oneFile otherFile := by
  rintro ⟨k, -, -, base, hbase, hname⟩
  obtain rfl : base = ['t'] := of_decide_eq_true hbase
  rcases hname with h | h
  · exact absurd (List.cons.inj h).1 (by decide)
  · exact absurd (List.cons.inj h).1 (by decide)

/-- The tracer started in a directory, with its first file open. -/
def withFirstFile (directory : List FileName) : TraceFiles :=
  openTraceFile (init oneFile (fresh directory) directory) ['t']

theorem fileStep_init (directory : List FileName) :
    fileStep oneFile (fresh directory) (.init directory)
      = some (init oneFile (fresh directory) directory) :=
  if_pos ⟨rfl, List.Perm.refl _⟩

theorem fileStep_openTraceFile (directory : List FileName) :
    fileStep oneFile (init oneFile (fresh directory) directory) (.openTraceFile ['t'])
      = some (withFirstFile directory) := by
  unfold fileStep
  exact if_pos ⟨rfl, rfl, rfl⟩

theorem fileStep_closeTraceFile {c : RetentionConfiguration} {s : TraceFiles}
    {listing : List FileName} {outcome : GzipOutcome} {copied : Bool} (hrunning : s.running = true)
    (hopen : s.fileOpen = true)
    (hlisting : listing.Perm (compress c { s with fileOpen := false } outcome).1.directory) :
    fileStep c s (.closeTraceFile listing outcome copied)
      = some (closeTraceFile c s listing outcome copied) :=
  if_pos ⟨hrunning, hopen, hlisting⟩

theorem retained_run_oneFile :
    Always (fileStep oneFile) (Retained oneFile) (fresh [])
      [.init [], .openTraceFile ['t'], .closeTraceFile [firstFile] .done true,
        .openTraceFile ['t']] := by
  refine retained_run (Or.inr (by decide)) (fun f hf => absurd hf List.not_mem_nil) ?_ ?_
  · intro f hf
    simp at hf
  · have hclose : fileStep oneFile (withFirstFile []) (.closeTraceFile [firstFile] .done true)
        = some (closeTraceFile oneFile (withFirstFile []) [firstFile] .done true) :=
      fileStep_closeTraceFile rfl rfl (by decide)
    refine Always.cons (fileStep_init []) ?_ (Always.cons (fileStep_openTraceFile []) trivial
      (Always.cons hclose ?_ ?_))
    · intro k hk
      cases hk
    · intro hne
      refine ⟨?_, ?_, ?_⟩
      · intro k hk f hf htail
        obtain rfl : f = firstFile := List.mem_singleton.mp hf
        exact ⟨own_firstFile, hne⟩
      · exact fun h => absurd h (by decide)
      · rintro (⟨h, -⟩ | ⟨h, -⟩)
        · exact absurd h (by decide)
        · exact absurd h (by decide)
    · exact fun s' _ => ⟨trivial, trivial⟩

/-- The file of another tracer that has the number to remove, and comes first in the directory,
is removed. -/
theorem not_retained_of_otherFile :
    ¬ Always (fileStep oneFile) (Retained oneFile) (fresh [otherFile])
      [.init [otherFile], .openTraceFile ['t'],
        .closeTraceFile [otherFile, firstFile] .done true] := by
  intro h
  have hopened := (h _ (fileStep_init [otherFile])).2
  have hclose := (hopened _ (fileStep_openTraceFile [otherFile])).2
  have hremoves := (hclose _ (fileStep_closeTraceFile rfl rfl (by decide))).1
  exact not_own_otherFile (hremoves otherFile (by decide) (by decide)).1

end TraceFiles

end CatraLibraries
