/-
# What a move keeps

`FileIO::moveFile` with any step failing.  A move is a copy and a removal between the making and the
removal of the lock file `<source>.lck`.  Besides what a copy needs, there must be no entry of the
name of the lock file, as it goes with the lock, and the destination must not lead to the source's own
name or to the lock file.
-/
import CatraLibraries.FileIO.CopySafety
import CatraLibraries.FileIO.RemoveDirectory

namespace CatraLibraries

open Posix Effects
open Paths (Name components Stays components_append)

namespace FileIO

variable {sys : System} {fs fs' fs₁ fs₂ : FileSystem} {faults : Faults} {src dest name lock : List UInt8}
  {sp p q lp : Place} {f g : ℕ}

/-! ### What a copy does to the file system -/

/-- A copy writes to the file that was opened, and where it fails it may remove the name. -/
theorem copyOpened_after (faults : Faults) (f : ℕ) (hp : resolve sys fs .noFollow name = .ok p) {ulSize : ℕ} (hsize : 0 < ulSize)
    (hempty : fs.content g = []) :
    ∃ bytes, (f = g → bytes = []) ∧
      (after (copyOpened sys faults name f g ulSize fs) = fs.write g bytes ∨
        error? (copyOpened sys faults name f g ulSize fs) ≠ none ∧
          after (copyOpened sys faults name f g ulSize fs) = (fs.write g bytes).erase p) := by
  by_cases hne : f = g
  · subst hne
    have hsame : fs.write f [] = fs := by
      rw [← hempty, FileSystem.write_content]
    refine ⟨[], fun _ => rfl, ?_⟩
    rw [hsame]
    rcases copyOpened_self sys faults name ulSize hempty with
      ⟨-, -, hafter⟩ | ⟨-, hafter, hfailed⟩
    · exact Or.inl hafter
    · rcases after_removeOr faults.removeDest hp with h | h
      · exact Or.inr ⟨Option.isSome_iff_ne_none.mp hfailed, hafter.trans h⟩
      · exact Or.inl (hafter.trans h)
  · rcases copyOpened_spec faults hne hsize hp with h | ⟨e, bytes, h | h⟩
    · exact ⟨_, fun hf => absurd hf hne, Or.inl (by rw [h]; rfl)⟩
    · exact ⟨bytes, fun hf => absurd hf hne, Or.inl (by rw [h]; rfl)⟩
    · exact ⟨bytes, fun hf => absurd hf hne, Or.inr ⟨by rw [h]; nofun, by rw [h]; rfl⟩⟩

/-- What a copy needs to keep the source: a destination that is another file, or another name of a
file without bytes. -/
def OtherName (sys : System) (faults : Faults) (fs : FileSystem) (src dest : List UInt8) (sp : Place) :
    Prop :=
  ∀ name f, faults.openSrc = none → faults.openDest = none → copyDestination sys fs src dest = .ok name →
    openRead sys fs src = .ok f → openRead sys fs name = .ok f →
    fs.content f = [] ∧ resolve sys fs .noFollow name ≠ .ok sp ∧ resolve sys fs .follow name ≠ .ok sp

theorem OtherName.copySafe (h : OtherName sys faults fs src dest sp) :
    CopySafe sys faults fs src dest sp := by
  intro name f hsrc hdest hname hread hread'
  obtain ⟨hcontent, hp, -⟩ := h name f hsrc hdest hname hread hread'
  exact ⟨hcontent, fun hsame => absurd hsame hp⟩

/-- A copy leaves the source where it is, and makes no directory and no link; one that ends well
removes none. -/
structure Kept (sys : System) (fs fs' : FileSystem) (src : List UInt8) (sp : Place) (f : ℕ)
    (failed : Prop) : Prop where
  source : Source sys fs' src sp f
  content : fs'.content f = fs.content f
  paths : ∀ path q, resolve sys fs .noFollow path = .ok q → resolve sys fs' .noFollow path = .ok q
  made : ∀ q e, e.Leads → fs'.entry q = some e → fs.entry q = some e
  ways : ¬failed → SameWays fs' fs

theorem copyFile_kept (hs : fs.Sound sys) (h : Source sys fs src sp f)
    (hother : OtherName sys faults fs src dest sp) (ulBufferSizeToBeUsed : ℕ) :
    Kept sys fs (after (copyFile sys faults src dest ulBufferSizeToBeUsed fs)) src sp f
      (error? (copyFile sys faults src dest ulBufferSizeToBeUsed fs) ≠ none) := by
  rcases copyFile_cases faults dest h ulBufferSizeToBeUsed with
    ⟨e, hrun, -⟩ | ⟨name, g, fs₁, ulSize, hopenSrc, hopenDest, hname, hwrite, hpos, hrun⟩
  · rw [hrun]
    exact ⟨h, rfl, fun _ _ hpath => hpath, fun _ _ _ he => he, fun _ => SameWays.refl fs⟩
  · obtain ⟨q, hq, hopened, hg⟩ := opened_of_openWrite hs hwrite
    obtain ⟨p, hp⟩ := exists_noFollow hq
    have hnot : fs.entry q ≠ some .directory := by
      rcases hg with ⟨h, -⟩ | ⟨h, -⟩
      · rw [h]
        nofun
      · rw [h]
        nofun
    have hsame : f = g → fs.content f = [] ∧ sp ≠ p := by
      rintro rfl
      have hread : openRead sys fs name = .ok f := by
        rcases hg with ⟨hg, -⟩ | ⟨-, hg⟩
        · exact openRead_eq_ok.mpr ⟨q, hq, hg⟩
        · exact absurd rfl (hg sp f h.entry)
      obtain ⟨hcontent, hsp, -⟩ := hother name f hopenSrc hopenDest hname h.openRead hread
      refine ⟨hcontent, ?_⟩
      rintro rfl
      exact hsp hp
    have hsp : sp ≠ p := by
      by_cases hfg : f = g
      · exact (hsame hfg).2
      · rintro rfl
        have hfollow := resolve_follow_of_noFollow hp fun target ht => by rw [h.entry] at ht; cases ht
        rw [hq] at hfollow
        cases hfollow
        rcases hg with ⟨hg, -⟩ | ⟨hg, -⟩
        · rw [h.entry] at hg
          cases hg
          exact hfg rfl
        · rw [h.entry] at hg
          cases hg
    obtain ⟨bytes, hbytes, hafter⟩ := copyOpened_after faults f
      (resolve_sameWays hopened.ways hp) hpos hopened.empty
    have hways : SameWays (fs₁.write g bytes) fs := (sameWays_write _ g bytes).trans hopened.ways
    have hentry : (fs₁.write g bytes).entry sp = some (.regular f) := hopened.old sp _ h.entry
    have hcontent : (fs₁.write g bytes).content f = fs.content f := by
      by_cases hfg : f = g
      · subst hfg
        rw [FileSystem.content_write_self, hbytes rfl, (hsame rfl).1]
      · rw [FileSystem.content_write_of_ne _ hfg, hopened.content f hfg]
    rw [hrun]
    rcases hafter with hafter | ⟨hfailed, hafter⟩
    · rw [hafter]
      exact ⟨⟨resolve_sameWays hways h.path, hentry⟩, hcontent, fun _ _ => resolve_sameWays hways,
        fun q' e he => (hways q' e he).mp, fun _ => hways⟩
    · rw [hafter]
      have hpaths : ∀ path q, resolve sys fs .noFollow path = .ok q →
          resolve sys ((fs₁.write g bytes).erase p) .noFollow path = .ok q :=
        fun path q' hq' => resolve_sameWays (hways.erase p) (resolve_erase hs hp hq hnot hq')
      refine ⟨⟨hpaths _ _ h.path, ?_⟩, hcontent, hpaths, fun q' e he hq' => ?_,
        fun h => absurd hfailed h⟩
      · rw [FileSystem.entry_erase_of_ne _ hsp]
        exact hentry
      · by_cases hqp : q' = p
        · rw [hqp, FileSystem.entry_erase_self] at hq'
          cases hq'
        · rw [FileSystem.entry_erase_of_ne _ hqp] at hq'
          exact (hways q' e he).mp hq'

/-! ### The lock file -/

/-- `unLockFile` tries once to remove the lock file, whatever fails. -/
theorem after_unLockFile (fs : FileSystem) :
    after (unLockFile sys faults lock fs) = after (removeOr sys faults.removeLock lock fs) := by
  by_cases hunlock : faults.unLock = none
  · have hpass : step faults.unLock FileIOError.fcntlFailed fs = .ok () fs := by
      rw [hunlock]
      rfl
    have hrun : unLockFile sys faults lock fs = _ := bind_ok (onError_ok hpass)
    rw [hrun]
    by_cases hclose : faults.closeLock = none
    · have hpass : step faults.closeLock FileIOError.closeFailed fs = .ok () fs := by
        rw [hclose]
        rfl
      rw [bind_ok (onError_ok hpass)]
    · obtain ⟨e, he⟩ := step_some hclose FileIOError.closeFailed fs
      rw [bind_error (onError_error he)]
      rfl
  · obtain ⟨e, he⟩ := step_some hunlock FileIOError.fcntlFailed fs
    have hrun : unLockFile sys faults lock fs = _ := bind_error (onError_error he)
    rw [hrun]
    rfl

/-- The lock file is removed, or nothing is done; nothing is done where the removal fails. -/
theorem after_unLockFile_cases (faults : Faults) (hp : resolve sys fs .noFollow lock = .ok lp) :
    (faults.removeLock = none ∧ after (unLockFile sys faults lock fs) = fs.erase lp) ∨
      after (unLockFile sys faults lock fs) = fs := by
  rw [after_unLockFile]
  by_cases hfault : faults.removeLock = none
  · rcases after_removeOr faults.removeLock hp with h | h
    · exact Or.inl ⟨hfault, h⟩
    · exact Or.inr h
  · obtain ⟨e, he⟩ := removeOr_fault sys lock hfault fs
    rw [he]
    exact Or.inr rfl

/-- A file system with a file more, or the same one. -/
structure Grown (sys : System) (fs fs' : FileSystem) : Prop where
  sound : fs'.Sound sys
  ways : SameWays fs' fs
  old : ∀ q e, fs.entry q = some e → fs'.entry q = some e
  new : ∀ q file, fs'.entry q = some (.regular file) →
    fs.entry q = some (.regular file) ∨ fs.nextFile ≤ file
  content : ∀ file, file < fs.nextFile → fs'.content file = fs.content file

theorem grown_of_openWrite (hs : fs.Sound sys) (h : openWrite sys fs false lock = .ok (g, fs')) :
    Grown sys fs fs' := by
  obtain ⟨q, hq, ⟨-, rfl⟩ | ⟨hentry, rfl, rfl⟩⟩ := openWrite_eq_ok.mp h
  · exact ⟨hs, SameWays.refl _, fun _ _ he => he, fun _ _ he => Or.inl he, fun _ _ => rfl⟩
  · refine ⟨hs.create hq hentry, sameWays_create hentry, fun q' e he => ?_, fun q' file hfile => ?_,
      fun file hfile => fs.content_write_of_ne (Nat.ne_of_lt hfile) _⟩
    · have hne : q' ≠ q := by
        rintro rfl
        rw [hentry] at he
        cases he
      exact (fs.entry_insert_of_ne hne).trans he
    · by_cases hqq : q' = q
      · have hself : (fs.create q).entry q = some (.regular fs.nextFile) := fs.entry_insert_self
        rw [hqq, hself] at hfile
        cases hfile
        exact Or.inr (le_refl _)
      · exact Or.inl ((fs.entry_insert_of_ne hqq).symm.trans hfile)

theorem Grown.source (h : Grown sys fs fs') (hsrc : Source sys fs src sp f) : Source sys fs' src sp f :=
  hsrc.congr h.ways ((h.old sp _ hsrc.entry).trans hsrc.entry.symm)

/-- What is preserved from a file system with a file more on is preserved. -/
theorem Preserved.of_grown (hs : fs.Sound sys) (hsrc : Source sys fs src sp f) (hgrown : Grown sys fs fs')
    {r : EStateM.Result FileIOError FileSystem Unit} (h : Preserved sys fs' src name sp f r) :
    Preserved sys fs src name sp f r := by
  have hcontent := hgrown.content f (hs.fresh sp f hsrc.entry)
  refine ⟨?_, fun hok => ?_, fun q e he hsp hq => h.others q e (hgrown.old q e he) hsp fun hq' => ?_,
    fun q file hfile hne hread => ?_⟩
  · rw [← hcontent]
    exact h.kept
  · rw [← hcontent]
    exact h.copied hok
  · exact hq (resolve_sameWays hgrown.ways.symm hq')
  · have hold := hs.fresh q file hfile
    rw [← hgrown.content file hold]
    refine h.files q file (hgrown.old q _ hfile) hne fun hread' => hread ?_
    obtain ⟨q', hq', hentry⟩ := openRead_eq_ok.mp hread'
    refine openRead_eq_ok.mpr ⟨q', resolve_sameWays hgrown.ways.symm hq', ?_⟩
    exact (hgrown.new q' file hentry).resolve_right (Nat.not_le.mpr hold)

/-! ### The condition -/

/-- Where `moveFile` writes to; its argument where it fails before. -/
def moveDestinationOf (sys : System) (faults : Faults) (fs : FileSystem) (src dest : List UInt8) :
    List UInt8 :=
  match moveDestination sys fs src dest with
  | .ok complete => destinationOf sys (after (lockFile sys faults (lockPathName src) fs)) src complete
  | .error _ => dest

/-- When the lock file is there: the copy does not go to the name of the source; and if the lock file
is removed, there was no entry of its name, and the copy does not go to it. -/
def MoveSafe (sys : System) (faults : Faults) (fs : FileSystem) (src dest : List UInt8) (sp : Place) :
    Prop :=
  ∀ complete l fs₁, faults.openLock = none → faults.setLock = none →
    moveDestination sys fs src dest = .ok complete →
    openWrite sys fs false (lockPathName src) = .ok (l, fs₁) →
    OtherName sys faults fs₁ src complete sp ∧
    (faults.removeLock = none → ∀ lp, resolve sys fs .noFollow (lockPathName src) = .ok lp →
      fs.entry lp = none ∧
      ∀ name, faults.openSrc = none → faults.openDest = none →
        copyDestination sys fs₁ src complete = .ok name → resolve sys fs₁ .follow name ≠ .ok lp)

/-! ### After the copy -/

/-- What the removal of the lock file needs. -/
structure LockGone (sys : System) (faults : Faults) (fs fs' : FileSystem) (lock : List UInt8) (lp : Place) :
    Prop where
  path : resolve sys fs' .noFollow lock = .ok lp
  absent : faults.removeLock = none → fs.entry lp = none
  entry : faults.removeLock = none → ∀ e, fs'.entry lp = some e → ¬e.Leads

/-- The end of the lock touches no entry that was there. -/
theorem LockGone.after (h : LockGone sys faults fs fs' lock lp) :
    SameWays (after (unLockFile sys faults lock fs')) fs' ∧
      (∀ q e, fs.entry q = some e →
        (Effects.after (unLockFile sys faults lock fs')).entry q = fs'.entry q) ∧
      (Effects.after (unLockFile sys faults lock fs')).content = fs'.content ∧
      ∀ q, (faults.removeLock = none → q ≠ lp) →
        (Effects.after (unLockFile sys faults lock fs')).entry q = fs'.entry q := by
  rcases after_unLockFile_cases faults h.path with ⟨hnone, hafter⟩ | hafter
  · rw [hafter]
    refine ⟨?_, fun q e he => ?_, rfl, fun q hq => fs'.entry_erase_of_ne (hq hnone)⟩
    · refine sameWays_of_entry (p := lp) (h.entry hnone) (fun e he => ?_) fun q hq =>
        fs'.entry_erase_of_ne hq
      rw [FileSystem.entry_erase_self] at he
      cases he
    · refine fs'.entry_erase_of_ne ?_
      rintro rfl
      rw [h.absent hnone] at he
      cases he
  · rw [hafter]
    exact ⟨SameWays.refl fs', fun _ _ _ => rfl, rfl, fun _ _ => rfl⟩

/-! ### `moveFile` -/

/-- `lockFile` makes the lock file, or it fails; then the lock file may be there too. -/
theorem lockFile_cases (hs : fs.Sound sys) :
    (∃ e fs₁, lockFile sys faults lock fs = .error e fs₁ ∧ (fs₁ = fs ∨ Grown sys fs fs₁)) ∨
      ∃ l fs₁, faults.openLock = none ∧ faults.setLock = none ∧
        openWrite sys fs false lock = .ok (l, fs₁) ∧ lockFile sys faults lock fs = .ok () fs₁ := by
  by_cases hopen : faults.openLock = none
  · have hstep : openTarget sys faults.openLock false lock fs = _ :=
      bind_ok (show step faults.openLock FileIOError.openFailed fs = .ok () fs by rw [hopen]; rfl)
    rcases hwrite : openWrite sys fs false lock with errno | ⟨l, fs₁⟩
    · refine Or.inl ⟨.openFailed errno, fs, bind_error ?_, Or.inl rfl⟩
      rw [hstep, hwrite]
    · have htarget : openTarget sys faults.openLock false lock fs = .ok l fs₁ := by
        rw [hstep, hwrite]
      have hlock : lockFile sys faults lock fs = step faults.setLock FileIOError.fcntlFailed fs₁ :=
        bind_ok htarget
      rw [hlock]
      by_cases hset : faults.setLock = none
      · refine Or.inr ⟨l, fs₁, hopen, hset, rfl, ?_⟩
        rw [hset]
        rfl
      · obtain ⟨e, he⟩ := step_some hset FileIOError.fcntlFailed fs₁
        exact Or.inl ⟨e, fs₁, he, Or.inr (grown_of_openWrite hs hwrite)⟩
  · obtain ⟨e, he⟩ := step_some hopen FileIOError.openFailed fs
    exact Or.inl ⟨e, fs, bind_error (bind_error he), Or.inl rfl⟩

/-- A file that is there moves on to the lock. -/
theorem moveFile_start (h : Source sys fs src sp f) {complete : List UInt8}
    (hdest : moveDestination sys fs src dest = .ok complete) :
    moveFile sys faults src dest fs = (do
      lockFile sys faults (lockPathName src)
      onError (copyFile sys faults src complete 0) (unLockFile sys faults (lockPathName src))
      onError (removeOr sys faults.removeSrc src) (unLockFile sys faults (lockPathName src))
      unLockFile sys faults (lockPathName src) : Method Unit) fs := by
  have hexists : isFileExisting sys fs src = .ok true := by
    unfold isFileExisting
    rw [lstat_eq h.path h.entry]
  have hlook : look (fun fs => isFileExisting sys fs src) fs = .ok true fs := look_ok hexists
  have hlook' : look (fun fs => moveDestination sys fs src dest) fs = .ok complete fs := look_ok hdest
  exact (bind_ok hlook).trans (bind_ok hlook')

/-- The bytes that a path leads to stay when the lock ends. -/
theorem LockGone.contentAt (h : LockGone sys faults fs fs' lock lp)
    (hq : resolve sys fs' .follow name = .ok q) (hentry : fs'.entry q = some (.regular g))
    (hne : faults.removeLock = none → q ≠ lp) :
    contentAt sys (Effects.after (unLockFile sys faults lock fs')) name = some (fs'.content g) := by
  obtain ⟨hways, -, hcontent, hother⟩ := h.after
  rw [contentAt_eq (resolve_sameWays hways hq) ((hother q hne).trans hentry), hcontent]

/-- A move that failed before the source was removed. -/
theorem preserved_of_source (h : LockGone sys faults fs fs' lock lp) (hsrc : Source sys fs src sp f)
    (hsource : Source sys fs' src sp f) (hcontent : fs'.content f = fs.content f)
    {e e' : FileIOError} (hpres : Preserved sys fs src name sp f (.error e fs')) :
    Preserved sys fs src name sp f (.error e' (after (unLockFile sys faults lock fs'))) := by
  obtain ⟨-, hold, hafter, -⟩ := h.after
  refine ⟨Or.inl ?_, nofun, fun q e he hsp hq => ?_, fun q file hfile hne hread => ?_⟩
  · have hne : faults.removeLock = none → sp ≠ lp := by
      rintro hnone rfl
      have hentry := hsrc.entry
      rw [h.absent hnone] at hentry
      cases hentry
    exact (h.contentAt hsource.follow hsource.entry hne).trans (congrArg some hcontent)
  · exact (hold q e he).trans (hpres.others q e he hsp hq)
  · exact (congrFun hafter file).trans (hpres.files q file hfile hne hread)

/-- The end of a move whose copy ended well. -/
theorem preserved_of_copied (h : LockGone sys faults fs fs' lock lp)
    (hq : resolve sys fs' .follow name = .ok q) (hentry : fs'.entry q = some (.regular g))
    (hcontent : fs'.content g = fs.content f) (hne : faults.removeLock = none → q ≠ lp)
    (hothers : ∀ q e, fs.entry q = some e → q ≠ sp → resolve sys fs .noFollow name ≠ .ok q →
      fs'.entry q = some e)
    (hfiles : ∀ q file, fs.entry q = some (.regular file) → file ≠ f →
      openRead sys fs name ≠ .ok file → fs'.content file = fs.content file)
    {r : EStateM.Result FileIOError FileSystem Unit}
    (hr : after r = after (unLockFile sys faults lock fs')) : Preserved sys fs src name sp f r := by
  obtain ⟨-, hold, hafter, -⟩ := h.after
  have hdest : contentAt sys (after r) name = some (fs.content f) := by
    rw [hr, h.contentAt hq hentry hne, hcontent]
  refine ⟨Or.inr hdest, fun _ => hdest, fun q e he hsp hq => ?_, fun q file hfile hne hread => ?_⟩
  · rw [hr]
    exact (hold q e he).trans (hothers q e he hsp hq)
  · rw [hr]
    exact (congrFun hafter file).trans (hfiles q file hfile hne hread)

/-- **What `moveFile` preserves**, whatever steps fail. -/
theorem moveFile_preserved (hs : fs.Sound sys) (h : Source sys fs src sp f)
    (hsafe : MoveSafe sys faults fs src dest sp) :
    Preserved sys fs src (moveDestinationOf sys faults fs src dest) sp f
      (moveFile sys faults src dest fs) := by
  rcases hdest : moveDestination sys fs src dest with e | complete
  · have hexists : isFileExisting sys fs src = .ok true := by
      unfold isFileExisting
      rw [lstat_eq h.path h.entry]
    have hlook : look (fun fs => isFileExisting sys fs src) fs = .ok true fs := look_ok hexists
    have hlook' : look (fun fs => moveDestination sys fs src dest) fs = .error e fs := look_error hdest
    have hrun : moveFile sys faults src dest fs = .error e fs :=
      (bind_ok hlook).trans (bind_error hlook')
    rw [hrun]
    exact preserved_of_unchanged h nofun rfl
  · rw [moveFile_start h hdest]
    have hname : moveDestinationOf sys faults fs src dest =
        destinationOf sys (after (lockFile sys faults (lockPathName src) fs)) src complete := by
      unfold moveDestinationOf
      rw [hdest]
    rw [hname]
    rcases lockFile_cases hs with ⟨e, fs₁, hlock, hgrown⟩ | ⟨l, fs₁, hopen, hset, hwrite, hlock⟩
    · rw [hlock, bind_error hlock]
      rcases hgrown with rfl | hgrown
      · exact preserved_of_unchanged h nofun rfl
      · exact Preserved.of_grown hs h hgrown (preserved_of_unchanged (hgrown.source h) nofun rfl)
    · rw [hlock, bind_ok hlock]
      have hgrown := grown_of_openWrite hs hwrite
      have hsource := hgrown.source h
      have hcontent₁ := hgrown.content f (hs.fresh sp f h.entry)
      obtain ⟨hother, hlocked⟩ := hsafe complete l fs₁ hopen hset hdest hwrite
      have hpres := ((copyFile_preserved_iff hgrown.sound hsource 0).mpr hother.copySafe).of_grown hs h
        hgrown
      have hkept := copyFile_kept hgrown.sound hsource hother 0
      have hopened := copyFile_cases faults complete hsource 0
      show Preserved sys fs src (destinationOf sys fs₁ src complete) sp f _
      generalize hdestName : destinationOf sys fs₁ src complete = name at hpres
      -- the lock file, and what is there when it is removed
      obtain ⟨lq, hlq, -⟩ := openWrite_eq_ok.mp hwrite
      obtain ⟨lp, hlp⟩ := exists_noFollow hlq
      have hlockGone : ∀ s, (∀ path q, resolve sys fs₁ .noFollow path = .ok q →
          resolve sys s .noFollow path = .ok q) →
          (∀ q e, e.Leads → s.entry q = some e → fs₁.entry q = some e) →
          LockGone sys faults fs s (lockPathName src) lp := by
        intro s hpaths hmade
        refine ⟨hpaths _ _ (resolve_sameWays hgrown.ways hlp), fun hnone => (hlocked hnone lp hlp).1,
          fun hnone e he hleads => ?_⟩
        have hfs := (hgrown.ways lp e hleads).mp (hmade lp e hleads he)
        rw [(hlocked hnone lp hlp).1] at hfs
        cases hfs
      rcases hcopy : copyFile sys faults src complete 0 fs₁ with ⟨u, fs₂⟩ | ⟨e, fs₂⟩
      · rw [hcopy] at hpres hkept hopened
        replace hkept : Kept sys fs₁ fs₂ src sp f _ := hkept
        rw [bind_ok (onError_ok hcopy)]
        have hways₂ : SameWays fs₂ fs₁ := hkept.ways fun hnot => hnot rfl
        -- where the copy is
        obtain ⟨g, hread, hcontent⟩ := contentAt_eq_some.mp (hpres.copied rfl)
        obtain ⟨q, hq, hentry⟩ := openRead_eq_ok.mp hread
        have hq₁ : resolve sys fs₁ .follow name = .ok q := resolve_sameWays hways₂.symm hq
        have hnameOf : faults.openSrc = none ∧ faults.openDest = none ∧
            copyDestination sys fs₁ src complete = .ok name := by
          rcases hopened with ⟨e, hrun, -⟩ | ⟨name', -, -, -, hopenSrc, hopenDest, hname', -⟩
          · cases hrun
          · refine ⟨hopenSrc, hopenDest, ?_⟩
            rw [hname', ← hdestName]
            unfold destinationOf
            rw [hname']
        obtain ⟨hopenSrc, hopenDest, hcopyName⟩ := hnameOf
        have hqsp : q ≠ sp := by
          rintro rfl
          have hsame : openRead sys fs₁ name = .ok f := openRead_eq_ok.mpr ⟨q, hq₁, hsource.entry⟩
          exact (hother name f hopenSrc hopenDest hcopyName hsource.openRead hsame).2.2 hq₁
        have hqlp : faults.removeLock = none → q ≠ lp := by
          rintro hnone rfl
          exact (hlocked hnone q hlp).2 name hopenSrc hopenDest hcopyName hq₁
        rcases removeOr_after faults.removeSrc hkept.source.path with hremove | ⟨e, hremove⟩
        · rw [bind_ok (onError_ok hremove)]
          have hways₃ := sameWays_erase hkept.source.entry
          refine preserved_of_copied (hlockGone (fs₂.erase sp) ?_ ?_) (resolve_sameWays hways₃ hq)
            ((fs₂.entry_erase_of_ne hqsp).trans hentry) hcontent hqlp (fun q e he hsp hq => ?_)
            (fun q file hfile hne hread => hpres.files q file hfile hne hread) rfl
          · exact fun path q hpath => resolve_sameWays hways₃ (hkept.paths path q hpath)
          · exact fun q e he hq => hkept.made q e he ((hways₃ q e he).mp hq)
          · exact (fs₂.entry_erase_of_ne hsp).trans (hpres.others q e he hsp hq)
        · rw [bind_error (onError_error hremove)]
          exact preserved_of_copied (hlockGone fs₂ hkept.paths hkept.made) hq hentry hcontent hqlp
            (fun q e he hsp hq => hpres.others q e he hsp hq)
            (fun q file hfile hne hread => hpres.files q file hfile hne hread) rfl
      · rw [hcopy] at hpres hkept
        rw [bind_error (onError_error hcopy)]
        exact preserved_of_source (hlockGone fs₂ hkept.paths hkept.made) h hkept.source
          (hkept.content.trans hcontent₁) hpres

/-- **Copies and moves lose no bytes.**  A copy preserves what it should just when the destination is
not the source's file under another name or its own; a move does where there is also no entry of the
name of the lock file. -/
theorem transfers_preserved (hs : fs.Sound sys) (h : Source sys fs src sp f) (faults : Faults)
    (dest : List UInt8) (ulBufferSizeToBeUsed : ℕ) :
    (Preserved sys fs src (destinationOf sys fs src dest) sp f
        (copyFile sys faults src dest ulBufferSizeToBeUsed fs) ↔
      CopySafe sys faults fs src dest sp) ∧
    (MoveSafe sys faults fs src dest sp →
      Preserved sys fs src (moveDestinationOf sys faults fs src dest) sp f
        (moveFile sys faults src dest fs)) :=
  ⟨copyFile_preserved_iff hs h ulBufferSizeToBeUsed, moveFile_preserved hs h⟩

/-- The file "/a", which is "/b" too, and the file "/a.lck". -/
def sharedFile : FileSystem where
  entries := [⟨[], .directory⟩, ⟨[[97]], .regular 0⟩, ⟨[[98]], .regular 0⟩,
    ⟨[[97, 46, 108, 99, 107]], .regular 1⟩].toAList
  content file := if file = 0 then [7] else []
  nextFile := 2

theorem sharedFile_sound : sharedFile.Sound linux :=
  FileSystem.sound_of_keys (FileSystem.tree_of_keys (by decide +kernel)) (by decide +kernel)
    (by decide +kernel)

theorem source_sharedFile (n : UInt8) (hn : n = 97 ∨ n = 98) :
    Source linux sharedFile [47, n] [[n]] 0 := by
  rcases hn with rfl | rfl
  · exact ⟨by decide +kernel, by decide +kernel⟩
  · exact ⟨by decide +kernel, by decide +kernel⟩

/-- "/b" is copied and moved to "/c" without a loss. -/
theorem transfers_preserved_sharedFile :
    Preserved linux sharedFile [47, 98] [47, 99] [[98]] 0
        (copyFile linux (.none 100) [47, 98] [47, 99] 0 sharedFile) ∧
      Preserved linux sharedFile [47, 98] (moveDestinationOf linux (.none 100) sharedFile [47, 98] [47, 99])
        [[98]] 0 (moveFile linux (.none 100) [47, 98] [47, 99] sharedFile) := by
  obtain ⟨hcopy, hmove⟩ := transfers_preserved sharedFile_sound (source_sharedFile 98 (Or.inr rfl))
    (.none 100) [47, 99] 0
  have hname : copyDestination linux sharedFile [47, 98] [47, 99] = .ok [47, 99] := by decide +kernel
  have hdest : destinationOf linux sharedFile [47, 98] [47, 99] = [47, 99] := by
    unfold destinationOf
    rw [hname]
  rw [hdest] at hcopy
  refine ⟨hcopy.mpr ?_, hmove ?_⟩
  · intro name f _ _ hname' _ hread
    rw [hname] at hname'
    cases hname'
    have hnone : openRead linux sharedFile [47, 99] = .error .ENOENT := by decide +kernel
    rw [hnone] at hread
    cases hread
  · intro complete l fs₁ _ _ hcomplete hwrite
    have hmoveName : moveDestination linux sharedFile [47, 98] [47, 99] = .ok [47, 99] := by
      decide +kernel
    rw [hmoveName] at hcomplete
    cases hcomplete
    have hlock : resolve linux sharedFile .follow (lockPathName [47, 98]) =
        .ok [[98, 46, 108, 99, 107]] := by decide +kernel
    have habsent : sharedFile.entry [[98, 46, 108, 99, 107]] = none := by decide +kernel
    obtain ⟨q, hq, ⟨hentry, -⟩ | ⟨-, -, hfs⟩⟩ := openWrite_eq_ok.mp hwrite
    all_goals
      rw [hlock] at hq
      cases hq
    · rw [habsent] at hentry
      cases hentry
    subst hfs
    have hcopyName : copyDestination linux (sharedFile.create [[98, 46, 108, 99, 107]]) [47, 98] [47, 99] =
        .ok [47, 99] := by decide +kernel
    have hwhere : resolve linux (sharedFile.create [[98, 46, 108, 99, 107]]) .follow [47, 99] =
        .ok [[99]] := by decide +kernel
    refine ⟨?_, fun _ lp hlp => ?_⟩
    · intro name f _ _ hname' _ hread
      rw [hcopyName] at hname'
      cases hname'
      obtain ⟨q, hq, hentry⟩ := openRead_eq_ok.mp hread
      rw [hwhere] at hq
      cases hq
      have hnone : (sharedFile.create [[98, 46, 108, 99, 107]]).entry [[99]] = none := by decide +kernel
      rw [hnone] at hentry
      cases hentry
    · have hlp' : resolve linux sharedFile .noFollow (lockPathName [47, 98]) =
          .ok [[98, 46, 108, 99, 107]] := by decide +kernel
      rw [hlp'] at hlp
      cases hlp
      refine ⟨habsent, fun name _ _ hname' => ?_⟩
      rw [hcopyName] at hname'
      cases hname'
      rw [hwhere]
      decide

/-- A copy to another name of the file loses the bytes; a move removes what has the name of its lock
file. -/
theorem not_preserved_sharedFile :
    sharedFile.Sound linux ∧ Source linux sharedFile [47, 97] [[97]] 0 ∧
      ¬Preserved linux sharedFile [47, 97] [47, 98] [[97]] 0
        (copyFile linux (.none 100) [47, 97] [47, 98] 0 sharedFile) ∧
      ¬Preserved linux sharedFile [47, 97] [47, 99] [[97]] 0
        (moveFile linux (.none 100) [47, 97] [47, 99] sharedFile) := by
  refine ⟨sharedFile_sound, source_sharedFile 97 (Or.inl rfl), fun h => ?_, fun h => ?_⟩
  · have hsrc : contentAt linux (after (copyFile linux (.none 100) [47, 97] [47, 98] 0 sharedFile))
        [47, 97] = some [] := by decide +kernel
    have hdest : contentAt linux (after (copyFile linux (.none 100) [47, 97] [47, 98] 0 sharedFile))
        [47, 98] = some [] := by decide +kernel
    have hkept := h.kept
    rw [hsrc, hdest, or_self] at hkept
    exact absurd hkept (by decide)
  · have hlock : sharedFile.entry [[97, 46, 108, 99, 107]] = some (.regular 1) := by decide +kernel
    have hgone : (after (moveFile linux (.none 100) [47, 97] [47, 99] sharedFile)).entry
        [[97, 46, 108, 99, 107]] = none := by decide +kernel
    have hstays := h.others _ _ hlock (by decide) (by decide +kernel)
    rw [hgone] at hstays
    cases hstays

end FileIO

end CatraLibraries
