/-
# What a copy keeps

`FileIO::copyFile` with any step failing.  The source keeps its bytes, nothing else is touched, and a
copy that ends well has the bytes of the source, unless the destination is the source under another
name or under its own: the truncation at the `open` takes the bytes away.
-/
import CatraLibraries.Lib.FileLinks
import CatraLibraries.FileIO.CopyFile

namespace CatraLibraries

open Posix Effects
open Paths (Name components Stays components_append)

namespace FileIO

variable {sys : System} {fs fs' : FileSystem} {faults : Faults} {src dest name : List UInt8}
  {sp p q : Place} {f g : ℕ}

/-! ### The loops -/

/-- The bytes of the chunk are written, or some of them. -/
theorem writeChunk_spec (write : ℕ → Except Errno ℕ) (file rounds total : ℕ) (chunk : List UInt8)
    (fs : FileSystem) (h : chunk.length ≤ rounds) :
    writeChunk write file rounds total chunk fs =
        .ok () (fs.write file (fs.content file ++ chunk)) ∨
      ∃ e bytes, writeChunk write file rounds total chunk fs = .error e (fs.write file bytes) := by
  induction rounds generalizing total chunk fs with
  | zero =>
    have hnil : chunk = [] := List.length_eq_zero_iff.mp (Nat.le_zero.mp h)
    refine Or.inl ?_
    rw [hnil, List.append_nil, FileSystem.write_content]
    rfl
  | succ rounds ih =>
    by_cases hnil : chunk = []
    · refine Or.inl ?_
      rw [hnil, List.append_nil, FileSystem.write_content]
      rfl
    · unfold writeChunk
      rw [if_neg hnil]
      rcases write total with errno | more
      · refine Or.inr ⟨.writeFailed errno, fs.content file, ?_⟩
        rw [FileSystem.write_content]
        rfl
      · have hpos := List.length_pos_iff.mpr hnil
        have hrest : (chunk.drop (min (more + 1) chunk.length)).length ≤ rounds := by
          rw [List.length_drop]
          omega
        rcases ih (total + min (more + 1) chunk.length) _
          (fs.write file (fs.content file ++ chunk.take (min (more + 1) chunk.length))) hrest with
          hrun | ⟨e, bytes, hrun⟩
        · refine Or.inl ?_
          refine bind_eq_ok.mpr ⟨(), _, rfl, ?_⟩
          rw [hrun, FileSystem.write_write, FileSystem.content_write_self, List.append_assoc,
            List.take_append_drop]
        · refine Or.inr ⟨e, bytes, ?_⟩
          refine (bind_ok (x := change _) (s := fs) rfl).trans ?_
          rw [hrun, FileSystem.write_write]

/-- The bytes of the source from `total` on are written, or some bytes. -/
theorem copyBytes_spec (faults : Faults) (hne : f ≠ g) {ulSize : ℕ} (hsize : 0 < ulSize) (rounds total : ℕ)
    (fs : FileSystem) (h : (fs.content f).length < total + rounds) :
    copyBytes faults f g ulSize rounds total fs =
        .ok () (fs.write g (fs.content g ++ (fs.content f).drop total)) ∨
      ∃ e bytes, copyBytes faults f g ulSize rounds total fs = .error e (fs.write g bytes) := by
  induction rounds generalizing total fs with
  | zero =>
    refine Or.inl ?_
    rw [List.drop_eq_nil_of_le (by omega), List.append_nil, FileSystem.write_content]
    rfl
  | succ rounds ih =>
    unfold copyBytes
    rcases faults.read total with _ | errno
    · show (_ = _) ∨ _
      by_cases hnil : ((fs.content f).drop total).take ulSize = []
      · refine Or.inl (bind_eq_ok.mpr ⟨_, fs, look_ok rfl, ?_⟩)
        rw [if_pos hnil]
        have hdrop : (fs.content f).drop total = [] := by
          rcases List.take_eq_nil_iff.mp hnil with h | h
          · omega
          · exact h
        rw [hdrop, List.append_nil, FileSystem.write_content]
        rfl
      · generalize hchunk : ((fs.content f).drop total).take ulSize = chunk at hnil
        have hbind : ∀ {r}, ((do
              writeChunk faults.write g chunk.length total chunk
              if chunk.length = ulSize then copyBytes faults f g ulSize rounds (total + chunk.length)
              else pure () : Method Unit) fs = r) →
            (do
              let chunk ← look fun fs => .ok (((fs.content f).drop total).take ulSize)
              if chunk = [] then pure ()
              else do
                writeChunk faults.write g chunk.length total chunk
                if chunk.length = ulSize then
                  copyBytes faults f g ulSize rounds (total + chunk.length)
                else pure () : Method Unit) fs = r := by
          intro r hr
          refine (bind_ok (look_ok (a := chunk) (by rw [hchunk]))).trans ?_
          rw [if_neg hnil]
          exact hr
        rcases writeChunk_spec faults.write g chunk.length total chunk fs (le_refl _) with
          hrun | ⟨e, bytes, hrun⟩
        · by_cases hfull : chunk.length = ulSize
          · have hcontent : (fs.write g (fs.content g ++ chunk)).content f = fs.content f :=
              FileSystem.content_write_of_ne fs hne _
            have hrest : (fs.content g ++ chunk) ++ (fs.content f).drop (total + chunk.length) =
                fs.content g ++ (fs.content f).drop total := by
              rw [List.append_assoc, hfull, ← List.drop_drop, ← hchunk, List.take_append_drop]
            rcases ih (total + chunk.length) (fs.write g (fs.content g ++ chunk))
              (by rw [hcontent]; omega) with hih | ⟨e, bytes, hih⟩
            · refine Or.inl (hbind (bind_eq_ok.mpr ⟨(), _, hrun, ?_⟩))
              rw [if_pos hfull, hih, FileSystem.write_write, FileSystem.content_write_self, hcontent,
                hrest]
            · refine Or.inr ⟨e, bytes, hbind ((bind_ok hrun).trans ?_)⟩
              rw [if_pos hfull, hih, FileSystem.write_write]
          · refine Or.inl (hbind (bind_eq_ok.mpr ⟨(), _, hrun, ?_⟩))
            have hall : (fs.content f).drop total = chunk := by
              rw [← hchunk, List.take_of_length_le]
              have hlength := congrArg List.length hchunk
              rw [List.length_take] at hlength
              omega
            rw [if_neg hfull, hall]
            rfl
        · exact Or.inr ⟨e, bytes, hbind (bind_error hrun)⟩
    · refine Or.inr ⟨.readFailed errno, fs.content g, ?_⟩
      rw [FileSystem.write_content]
      rfl

/-! ### Both files open -/

theorem step_some {fault : Option Errno} (h : fault ≠ none) (error : Errno → FileIOError) (s : FileSystem) :
    ∃ e, step fault error s = .error e s := by
  obtain ⟨errno, rfl⟩ := Option.ne_none_iff_exists'.mp h
  exact ⟨error errno, rfl⟩

theorem removeOr_fault (sys : System) (name : List UInt8) {fault : Option Errno} (h : fault ≠ none) (s : FileSystem) :
    ∃ e, removeOr sys fault name s = .error e s := by
  obtain ⟨e, he⟩ := step_some h FileIOError.unlinkFailed s
  exact ⟨e, bind_error he⟩

/-- A name that is there goes, when it is no directory. -/
theorem removeOr_none (hp : resolve sys fs .noFollow name = .ok p) {e : Entry}
    (hentry : fs.entry p = some e) (he : e ≠ .directory) :
    removeOr sys none name fs = .ok () (fs.erase p) := by
  refine (bind_ok rfl).trans (change_ok ?_)
  rw [unlink_eq hp hentry he]

/-- The removal of a name takes its entry away, or does nothing. -/
theorem removeOr_after (fault : Option Errno) (hp : resolve sys fs .noFollow name = .ok p) :
    removeOr sys fault name fs = .ok () (fs.erase p) ∨
      ∃ e, removeOr sys fault name fs = .error e fs := by
  by_cases hfault : fault = none
  · subst hfault
    have hremove : removeOr sys none name fs = remove sys name fs := bind_ok rfl
    rw [hremove]
    rcases hunlink : unlink sys fs name with errno | fs'
    · refine Or.inr ⟨.unlinkFailed errno, change_error ?_⟩
      rw [hunlink]
    · refine Or.inl (change_ok ?_)
      rw [hunlink]
      change (resolve sys fs .noFollow name >>= fun d => _) = _ at hunlink
      rw [hp] at hunlink
      dsimp only [bind, Except.bind] at hunlink
      split at hunlink
      · cases hunlink
      · cases hunlink
        rfl
      · cases hunlink
  · exact Or.inr (removeOr_fault _ _ hfault fs)

theorem after_removeOr (fault : Option Errno) (hp : resolve sys fs .noFollow name = .ok p) :
    after (removeOr sys fault name fs) = fs.erase p ∨ after (removeOr sys fault name fs) = fs := by
  rcases removeOr_after fault hp with h | ⟨e, h⟩
  · rw [h]
    exact Or.inl rfl
  · rw [h]
    exact Or.inr rfl

/-- **A copy to another file**: it has the bytes of the source behind its own, or the copy fails, with
some bytes in the file; then its name is removed or not. -/
theorem copyOpened_spec (faults : Faults) (hne : f ≠ g) {ulSize : ℕ} (hsize : 0 < ulSize)
    (hp : resolve sys fs .noFollow name = .ok p) :
    copyOpened sys faults name f g ulSize fs =
        .ok () (fs.write g (fs.content g ++ fs.content f)) ∨
      ∃ e bytes, copyOpened sys faults name f g ulSize fs = .error e (fs.write g bytes) ∨
        copyOpened sys faults name f g ulSize fs = .error e ((fs.write g bytes).erase p) := by
  have hremoved : ∀ bytes e (x : Method Unit), x fs = .error e (fs.write g bytes) →
      onError x (removeOr sys faults.removeDest name) fs = .error e (fs.write g bytes) ∨
      onError x (removeOr sys faults.removeDest name) fs = .error e ((fs.write g bytes).erase p) := by
    intro bytes e x hx
    rw [onError_error hx]
    rcases after_removeOr faults.removeDest
      (resolve_sameWays (sameWays_write _ g bytes) hp) with h | h
    · exact Or.inr (by rw [h])
    · exact Or.inl (by rw [h])
  have hrounds : copyOpened sys faults name f g ulSize fs = _ := bind_ok (look_ok rfl)
  rw [hrounds]
  rcases copyBytes_spec faults hne hsize ((fs.content f).length + 1) 0 fs (by omega) with
    hcopy | ⟨e, bytes, hcopy⟩
  · rw [bind_ok (onError_ok hcopy)]
    generalize hfs₁ : fs.write g (fs.content g ++ (fs.content f).drop 0) = fs₁
    by_cases hclose : faults.closeDest = none
    · have hpass : step faults.closeDest FileIOError.closeFailed fs₁ = .ok () fs₁ := by
        rw [hclose]
        rfl
      rw [bind_ok (onError_ok hpass)]
      by_cases hcloseSrc : faults.closeSrc = none
      · refine Or.inl ?_
        rw [hcloseSrc, ← hfs₁]
        rfl
      · obtain ⟨e, he⟩ := step_some hcloseSrc FileIOError.closeFailed fs₁
        refine Or.inr ⟨e, fs.content g ++ (fs.content f).drop 0, Or.inl ?_⟩
        rw [he, ← hfs₁]
    · obtain ⟨e, he⟩ := step_some hclose FileIOError.closeFailed fs₁
      refine Or.inr ⟨e, fs.content g ++ (fs.content f).drop 0, ?_⟩
      rw [hfs₁, bind_error (onError_error he)]
      have hp₁ : resolve sys fs₁ .noFollow name = .ok p := by
        rw [← hfs₁]
        exact resolve_sameWays (sameWays_write _ g _) hp
      rcases after_removeOr faults.removeDest hp₁ with h | h
      · exact Or.inr (by rw [h])
      · exact Or.inl (by rw [h])
  · refine Or.inr ⟨e, bytes, ?_⟩
    rcases hremoved bytes e _ hcopy with h | h
    · exact Or.inl (bind_error h)
    · exact Or.inr (bind_error h)

/-- **A copy of a file without bytes to itself**: nothing is written; where a step fails the name is
removed. -/
theorem copyOpened_self (sys : System) (faults : Faults) (name : List UInt8) (ulSize : ℕ) (hcontent : fs.content f = []) :
    (faults.read 0 = none ∧ faults.closeDest = none ∧
      after (copyOpened sys faults name f f ulSize fs) = fs) ∨
    (¬(faults.read 0 = none ∧ faults.closeDest = none) ∧
      after (copyOpened sys faults name f f ulSize fs) = after (removeOr sys faults.removeDest name fs) ∧
      (error? (copyOpened sys faults name f f ulSize fs)).isSome) := by
  have hrounds : copyOpened sys faults name f f ulSize fs = _ := bind_ok (look_ok rfl)
  rw [hrounds]
  by_cases hread : faults.read 0 = none
  · have hcopy : copyBytes faults f f ulSize ((fs.content f).length + 1) 0 fs = .ok () fs := by
      unfold copyBytes
      rw [hread]
      refine (bind_ok (look_ok (a := []) ?_)).trans rfl
      rw [hcontent, List.drop_nil, List.take_nil]
    rw [bind_ok (onError_ok hcopy)]
    by_cases hclose : faults.closeDest = none
    · refine Or.inl ⟨hread, hclose, ?_⟩
      have hpass : step faults.closeDest FileIOError.closeFailed fs = .ok () fs := by
        rw [hclose]
        rfl
      rw [bind_ok (onError_ok hpass)]
      by_cases hcloseSrc : faults.closeSrc = none
      · rw [hcloseSrc]
        rfl
      · obtain ⟨e, he⟩ := step_some hcloseSrc FileIOError.closeFailed fs
        rw [he]
        rfl
    · obtain ⟨e, he⟩ := step_some hclose FileIOError.closeFailed fs
      refine Or.inr ⟨fun h => hclose h.2, ?_⟩
      rw [bind_error (onError_error he)]
      exact ⟨rfl, rfl⟩
  · obtain ⟨errno, herrno⟩ := Option.ne_none_iff_exists'.mp hread
    have hcopy : copyBytes faults f f ulSize ((fs.content f).length + 1) 0 fs =
        .error (.readFailed errno) fs := by
      unfold copyBytes
      rw [herrno]
      rfl
    refine Or.inr ⟨fun h => hread h.1, ?_⟩
    rw [bind_error (onError_error hcopy)]
    exact ⟨rfl, rfl⟩

/-! ### What is preserved -/

/-- **The bytes of the source are not lost, and nothing else is touched.**  `sp` is the entry of the
source, `f` its file; the destination and what its path leads to are not looked at. -/
structure Preserved (sys : System) (fs : FileSystem) (src dest : List UInt8) (sp : Place) (f : ℕ)
    (r : EStateM.Result FileIOError FileSystem Unit) : Prop where
  kept : contentAt sys (after r) src = some (fs.content f) ∨
    contentAt sys (after r) dest = some (fs.content f)
  copied : error? r = none → contentAt sys (after r) dest = some (fs.content f)
  others : ∀ q e, fs.entry q = some e → q ≠ sp → resolve sys fs .noFollow dest ≠ .ok q →
    (after r).entry q = some e
  files : ∀ q file, fs.entry q = some (.regular file) → file ≠ f → openRead sys fs dest ≠ .ok file →
    (after r).content file = fs.content file

/-- The source: its path ends at the name of a regular file. -/
structure Source (sys : System) (fs : FileSystem) (src : List UInt8) (sp : Place) (f : ℕ) : Prop where
  path : resolve sys fs .noFollow src = .ok sp
  entry : fs.entry sp = some (.regular f)

theorem Source.follow (h : Source sys fs src sp f) : resolve sys fs .follow src = .ok sp :=
  resolve_follow_of_noFollow h.path fun target ht => by rw [h.entry] at ht; cases ht

theorem Source.openRead (h : Source sys fs src sp f) : openRead sys fs src = .ok f :=
  openRead_eq_ok.mpr ⟨sp, h.follow, h.entry⟩

theorem Source.contentAt (h : Source sys fs src sp f) : contentAt sys fs src = some (fs.content f) :=
  contentAt_eq h.follow h.entry

theorem Source.congr (h : Source sys fs src sp f) (hways : SameWays fs' fs)
    (hentry : fs'.entry sp = fs.entry sp) : Source sys fs' src sp f :=
  ⟨resolve_sameWays hways h.path, hentry.trans h.entry⟩

/-- A failure that leaves everything as it was. -/
theorem preserved_of_unchanged (h : Source sys fs src sp f)
    {r : EStateM.Result FileIOError FileSystem Unit} (hfailed : error? r ≠ none) (hr : after r = fs) :
    Preserved sys fs src dest sp f r := by
  refine ⟨Or.inl ?_, fun hok => absurd hok hfailed, fun q e he _ _ => ?_, fun q file _ _ _ => ?_⟩
  · rw [hr]
    exact h.contentAt
  · rw [hr]
    exact he
  · rw [hr]

/-- What opening the destination does: its file has no bytes, and it is there. -/
structure Opened (fs fs₁ : FileSystem) (q : Place) (g : ℕ) : Prop where
  ways : SameWays fs₁ fs
  old : ∀ q' e, fs.entry q' = some e → fs₁.entry q' = some e
  entry : fs₁.entry q = some (.regular g)
  content : ∀ file ≠ g, fs₁.content file = fs.content file
  empty : fs₁.content g = []

theorem opened_of_openWrite (hs : fs.Sound sys) (h : openWrite sys fs true name = .ok (g, fs')) :
    ∃ q, resolve sys fs .follow name = .ok q ∧ Opened fs fs' q g ∧
      ((fs.entry q = some (.regular g) ∧ fs' = fs.write g []) ∨
        fs.entry q = none ∧ ∀ q' file, fs.entry q' = some (.regular file) → file ≠ g) := by
  obtain ⟨q, hq, ⟨hentry, rfl⟩ | ⟨hentry, rfl, rfl⟩⟩ := openWrite_eq_ok.mp h
  · refine ⟨q, hq, ⟨sameWays_write _ g [], fun _ _ he => he, hentry, fun file hfile => ?_, ?_⟩,
      Or.inl ⟨hentry, rfl⟩⟩
    · exact fs.content_write_of_ne hfile _
    · exact fs.content_write_self _ _
  · refine ⟨q, hq, ⟨sameWays_create hentry, fun q' e he => ?_, fs.entry_insert_self, fun file hfile => ?_, ?_⟩,
      Or.inr ⟨hentry, fun q' file hfile => Nat.ne_of_lt (hs.fresh q' file hfile)⟩⟩
    · have hne : q' ≠ q := by
        rintro rfl
        rw [hentry] at he
        cases he
      exact (fs.entry_insert_of_ne hne).trans he
    · exact fs.content_write_of_ne hfile _
    · exact fs.content_write_self _ _

/-- **A copy to another file preserves.** -/
theorem copyOpened_preserved (hs : fs.Sound sys) (h : Source sys fs src sp f) (hne : f ≠ g)
    {fs₁ : FileSystem} {ulSize : ℕ} (hsize : 0 < ulSize) (hq : resolve sys fs .follow name = .ok q)
    (hopened : Opened fs fs₁ q g)
    (hg : fs.entry q = some (.regular g) ∨
      fs.entry q = none ∧ ∀ q' file, fs.entry q' = some (.regular file) → file ≠ g) :
    Preserved sys fs src name sp f (copyOpened sys faults name f g ulSize fs₁) := by
  obtain ⟨p, hp⟩ := exists_noFollow hq
  have hnot : fs.entry q ≠ some .directory := by
    rcases hg with h | ⟨h, -⟩
    · rw [h]
      nofun
    · rw [h]
      nofun
  have hsp : sp ≠ p := by
    -- the last name of the destination stands for another file
    rintro rfl
    have hfollow := resolve_follow_of_noFollow hp fun target ht => by rw [h.entry] at ht; cases ht
    rw [hq] at hfollow
    cases hfollow
    rcases hg with hg | ⟨hg, -⟩
    · rw [h.entry] at hg
      cases hg
      exact hne rfl
    · rw [h.entry] at hg
      cases hg
  have hcontent : ∀ bytes file, file ≠ g → (fs₁.write g bytes).content file = fs.content file :=
    fun bytes file hfile => (fs₁.content_write_of_ne hfile bytes).trans (hopened.content file hfile)
  have hold : ∀ bytes q' e, fs.entry q' = some e → (fs₁.write g bytes).entry q' = some e :=
    fun bytes q' e he => hopened.old q' e he
  have hways : ∀ bytes, SameWays (fs₁.write g bytes) fs :=
    fun bytes => (sameWays_write _ g bytes).trans hopened.ways
  have hfiles : ∀ q' file, fs.entry q' = some (.regular file) → openRead sys fs name ≠ .ok file →
      file ≠ g := by
    rintro q' file hfile hread rfl
    rcases hg with hg | ⟨-, hg⟩
    · exact hread (openRead_eq_ok.mpr ⟨q, hq, hg⟩)
    · exact hg q' _ hfile rfl
  have hsource : ∀ bytes, Source sys (fs₁.write g bytes) src sp f :=
    fun bytes => h.congr (hways bytes) ((hold bytes sp _ h.entry).trans h.entry.symm)
  have hp₁ : resolve sys fs₁ .noFollow name = .ok p := resolve_sameWays hopened.ways hp
  rcases copyOpened_spec faults hne hsize hp₁ with hrun | ⟨e, bytes, hrun | hrun⟩
  · rw [hrun, hopened.empty, hopened.content f hne, List.nil_append]
    have hdest : contentAt sys (fs₁.write g (fs.content f)) name = some (fs.content f) := by
      rw [contentAt_eq (resolve_sameWays (hways _) hq) hopened.entry, FileSystem.content_write_self]
    exact ⟨Or.inr hdest, fun _ => hdest, fun q' e he _ _ => hold _ q' e he,
      fun q' file hfile _ hread => hcontent _ file (hfiles q' file hfile hread)⟩
  · rw [hrun]
    refine ⟨Or.inl ?_, nofun, fun q' e he _ _ => hold _ q' e he,
      fun q' file hfile _ hread => hcontent _ file (hfiles q' file hfile hread)⟩
    show contentAt sys (fs₁.write g bytes) src = _
    rw [(hsource bytes).contentAt, hcontent bytes f hne]
  · rw [hrun]
    refine ⟨Or.inl ?_, nofun, fun q' e he _ hq' => ?_,
      fun q' file hfile _ hread => hcontent _ file (hfiles q' file hfile hread)⟩
    · have hsource' : Source sys ((fs₁.write g bytes).erase p) src sp f := by
        refine ⟨?_, ?_⟩
        · exact resolve_sameWays ((hways bytes).erase p) (resolve_erase hs hp hq hnot h.path)
        · rw [FileSystem.entry_erase_of_ne _ hsp]
          exact hold bytes sp _ h.entry
      show contentAt sys ((fs₁.write g bytes).erase p) src = _
      rw [hsource'.contentAt]
      exact congrArg some (hcontent bytes f hne)
    · have hqp : q' ≠ p := by
        rintro rfl
        exact hq' hp
      show ((fs₁.write g bytes).erase p).entry q' = _
      rw [FileSystem.entry_erase_of_ne _ hqp]
      exact hold bytes q' e he

/-! ### The same file -/

/-- Where `copyFile` writes to; its argument where it fails before. -/
def destinationOf (sys : System) (fs : FileSystem) (src dest : List UInt8) : List UInt8 :=
  match copyDestination sys fs src dest with
  | .ok name => name
  | .error _ => dest

/-- When both files are opened, the destination is no name of the file of the source; or the file has
no bytes, and where the destination is the source itself it is not removed after a failure. -/
def CopySafe (sys : System) (faults : Faults) (fs : FileSystem) (src dest : List UInt8) (sp : Place) :
    Prop :=
  ∀ name f, faults.openSrc = none → faults.openDest = none → copyDestination sys fs src dest = .ok name →
    openRead sys fs src = .ok f → openRead sys fs name = .ok f →
    fs.content f = [] ∧ (resolve sys fs .noFollow name = .ok sp →
      (faults.read 0 = none ∧ faults.closeDest = none) ∨ faults.removeDest ≠ none)

/-- A copy to the same file preserves it when it has no bytes and its name stays. -/
theorem copyOpened_self_preserved_iff (hs : fs.Sound sys) (h : Source sys fs src sp f)
    (hname : openRead sys fs name = .ok f) {ulSize : ℕ} :
    Preserved sys fs src name sp f (copyOpened sys faults name f f ulSize (fs.write f [])) ↔
      fs.content f = [] ∧ (resolve sys fs .noFollow name = .ok sp →
        (faults.read 0 = none ∧ faults.closeDest = none) ∨ faults.removeDest ≠ none) := by
  obtain ⟨q, hq, hqentry⟩ := openRead_eq_ok.mp hname
  obtain ⟨p, hp⟩ := exists_noFollow hq
  have hnot : fs.entry q ≠ some .directory := by
    rw [hqentry]
    nofun
  have hways : SameWays (fs.write f []) fs := sameWays_write _ f []
  have hp₁ : resolve sys (fs.write f []) .noFollow name = .ok p := resolve_sameWays hways hp
  have hpentry : ∃ e, (fs.write f []).entry p = some e ∧ e ≠ .directory := by
    rcases hentry : fs.entry p with _ | _ | file | target
    · have hfollow := resolve_follow_of_noFollow hp fun target ht => by rw [hentry] at ht; cases ht
      rw [hq] at hfollow
      cases hfollow
      rw [hqentry] at hentry
      cases hentry
    · have hfollow := resolve_follow_of_noFollow hp fun target ht => by rw [hentry] at ht; cases ht
      rw [hq] at hfollow
      cases hfollow
      exact absurd hentry hnot
    · exact ⟨_, hentry, nofun⟩
    · exact ⟨_, hentry, nofun⟩
  -- what the paths lead to when the name is removed
  have hsrcErased : sp ≠ p → Source sys ((fs.write f []).erase p) src sp f := fun hne =>
    ⟨resolve_sameWays (hways.erase p) (resolve_erase hs hp hq hnot h.path), by
      rw [FileSystem.entry_erase_of_ne _ hne]
      exact h.entry⟩
  have hnameErased : contentAt sys ((fs.write f []).erase p) name = none :=
    contentAt_none (resolve_sameWays (hways.erase p) (resolve_erase hs hp hq hnot hp))
      (FileSystem.entry_erase_self _)
  have hempty : ∀ path q', resolve sys (fs.write f []) .follow path = .ok q' →
      (fs.write f []).entry q' = some (.regular f) →
      contentAt sys (fs.write f []) path = some [] := by
    intro path q' hpath hentry
    rw [contentAt_eq hpath hentry, FileSystem.content_write_self]
  have hsrcEmpty := hempty src sp (resolve_sameWays hways h.follow) h.entry
  have hnameEmpty := hempty name q (resolve_sameWays hways hq) hqentry
  rcases copyOpened_self sys faults name ulSize
    (fs.content_write_self f []) with ⟨hread, hclose, hafter⟩ | ⟨hfault, hafter, hfailed⟩
  · constructor
    · intro hpres
      refine ⟨?_, fun _ => Or.inl ⟨hread, hclose⟩⟩
      have hkept := hpres.kept
      rw [hafter, hsrcEmpty, hnameEmpty, or_self] at hkept
      exact (Option.some.inj hkept).symm
    · rintro ⟨hcontent, -⟩
      refine ⟨Or.inl ?_, fun _ => ?_, fun q' e he _ _ => ?_, fun q' file _ hne _ => ?_⟩
      · rw [hafter, hsrcEmpty, hcontent]
      · rw [hafter, hnameEmpty, hcontent]
      · rw [hafter]
        exact he
      · rw [hafter]
        exact fs.content_write_of_ne hne _
  · constructor
    · intro hpres
      have hkept := hpres.kept
      rw [hafter] at hkept
      rcases after_removeOr faults.removeDest hp₁ with herased | hstays
      · rw [herased, hnameErased] at hkept
        have hkept := hkept.resolve_right nofun
        have hsp : sp ≠ p := by
          rintro rfl
          rw [contentAt_none (resolve_sameWays (hways.erase _) (resolve_erase hs hp hq hnot h.path))
            (FileSystem.entry_erase_self _)] at hkept
          cases hkept
        rw [(hsrcErased hsp).contentAt] at hkept
        have hcontent := Option.some.inj hkept
        rw [FileSystem.content_erase, FileSystem.content_write_self] at hcontent
        refine ⟨hcontent.symm, fun hsame => ?_⟩
        rw [hp] at hsame
        cases hsame
        exact absurd rfl hsp
      · rw [hstays, hsrcEmpty, hnameEmpty, or_self] at hkept
        refine ⟨(Option.some.inj hkept).symm, fun _ => Or.inr fun hnone => ?_⟩
        obtain ⟨e, he, hdirectory⟩ := hpentry
        rw [hnone, removeOr_none hp₁ he hdirectory] at hstays
        have hp₂ : (after (EStateM.Result.ok () ((fs.write f []).erase p) :
            EStateM.Result FileIOError FileSystem Unit)).entry p = none := FileSystem.entry_erase_self _
        rw [hstays, he] at hp₂
        cases hp₂
    · rintro ⟨hcontent, hsame⟩
      have hfailed' : error? (copyOpened sys faults name f f ulSize (fs.write f [])) ≠ none :=
        Option.isSome_iff_ne_none.mp hfailed
      rcases after_removeOr faults.removeDest hp₁ with herased | hstays
      · by_cases hsp : sp = p
        · -- the source itself would be removed: the removal fails
          subst hsp
          have hnone := (hsame hp).resolve_left hfault
          obtain ⟨e, he⟩ := removeOr_fault sys name hnone (fs.write f [])
          rw [he] at herased
          have hp₂ : (fs.write f []).entry sp = none := by
            have hself : ((fs.write f []).erase sp).entry sp = none := FileSystem.entry_erase_self _
            rw [← herased] at hself
            exact hself
          exact absurd (hp₂.symm.trans h.entry) nofun
        · refine ⟨Or.inl ?_, fun hok => absurd hok hfailed', fun q' e he _ hq' => ?_,
            fun q' file _ hne _ => ?_⟩
          · rw [hafter, herased, (hsrcErased hsp).contentAt, FileSystem.content_erase,
              FileSystem.content_write_self, hcontent]
          · have hqp : q' ≠ p := by
              rintro rfl
              exact hq' hp
            rw [hafter, herased, FileSystem.entry_erase_of_ne _ hqp]
            exact he
          · rw [hafter, herased]
            exact fs.content_write_of_ne hne _
      · refine ⟨Or.inl ?_, fun hok => absurd hok hfailed', fun q' e he _ _ => ?_, fun q' file _ hne _ => ?_⟩
        · rw [hafter, hstays, hsrcEmpty, hcontent]
        · rw [hafter, hstays]
          exact he
        · rw [hafter, hstays]
          exact fs.content_write_of_ne hne _

/-! ### `copyFile` -/

/-- The buffer is not empty. -/
theorem exists_bufferSize (h : Source sys fs src sp f) (ulBufferSizeToBeUsed : ℕ) :
    ∃ ulSize, 0 < ulSize ∧
      ulLocalBufferSizeToBeUsed sys fs src ulBufferSizeToBeUsed = .ok ulSize := by
  have hsize : getFileSizeInBytes sys fs src = .ok (fs.content f).length := by
    unfold getFileSizeInBytes
    rw [lstat_eq h.path h.entry]
  unfold ulLocalBufferSizeToBeUsed
  rw [hsize]
  by_cases hzero : ulBufferSizeToBeUsed = 0
  · rw [if_pos hzero]
    refine ⟨_, ?_, rfl⟩
    by_cases h30 : 30 * 1000 * 1024 ≤ (fs.content f).length
    · rw [if_pos h30]
      decide
    · rw [if_neg h30]
      by_cases h10 : 10 * 1000 * 1024 ≤ (fs.content f).length
      · rw [if_pos h10]
        decide
      · rw [if_neg h10]
        by_cases h5 : 5 * 1000 * 1024 ≤ (fs.content f).length
        · rw [if_pos h5]
          decide
        · rw [if_neg h5]
          by_cases h0 : (fs.content f).length = 0
          · rw [if_pos h0]
            decide
          · rw [if_neg h0]
            exact Nat.pos_of_ne_zero h0
  · rw [if_neg hzero]
    exact ⟨_, Nat.pos_of_ne_zero hzero, rfl⟩

/-- `copyFile` opens both files, or it fails and leaves everything as it was. -/
theorem copyFile_cases (faults : Faults) (dest : List UInt8) (h : Source sys fs src sp f) (ulBufferSizeToBeUsed : ℕ) :
    (∃ e, copyFile sys faults src dest ulBufferSizeToBeUsed fs = .error e fs ∧
      ∀ name, faults.openSrc = none → faults.openDest = none →
        copyDestination sys fs src dest = .ok name → ∀ g fs', openWrite sys fs true name ≠ .ok (g, fs')) ∨
    ∃ name g fs' ulSize, faults.openSrc = none ∧ faults.openDest = none ∧
      copyDestination sys fs src dest = .ok name ∧ openWrite sys fs true name = .ok (g, fs') ∧ 0 < ulSize ∧
      copyFile sys faults src dest ulBufferSizeToBeUsed fs =
        copyOpened sys faults name f g ulSize fs' := by
  obtain ⟨ulSize, hpos, hsize⟩ := exists_bufferSize h ulBufferSizeToBeUsed
  have hstart : copyFile sys faults src dest ulBufferSizeToBeUsed fs = _ := bind_ok (look_ok hsize)
  rw [hstart]
  rcases hdest : copyDestination sys fs src dest with e | name
  · have hlook : look (fun fs => copyDestination sys fs src dest) fs = .error e fs := look_error hdest
    exact Or.inl ⟨e, bind_error hlook, fun _ _ _ hname => nomatch hname⟩
  · have hlook : look (fun fs => copyDestination sys fs src dest) fs = .ok name fs := look_ok hdest
    rw [bind_ok hlook]
    by_cases hsrc : faults.openSrc = none
    · have hopen : openSource sys faults.openSrc src fs = .ok f fs := by
        rw [hsrc]
        refine (bind_ok rfl).trans (look_ok ?_)
        rw [h.openRead]
      rw [bind_ok hopen]
      by_cases htarget : faults.openDest = none
      · have hstep : openTarget sys faults.openDest true name fs = _ :=
          bind_ok (show step faults.openDest FileIOError.openFailed fs = .ok () fs by rw [htarget]; rfl)
        rcases hwrite : openWrite sys fs true name with errno | ⟨g, fs'⟩
        · refine Or.inl ⟨.openFailed errno, ?_, ?_⟩
          · refine bind_error ?_
            rw [hstep, hwrite]
          · rintro name' - - hname' g fs' hopened
            cases hname'
            rw [hwrite] at hopened
            cases hopened
        · refine Or.inr ⟨name, g, fs', ulSize, hsrc, htarget, rfl, hwrite, hpos, ?_⟩
          refine bind_ok ?_
          rw [hstep, hwrite]
      · obtain ⟨e, he⟩ := step_some htarget FileIOError.openFailed fs
        exact Or.inl ⟨e, bind_error (bind_error he), fun _ _ hnone => absurd hnone htarget⟩
    · obtain ⟨e, he⟩ := step_some hsrc FileIOError.openFailed fs
      exact Or.inl ⟨e, bind_error (bind_error he), fun _ hnone => absurd hnone hsrc⟩

/-- A file that is read through a path is opened by it too. -/
theorem openWrite_of_openRead (h : openRead sys fs name = .ok f) :
    openWrite sys fs true name = .ok (f, fs.write f []) := by
  obtain ⟨q, hq, hentry⟩ := openRead_eq_ok.mp h
  exact openWrite_eq_ok.mpr ⟨q, hq, Or.inl ⟨hentry, rfl⟩⟩

/-- **What `copyFile` preserves**, whatever steps fail. -/
theorem copyFile_preserved_iff (hs : fs.Sound sys) (h : Source sys fs src sp f)
    (ulBufferSizeToBeUsed : ℕ) :
    Preserved sys fs src (destinationOf sys fs src dest) sp f
        (copyFile sys faults src dest ulBufferSizeToBeUsed fs) ↔
      CopySafe sys faults fs src dest sp := by
  rcases copyFile_cases faults dest h ulBufferSizeToBeUsed with
    ⟨e, hrun, hnever⟩ | ⟨name, g, fs', ulSize, hopenSrc, hopenDest, hname, hwrite, hpos, hrun⟩
  · rw [hrun]
    refine ⟨fun _ name f' hopenSrc hopenDest hname _ hread => ?_, fun _ => ?_⟩
    · exact absurd (openWrite_of_openRead hread) (hnever name hopenSrc hopenDest hname _ _)
    · exact preserved_of_unchanged h nofun rfl
  · have hdest : destinationOf sys fs src dest = name := by
      unfold destinationOf
      rw [hname]
    rw [hrun, hdest]
    by_cases hsame : openRead sys fs name = .ok f
    · rw [openWrite_of_openRead hsame] at hwrite
      cases hwrite
      rw [copyOpened_self_preserved_iff hs h hsame]
      constructor
      · intro hsafe name' f' _ _ hname' hsrc' hread'
        rw [hname] at hname'
        cases hname'
        rw [h.openRead] at hsrc'
        cases hsrc'
        exact hsafe
      · intro hsafe
        exact hsafe name f hopenSrc hopenDest hname h.openRead hsame
    · obtain ⟨q, hq, hopened, hg⟩ := opened_of_openWrite hs hwrite
      have hne : f ≠ g := by
        rintro rfl
        rcases hg with ⟨hg, -⟩ | ⟨-, hg⟩
        · exact hsame (openRead_eq_ok.mpr ⟨q, hq, hg⟩)
        · exact hg sp _ h.entry rfl
      constructor
      · intro _ name' f' _ _ hname' hsrc' hread'
        rw [hname] at hname'
        cases hname'
        rw [h.openRead] at hsrc'
        cases hsrc'
        exact absurd hread' hsame
      · intro _
        exact copyOpened_preserved hs h hne hpos hq hopened (hg.imp_left And.left)

end FileIO

end CatraLibraries
