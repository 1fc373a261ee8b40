/-
# Making a directory and those above it

`FileIO::createDirectory` with `bRecursive` (`Tools/src/FileIO.cpp`), among other processes that make
the directories above the same path at any time.  The text is cut at its last slash; what is in front is
made first, where it is no directory yet, and an entry that is there then is no error.  For the path
itself it is one unless `bNoErrorIfExists`.

So a path that ends in a slash, in "." or in "..", or that comes back to a directory it has made, fails
without `bNoErrorIfExists`: the last `mkdir` finds what the ones before it have made.
-/
import CatraLibraries.FileIO.MoveLink
import CatraLibraries.Lib.NewDirectories

namespace CatraLibraries

open Posix Effects
open Paths (Name components Stays components_append)

namespace FileIO

/-! ### Calls among other processes -/

/-- The file system, and the paths at which other processes make directories before each of the calls
to come. -/
structure Shared where
  fs : FileSystem
  turns : ℕ → List (List UInt8)

/-- A method of `FileIO` among other processes. -/
abbrev SharedMethod := EStateM FileIOError Shared

variable (sys : System) (iErrno : Errno)

/-- Another process makes a directory, or fails to. -/
def made (fs : FileSystem) (path : List UInt8) : FileSystem :=
  match mkdir sys fs path with
  | .ok fs' => fs'
  | .error _ => fs

/-- The other processes have their turn. -/
def Shared.turn (s : Shared) : Shared :=
  ⟨(s.turns 0).foldl (made sys) s.fs, fun n => s.turns (n + 1)⟩

/-- A call that looks at the file system. -/
def called {α : Type} (f : FileSystem → Except FileIOError α) : SharedMethod α :=
  fun s => look (fun s => f s.fs) (s.turn sys)

/-- `openDirectory`, call by call. -/
def openDirectoryShared (pDirectoryPathName : List UInt8) : SharedMethod Directory := do
  let pPathName := unslashed pDirectoryPathName
  match ← called sys fun fs => getDirectoryEntryType sys fs pPathName with
  | .linkFile => do
    let pRealPathName ← called sys fun fs => readLink sys fs pPathName 512
    called sys fun fs => openAt sys fs pPathName pRealPathName
  | _ => called sys fun fs => openAt sys fs pPathName pPathName

/-- `isDirectoryExisting`; `iErrno` is what the variable of this name holds before it is set, which an
error that keeps no `errno` leaves there. -/
def isDirectoryExistingShared (pDirectoryPathName : List UInt8) : SharedMethod Bool := fun s =>
  match openDirectoryShared sys pDirectoryPathName s with
  | .ok _ s' => .ok true s'
  | .error errDir s' =>
    let iErrno := errDir.getUserData.getD iErrno
    if iErrno = .ENOENT ∨ iErrno = .ENOTDIR then .ok false s' else .error errDir s'

/-! ### `createDirectory` -/

/-- What is in front of the last slash; `none` where there is no slash, or nothing in front of it. -/
def previousDirectory (pPathName : List UInt8) : Option (List UInt8) :=
  match (pPathName.rdropWhile (· ≠ 47)).dropLast with
  | [] => none
  | b :: path => some (b :: path)

/-- An error that says that the entry exists is none. -/
def unlessExists (x : SharedMethod Unit) : SharedMethod Unit := fun s =>
  match x s with
  | .ok u s' => .ok u s'
  | .error errFileIO s' =>
    if errFileIO.getUserData.getD iErrno = .EEXIST then .ok () s' else .error errFileIO s'

/-- The `mkdir` at the end. -/
def mkdirDirectory (pPathName : List UInt8) (bNoErrorIfExists : Bool) : SharedMethod Unit := fun s =>
  match mkdir sys (s.turn sys).fs pPathName with
  | .ok fs' => .ok () ⟨fs', (s.turn sys).turns⟩
  | .error errno =>
    if bNoErrorIfExists ∧ errno = .EEXIST then .ok () (s.turn sys)
    else .error (.mkdirFailed errno) (s.turn sys)

/-- What comes before the `mkdir`; `createPrevious` is the recursive call. -/
def createPreviousDirectory (createPrevious : List UInt8 → SharedMethod Unit) (pPathName : List UInt8) :
    SharedMethod Unit :=
  match previousDirectory pPathName with
  | none => pure ()
  | some bPreviousDirectory => do
    if ¬(← isDirectoryExistingShared sys iErrno bPreviousDirectory) then
      unlessExists iErrno (createPrevious bPreviousDirectory)

/-- `createDirectory`; the number bounds the depth of the recursion. -/
def createDirectory : ℕ → List UInt8 → Bool → Bool → SharedMethod Unit
  | 0, _, _, _ => throw .unfinished
  | depth + 1, pPathName, bNoErrorIfExists, bRecursive => do
    if bRecursive then
      createPreviousDirectory sys iErrno (fun bPreviousDirectory =>
        createDirectory depth bPreviousDirectory true bRecursive) pPathName
    mkdirDirectory sys pPathName bNoErrorIfExists

/-! ### The text of a path -/

/-- What is in front of a slash of a path. -/
def Before (pDirectory pPathName : List UInt8) : Prop := ∃ rest, pDirectory ++ 47 :: rest = pPathName

variable {sys iErrno} {fs fs' : FileSystem} {path dir : List UInt8} {w w' : Way} {s s' : Shared}
    {p q : Place}
  {m : ℕ} {cs : List Name}

theorem Before.components (h : Before dir path) :
    ∃ rest, rest ≠ [] ∧ components path = components dir ++ rest := by
  obtain ⟨rest, rfl⟩ := h
  exact ⟨_, List.splitOn_ne_nil 47 rest, components_append dir rest⟩

theorem Before.trans {dir' : List UInt8} (h : Before dir' dir) (h' : Before dir path) :
    Before dir' path := by
  obtain ⟨rest, rfl⟩ := h
  obtain ⟨rest', rfl⟩ := h'
  exact ⟨rest ++ 47 :: rest', by rw [List.append_assoc, List.cons_append]⟩

theorem Before.length_lt (h : Before dir path) : dir.length < path.length := by
  obtain ⟨rest, rfl⟩ := h
  rw [List.length_append, List.length_cons]
  omega

theorem Before.head? (h : Before dir path) (hne : dir ≠ []) : dir.head? = path.head? := by
  obtain ⟨rest, rfl⟩ := h
  obtain ⟨b, dir, rfl⟩ := List.exists_cons_of_ne_nil hne
  rfl

theorem Before.start (h : Before dir path) (hne : dir ≠ []) :
    start dir sys.cwd = start path sys.cwd := by
  unfold Posix.start
  rw [h.head? hne]

theorem Before.accepts (h : Before dir path) (hne : dir ≠ []) (haccepts : Accepts sys fs path) :
    Accepts sys fs dir :=
  ⟨hne, h.length_lt.trans haccepts.fits, by rw [h.head? hne]; exact haccepts.base⟩

/-- A text is cut at its last slash. -/
theorem cut_at_slash (path : List UInt8) :
    (47 ∉ path ∧ path.rdropWhile (· ≠ 47) = []) ∨
      ∃ dir tail, 47 ∉ tail ∧ dir ++ 47 :: tail = path ∧ path.rdropWhile (· ≠ 47) = dir ++ [47] := by
  rcases hcut : path.rdropWhile (· ≠ 47) with _ | ⟨b, text⟩
  · refine Or.inl ⟨fun hmem => ?_, hcut⟩
    have hne := List.rdropWhile_eq_nil_iff.mp hcut 47 hmem
    simp at hne
  · have hne : path.rdropWhile (· ≠ 47) ≠ [] := by rw [hcut]; exact List.cons_ne_nil b text
    obtain ⟨dir, last, hdir⟩ := (List.eq_nil_or_concat' (path.rdropWhile (· ≠ 47))).resolve_left hne
    have hlast : last = 47 := by
      have hnot := List.rdropWhile_last_not _ _ hne
      simp only [hdir, List.getLast_concat, decide_eq_true_eq, not_not] at hnot
      exact hnot
    refine Or.inr ⟨dir, path.rtakeWhile (· ≠ 47), fun hmem => ?_, ?_, ?_⟩
    · have hne' := List.mem_rtakeWhile_imp hmem
      simp at hne'
    · have happend :=
        List.rdropWhile_append_rtakeWhile (p := fun b : UInt8 => decide (b ≠ 47)) (l := path)
      rwa [hdir, hlast, List.append_assoc, List.singleton_append] at happend
    · rw [hdir, hlast]

theorem previousDirectory_some (h : previousDirectory path = some dir) :
    dir ≠ [] ∧ ∃ tail, 47 ∉ tail ∧ dir ++ 47 :: tail = path := by
  unfold previousDirectory at h
  rcases cut_at_slash path with ⟨-, hcut⟩ | ⟨dir', tail, htail, hpath, hcut⟩
  · rw [hcut] at h
    cases h
  · rw [hcut, List.dropLast_concat] at h
    rcases dir' with _ | ⟨b, dir'⟩
    · cases h
    · cases h
      exact ⟨List.cons_ne_nil _ _, tail, htail, hpath⟩

theorem previousDirectory_none (h : previousDirectory path = none) :
    47 ∉ path ∨ ∃ tail, 47 ∉ tail ∧ 47 :: tail = path := by
  unfold previousDirectory at h
  rcases cut_at_slash path with ⟨hpath, -⟩ | ⟨dir', tail, htail, hpath, hcut⟩
  · exact Or.inl hpath
  · rw [hcut, List.dropLast_concat] at h
    rcases dir' with _ | ⟨b, dir'⟩
    · exact Or.inr ⟨tail, htail, hpath⟩
    · cases h

/-- The components of a path: those of the text in front of the last slash, and one more. -/
theorem components_previous (path : List UInt8) : ∃ tail, 47 ∉ tail ∧
    (previousDirectory path = none ∧
        (components path = [tail] ∨ path.head? = some 47 ∧ components path = [[], tail]) ∨
      ∃ dir, previousDirectory path = some dir ∧ dir ≠ [] ∧ dir ++ 47 :: tail = path ∧
        components path = components dir ++ [tail]) := by
  rcases hprevious : previousDirectory path with _ | dir
  · rcases previousDirectory_none hprevious with hpath | ⟨tail, htail, rfl⟩
    · exact ⟨path, hpath, Or.inl ⟨rfl, Or.inl (List.splitOn_eq_singleton hpath)⟩⟩
    · refine ⟨tail, htail, Or.inl ⟨rfl, Or.inr ⟨rfl, ?_⟩⟩⟩
      rw [components_slash_append, components, List.splitOn_eq_singleton htail]
  · obtain ⟨hne, tail, htail, rfl⟩ := previousDirectory_some hprevious
    refine ⟨tail, htail, Or.inr ⟨dir, rfl, hne, rfl, ?_⟩⟩
    rw [components_append, components, components, List.splitOn_eq_singleton htail]

/-! ### What the calls tell on the way -/

/-- A way on which all directories can be made. -/
structure Growing (sys : System) (fs₀ : FileSystem) (path : List UInt8) (cs : List Name)
    (w : Way) : Prop where
  sound : fs₀.Sound sys
  texts : ∀ p, fs₀.entry p ≠ some (.link [])
  accepts : Accepts sys fs₀ path
  components : cs <+: Paths.components path
  grow : grow sys ⟨fs₀, start path sys.cwd, sys.linkMax⟩ cs = .ok w

/-- A file system on this way. -/
abbrev OnWay (sys : System) (fs₀ : FileSystem) (path : List UInt8) (cs : List Name)
    (fs : FileSystem) : Prop :=
  Between sys ⟨fs₀, start path sys.cwd, sys.linkMax⟩ cs fs

/-- A path leads to a directory, from where another one begins. -/
def IsDirectory (sys : System) (fs : FileSystem) (path : List UInt8) (dir : List UInt8) : Prop :=
  ∃ r, walk sys fs .directory sys.linkMax (start path sys.cwd) (components dir) = .ok r

variable {fs₀ : FileSystem}

theorem IsDirectory.of_before {dir' : List UInt8} (h : IsDirectory sys fs path dir)
    (hbefore : Before dir' dir) :
    IsDirectory sys fs path dir' := by
  obtain ⟨r, hr⟩ := h
  obtain ⟨rest, -, hcs⟩ := hbefore.components
  rw [hcs] at hr
  obtain ⟨q, m, hwalk⟩ := walk_directory_prefix hr
  exact ⟨(q, m), hwalk⟩

theorem components_unslashed (dir : List UInt8) :
    components dir = components (unslashed dir) ∨
      components dir = components (unslashed dir) ++ [[]] := by
  unfold unslashed
  split
  · next h =>
    refine Or.inr ?_
    obtain ⟨dir', rfl⟩ : ∃ dir', dir = dir' ++ [47] :=
      ⟨dir.dropLast, (List.dropLast_append_getLast? 47 h).symm⟩
    rw [List.dropLast_concat, components_append]
    rfl
  · exact Or.inl rfl

theorem walk_unslashed {links : ℕ} {d : Place} {r : Place × ℕ} :
    walk sys fs .directory links d (components (unslashed dir)) = .ok r ↔
      walk sys fs .directory links d (components dir) = .ok r := by
  rcases components_unslashed dir with h | h
  · rw [h]
  · rw [h]
    constructor
    · intro hwalk
      rw [walk_directory_append hwalk, walk_stays (Or.inl rfl), walk_nil]
    · intro hwalk
      obtain ⟨q, m, hwalk'⟩ := walk_directory_prefix hwalk
      rw [walk_directory_append hwalk', walk_stays (Or.inl rfl), walk_nil] at hwalk
      rwa [← Except.ok.inj hwalk]

theorem beginning_unslashed (dir : List UInt8) : unslashed dir <+: dir := by
  unfold unslashed
  split
  · exact List.dropLast_prefix dir
  · exact List.prefix_refl dir

theorem eq_slash_of_unslashed (hne : dir ≠ []) (h : unslashed dir = []) : dir = [47] := by
  unfold unslashed at h
  split at h
  · next hlast =>
    rw [← List.dropLast_append_getLast? 47 hlast, h]
    rfl
  · exact absurd h hne

theorem accepts_unslashed (haccepts : Accepts sys fs dir) (hne : unslashed dir ≠ []) :
    Accepts sys fs (unslashed dir) ∧ start (unslashed dir) sys.cwd = start dir sys.cwd := by
  obtain ⟨rest, hrest⟩ := beginning_unslashed dir
  have hhead : (unslashed dir).head? = dir.head? := by
    obtain ⟨b, text, htext⟩ := List.exists_cons_of_ne_nil hne
    rw [htext, ← hrest, htext]
    rfl
  refine ⟨⟨hne, ?_, by rw [hhead]; exact haccepts.base⟩, ?_⟩
  · exact Nat.lt_of_le_of_lt (beginning_unslashed dir).length_le haccepts.fits
  · unfold Posix.start
    rw [hhead]

/-- What is told of an entry is ENOENT as long as it is missing, and else that it is a directory or a
link. -/
theorem getDirectoryEntryType_spec (hg : Growing sys fs₀ path cs w) (hon : OnWay sys fs₀ path cs fs)
    (hbefore : Before dir path) (hne : dir ≠ []) (hcs : components dir <+: cs) :
    (getDirectoryEntryType sys fs (unslashed dir) = .error (.lstatFailed .ENOENT) ∧
        (dir = [47] ∨ ¬IsDirectory sys fs path dir)) ∨
      IsDirectory sys fs path dir ∧ Accepts sys fs (unslashed dir) ∧
        start (unslashed dir) sys.cwd = start path sys.cwd ∧
        ∃ p m, walk sys fs .noFollow sys.linkMax (start path sys.cwd)
          (components (unslashed dir)) = .ok (p, m) ∧
          (fs.entry p = some .directory ∨ ∃ target, fs.entry p = some (.link target)) := by
  by_cases hempty : unslashed dir = []
  · refine Or.inl ⟨?_, Or.inl (eq_slash_of_unslashed hne hempty)⟩
    rw [hempty]
    rfl
  have haccepts := hbefore.accepts hne (hg.accepts.enlarged hon.low)
  obtain ⟨haccepts', hstart⟩ := accepts_unslashed haccepts hempty
  rw [hbefore.start hne] at hstart
  have hdir : fs.entry (start path sys.cwd) = some .directory :=
    hon.sound.start (hg.accepts.enlarged hon.low).base
  by_cases hthere : IsDirectory sys fs path dir
  · obtain ⟨r, hwalk⟩ := hthere
    exact Or.inr ⟨⟨r, hwalk⟩, haccepts', hstart,
      walk_own_name hon.sound.tree hdir (walk_unslashed.mpr hwalk)⟩
  refine Or.inl ⟨?_, Or.inr hthere⟩
  have hlimit := limit_of_grow hg.grow
  have hhigh : Enlarged fs w.fs := hlimit ▸ hon.high
  obtain ⟨rest, hrest⟩ := hcs
  obtain ⟨rest', hrest'⟩ : ∃ rest', components (unslashed dir) ++ rest' = cs := by
    rcases components_unslashed dir with h | h
    · exact ⟨rest, by rw [← h]; exact hrest⟩
    · exact ⟨[] :: rest, by rw [← hrest, h, List.append_assoc]; rfl⟩
  -- in the end there is a directory or a link
  obtain ⟨q, m', hend⟩ := walk_directory_prefix (hrest'.symm ▸ (grows_of_grow hg.grow).walk)
  have hstart₀ := hg.sound.start hg.accepts.base
  have hsound := hg.sound.grow hstart₀
      (fun c hc => slash_notMem_components (hg.components.subset hc)) hg.grow
  obtain ⟨p, m, hp, hentry⟩ :=
    walk_own_name hsound.tree ((grows_of_grow hg.grow).enlarged.kept _ _ hstart₀) hend
  have hmissing : resolve sys fs .noFollow (unslashed dir) = .error .ENOENT ∨
      ∃ p, resolve sys fs .noFollow (unslashed dir) = .ok p ∧ fs.entry p = none := by
    rw [haccepts'.resolve_eq, hstart]
    rcases walk_of_enlarged hhigh hp with hnow | hmissing
    · refine Or.inr ⟨p, by rw [hnow]; rfl, ?_⟩
      rcases hentry' : fs.entry p with _ | e
      · rfl
      · rw [hhigh.kept _ _ hentry'] at hentry
        refine absurd ?_ hthere
        rcases hentry with hentry | ⟨target, hentry⟩
        · cases hentry
          exact ⟨_, walk_unslashed.mp (walk_of_noFollow hnow (Or.inl hentry'))⟩
        · cases hentry
          have hgrow := hg.grow
          rw [← hrest'] at hgrow
          obtain ⟨r, hr⟩ := walk_link_of_grow hgrow hon.low hhigh hon.sound.tree hdir hnow hentry'
          exact ⟨r, walk_unslashed.mp hr⟩
    · exact Or.inl (by rw [hmissing]; rfl)
  unfold getDirectoryEntryType
  rw [lstat_missing hmissing]

/-! ### What a link tells -/

/-- The link at the end of a text can be read, and its text can be opened. -/
def LinkFits (sys : System) (fs : FileSystem) (path dir : List UInt8) : Prop :=
  ∀ p m target, walk sys fs .noFollow sys.linkMax (start path sys.cwd)
    (components (unslashed dir)) = .ok (p, m) →
    fs.entry p = some (.link target) →
    (linkText (unslashed dir) target).length < 512 ∧
      (linkText (unslashed dir) target).length < sys.pathMax

theorem readLink_eq_text {target : List UInt8} (hpath : resolve sys fs .noFollow path = .ok p)
    (hp : fs.entry p = some (.link target)) :
    readLink sys fs path 512 =
      if (linkText path target).length < 512 then .ok (linkText path target)
      else .error .bufferTooSmall := by
  have hread : readlink sys fs path 512 = .ok (target.take 512) := by
    unfold readlink
    rw [hpath]
    dsimp only [bind, Except.bind]
    rw [hp]
  by_cases hlong : 512 ≤ target.length
  · have hcut : (target.take 512).length = 512 := List.length_take_of_le hlong
    have htext : ¬(linkText path target).length < 512 := by
      unfold linkText
      split
      · omega
      · rw [List.length_append]
        omega
    unfold readLink
    rw [hread, if_neg htext]
    dsimp only
    rw [if_pos hcut.ge]
  · have hwhole : target.take 512 = target := List.take_of_length_le (by omega)
    rw [hwhole] at hread
    rw [readLink_eq hread hlong]
    unfold linkText
    by_cases habs : target.head? = some 47
    · rw [if_pos habs, if_pos habs, if_pos (Nat.not_le.mp hlong)]
    · rw [if_neg habs, if_neg habs, List.length_append]
      by_cases hsum : path.rdropWhile (· ≠ 47) ≠ [] ∧
          512 ≤ target.length + (path.rdropWhile (· ≠ 47)).length
      · rw [if_pos hsum, if_neg (by omega)]
      · rw [if_neg hsum, if_pos ?_]
        by_cases hdir : path.rdropWhile (· ≠ 47) = []
        · rw [hdir, List.length_nil, Nat.zero_add]
          exact Nat.not_le.mp hlong
        · have hshort := not_and.mp hsum hdir
          omega

/-- **The text of a link leads where the link leads.** -/
theorem walk_linkText {target : List UInt8} {r : Place × ℕ} (ht : fs.Tree sys)
    (hdir : fs.entry (start path sys.cwd) = some .directory)
    (hp : walk sys fs .noFollow sys.linkMax (start path sys.cwd) (components path) = .ok (p, m))
    (hlink : fs.entry p = some (.link target))
    (hwalk : walk sys fs .directory sys.linkMax (start path sys.cwd) (components path) = .ok r) :
    ∃ r, walk sys fs .directory sys.linkMax (start (linkText path target) sys.cwd)
      (components (linkText path target)) = .ok r := by
  obtain ⟨ds, c, q, n, hcs, hq, hs, hu, -, hhere⟩ := walk_to_link ht hdir hp hlink
  rw [hcs] at hwalk
  obtain ⟨k, rfl, htext⟩ := walk_link_text hs hu hq hhere hwalk
  unfold linkText
  by_cases habs : target.head? = some 47
  · rw [if_pos habs]
    obtain ⟨i, hi⟩ := Nat.exists_eq_add_of_le (Nat.le_of_succ_le (walk_left hq))
    have hstart : start target sys.cwd = start target q := by
      unfold start
      rw [if_pos habs, if_pos habs]
    rw [hstart, hi]
    exact ⟨_, walk_more i htext⟩
  · have hrelative : ∀ d, start target d = d := fun d => if_neg habs
    rw [if_neg habs]
    rw [hrelative] at htext
    rcases cut_at_slash path with ⟨hslash, hcut⟩ | ⟨dir, tail, htail, rfl, hcut⟩
    · have hone : ds ++ [c] = [path] := hcs.symm.trans (List.splitOn_eq_singleton hslash)
      obtain ⟨rfl, -⟩ := List.append_inj' (hone.trans (List.nil_append _).symm) rfl
      rw [walk_nil] at hq
      have hstart : start path sys.cwd = sys.cwd :=
        if_neg fun hhead => hslash (List.mem_of_mem_head? hhead)
      rw [hstart] at hq
      obtain ⟨rfl, hmax⟩ := Prod.mk.inj (Except.ok.inj hq)
      rw [hcut, List.nil_append, hrelative, hmax]
      exact ⟨_, walk_more 1 htext⟩
    · have hparts : ds ++ [c] = components dir ++ [tail] := by
        rw [← hcs, components_append, components, components, List.splitOn_eq_singleton htail]
      obtain ⟨rfl, -⟩ := List.append_inj' hparts rfl
      have hstart : start (dir ++ 47 :: target) sys.cwd = start (dir ++ 47 :: tail) sys.cwd := by
        unfold start
        rcases dir with _ | ⟨b, dir⟩
        · rfl
        · rfl
      rw [hcut, List.append_assoc, List.singleton_append, hstart, components_append,
        walk_directory_append hq]
      exact ⟨_, walk_more 1 htext⟩

/-! ### The other processes -/

/-- The other processes make directories only in front of slashes of the path. -/
def Shared.Fair (s : Shared) (path : List UInt8) : Prop := ∀ n, ∀ dir ∈ s.turns n, Before dir path

/-- The turns behind one in which nothing is made. -/
def behindEmpty (turns : ℕ → List (List UInt8)) : ℕ → List (List UInt8)
  | 0 => []
  | n + 1 => turns n

/-- The other processes make nothing. -/
theorem fair_nothing (fs : FileSystem) (path : List UInt8) : Shared.Fair ⟨fs, fun _ => []⟩ path :=
  fun _ _ hmem => nomatch hmem

theorem Shared.Fair.turn (h : s.Fair path) : (s.turn sys).Fair path := fun n => h (n + 1)

/-- What stays true whenever a directory is made in front of a slash. -/
def Stable (sys : System) (path : List UInt8) (J : FileSystem → Prop) : Prop :=
  ∀ fs fs' dir, J fs → Before dir path → mkdir sys fs dir = .ok fs' → J fs'

theorem Stable.other {J : FileSystem → Prop} (hk : Stable sys path J) (h : J fs)
    (hbefore : Before dir path) :
    J (made sys fs dir) := by
  unfold made
  rcases hrun : mkdir sys fs dir with e | fs'
  · exact h
  · exact hk _ _ _ h hbefore hrun

theorem Stable.foldl {J : FileSystem → Prop} (hk : Stable sys path J) (dirs : List (List UInt8))
    (h : J fs)
    (hbefore : ∀ dir ∈ dirs, Before dir path) : J (dirs.foldl (made sys) fs) := by
  induction dirs generalizing fs with
  | nil => exact h
  | cons dir dirs ih =>
    exact ih (hk.other h (hbefore _ List.mem_cons_self)) fun d hd =>
      hbefore d (List.mem_cons_of_mem _ hd)

theorem Stable.turn {J : FileSystem → Prop} (hk : Stable sys path J) (hfair : s.Fair path) (h : J s.fs) :
    J (s.turn sys).fs :=
  hk.foldl _ h (hfair 0)

/-- A file system that is still sound, and has grown. -/
def Later (sys : System) (fs fs' : FileSystem) : Prop := fs'.Sound sys ∧ Enlarged fs fs'

theorem later_mkdir (h : Later sys fs fs') {fs'' : FileSystem} (hmade : mkdir sys fs' dir = .ok fs'') :
    Later sys fs fs'' := by
  obtain ⟨-, ds, c, q, m, -, -, hc, hfits, hq, hnone, rfl⟩ := mkdir_eq_ok h.1 hmade
  exact ⟨h.1.insert hq hc hfits hnone, h.2.trans (enlarged_insert hnone)⟩

theorem kept_later (sys : System) (fs : FileSystem) (path : List UInt8) :
    Stable sys path (Later sys fs) :=
  fun _ _ _ h _ hmade => later_mkdir h hmade

theorem turn_later (hs : s.fs.Sound sys) (hfair : s.Fair path) : Later sys s.fs (s.turn sys).fs :=
  (kept_later sys s.fs path).turn hfair ⟨hs, Enlarged.refl _⟩

/-- The components in front of a slash. -/
theorem prefix_dropLast (h : Before dir path) : components dir <+: (components path).dropLast := by
  obtain ⟨rest, hne, hcs⟩ := h.components
  rw [hcs, List.dropLast_append_of_ne_nil hne]
  exact List.prefix_append _ _

/-- All that is made in front of slashes is made on the way. -/
theorem kept_onWay (sys : System) (fs₀ : FileSystem) (hcs : (components path).dropLast <+: cs) :
    Stable sys path (OnWay sys fs₀ path cs) := by
  intro fs fs' dir hon hbefore hmade
  exact hon.mkdir rfl (fun hne => hbefore.start hne) ((prefix_dropLast hbefore).trans hcs) hmade

/-! ### What `isDirectoryExisting` tells -/

theorem called_ok {α : Type} {f : FileSystem → Except FileIOError α} {a : α}
    (h : f (s.turn sys).fs = .ok a) : called sys f s = .ok a (s.turn sys) :=
  look_ok (g := fun s : Shared => f s.fs) h

theorem called_error {α : Type} {f : FileSystem → Except FileIOError α} {e : FileIOError}
    (h : f (s.turn sys).fs = .error e) : called sys f s = .error e (s.turn sys) :=
  look_error (g := fun s : Shared => f s.fs) h

theorem openAt_ok (path : List UInt8) {text : List UInt8} {r : Place × ℕ}
    (haccepts : Accepts sys fs text)
    (hwalk : walk sys fs .directory sys.linkMax (start text sys.cwd) (components text) = .ok r) :
    openAt sys fs path text = .ok ⟨path, sys.readdir fs r.1⟩ := by
  unfold openAt
  rw [opendir_eq (haccepts.resolve hwalk)]

theorem linkText_ne_nil {target : List UInt8} (hne : target ≠ []) : linkText path target ≠ [] := by
  unfold linkText
  split
  · exact hne
  · exact List.append_ne_nil_of_right_ne_nil _ hne

/-- A text of a link is accepted where the path of the link is. -/
theorem accepts_linkText {target : List UInt8} (haccepts : Accepts sys fs path) (hne : target ≠ [])
    (hfits : (linkText path target).length < sys.pathMax) : Accepts sys fs (linkText path target) := by
  refine ⟨linkText_ne_nil hne, hfits, ?_⟩
  unfold linkText
  split
  · next habs => exact Or.inl habs
  · rcases haccepts.base with hhead | hcwd
    · rcases cut_at_slash path with ⟨hslash, -⟩ | ⟨dir, tail, -, rfl, hcut⟩
      · exact absurd (List.mem_of_mem_head? hhead) hslash
      · rw [hcut]
        rcases dir with _ | ⟨b, dir⟩
        · exact Or.inl rfl
        · exact Or.inl hhead
    · exact Or.inr hcwd

/-- **`isDirectoryExisting` in front of a slash** ends well, and tells a directory only where one is, and
none only where none was, or where nothing more is looked at. -/
theorem isDirectoryExisting_spec (iErrno : Errno)
    (hg : Growing sys fs₀ path (components path).dropLast w)
    (hon : OnWay sys fs₀ path (components path).dropLast s.fs) (hfair : s.Fair path)
    (hbefore : Before dir path) (hne : dir ≠ []) (hfits : LinkFits sys w.fs path dir) :
    ∃ b s', isDirectoryExistingShared sys iErrno dir s = .ok b s' ∧ s'.Fair path ∧
      OnWay sys fs₀ path (components path).dropLast s'.fs ∧
      (b = true → IsDirectory sys s'.fs path dir) ∧
      (b = false → dir = [47] ∨ ¬IsDirectory sys s.fs path dir) := by
  have hon₁ := (kept_onWay sys fs₀ (List.prefix_refl _)).turn hfair hon
  have hlater₁ := turn_later hon.sound hfair
  have hfair₁ : (s.turn sys).Fair path := hfair.turn
  unfold isDirectoryExistingShared openDirectoryShared
  rcases getDirectoryEntryType_spec hg hon₁ hbefore hne (prefix_dropLast hbefore) with
    ⟨htype, hmissing⟩ | ⟨⟨r, hwalk⟩, haccepts, hstart, p, m, hp, hentry⟩
  · rw [bind_error (called_error htype)]
    refine ⟨false, s.turn sys, rfl, hfair₁, hon₁, nofun, fun _ => hmissing.imp_right fun hnot => ?_⟩
    exact fun ⟨r, hr⟩ => hnot ⟨r, walk_enlarged hlater₁.2 hr⟩
  · have hon₂ := (kept_onWay sys fs₀ (List.prefix_refl _)).turn hfair₁ hon₁
    have hlater₂ := turn_later hon₁.sound hfair₁
    have hfair₂ : ((s.turn sys).turn sys).Fair path := hfair₁.turn
    have haccepts₂ := haccepts.enlarged hlater₂.2
    have hresolve := haccepts.resolve (hstart.symm ▸ hp)
    have hwalk₂ := walk_enlarged hlater₂.2 hwalk
    rcases hentry with hentry | ⟨target, hentry⟩
    · -- a directory
      have htype : getDirectoryEntryType sys (s.turn sys).fs (unslashed dir) = .ok .directory := by
        unfold getDirectoryEntryType
        rw [lstat_eq hresolve hentry]
        rfl
      have hopen := openAt_ok (unslashed dir) haccepts₂ (hstart.symm ▸ walk_unslashed.mpr hwalk₂)
      rw [bind_ok (called_ok htype)]
      dsimp only
      rw [called_ok hopen]
      exact ⟨true, _, rfl, hfair₂, hon₂, fun _ => ⟨r, hwalk₂⟩, nofun⟩
    · -- a link, whose text can be read and opened
      have htype : getDirectoryEntryType sys (s.turn sys).fs (unslashed dir) = .ok .linkFile := by
        unfold getDirectoryEntryType
        rw [lstat_eq hresolve hentry]
        rfl
      have hend : Enlarged (s.turn sys).fs w.fs := limit_of_grow hg.grow ▸ hon₁.high
      obtain ⟨hread, hopen⟩ := hfits p m target (walk_enlarged hend hp) (hend.kept _ _ hentry)
      have hp₂ := walk_enlarged hlater₂.2 hp
      have hentry₂ := hlater₂.2.kept _ _ hentry
      have htext : readLink sys ((s.turn sys).turn sys).fs (unslashed dir) 512 =
          .ok (linkText (unslashed dir) target) := by
        rw [readLink_eq_text (haccepts₂.resolve (hstart.symm ▸ hp₂)) hentry₂, if_pos hread]
      have hon₃ := (kept_onWay sys fs₀ (List.prefix_refl _)).turn hfair₂ hon₂
      have hlater₃ := turn_later hon₂.sound hfair₂
      have hwalk₃ := walk_enlarged hlater₃.2 hwalk₂
      have hnonempty : target ≠ [] := by
        rintro rfl
        exact hg.texts p (hon₁.low.old hentry nofun)
      have hdir₂ := hon₂.sound.start haccepts₂.base
      obtain ⟨r', hr'⟩ := walk_linkText hon₂.sound.tree hdir₂ (hstart.symm ▸ hp₂) hentry₂
        (hstart.symm ▸ walk_unslashed.mpr hwalk₂)
      have hopened := openAt_ok (unslashed dir)
        ((accepts_linkText haccepts₂ hnonempty hopen).enlarged hlater₃.2) (walk_enlarged hlater₃.2 hr')
      rw [bind_ok (called_ok htype)]
      dsimp only
      rw [bind_ok (called_ok htext), called_ok hopened]
      exact ⟨true, _, rfl, hfair₂.turn, hon₃, fun _ => ⟨r, hwalk₃⟩, nofun⟩

/-! ### The run -/

/-- The links in front of slashes that may be looked at can be read: those behind which the path, or a
directory that is missing, is to be made. -/
def LinksFit (sys : System) (fs₀ fs : FileSystem) (path : List UInt8) : Prop :=
  ∀ dir tail, dir ≠ [] → 47 ∉ tail →
    (dir ++ 47 :: tail = path ∨
      Before (dir ++ 47 :: tail) path ∧ ¬IsDirectory sys fs₀ path (dir ++ 47 :: tail)) →
    LinkFits sys fs path dir

/-- A text that the recursion comes to. -/
def Reached (sys : System) (fs₀ : FileSystem) (path dir : List UInt8) : Prop :=
  dir = path ∨ Before dir path ∧ (dir = [47] ∨ ¬IsDirectory sys fs₀ path dir)

/-- What a call for a text leaves: the file system is on its way. -/
abbrev Leaves (sys : System) (fs₀ : FileSystem) (path : List UInt8) (cs ds : List Name)
    (r : EStateM.Result FileIOError Shared Unit) : Prop :=
  ∃ s', r = .ok () s' ∧ s'.Fair path ∧ OnWay sys fs₀ path cs s'.fs ∧
    ∃ q m, walk sys s'.fs .directory sys.linkMax (start path sys.cwd) ds = .ok (q, m)

/-- **What comes before the `mkdir`** makes the directory in front of the last slash. -/
theorem createPreviousDirectory_spec (iErrno : Errno)
    (hg : Growing sys fs₀ path (components path).dropLast w)
    (hlinks : LinksFit sys fs₀ w.fs path) {createPrevious : List UInt8 → SharedMethod Unit}
    (hdir : Reached sys fs₀ path dir)
    (hprevious : ∀ dir' s, dir'.length < dir.length → dir' ≠ [] → Before dir' path →
      Reached sys fs₀ path dir' → s.Fair path → OnWay sys fs₀ path (components path).dropLast s.fs →
      Leaves sys fs₀ path (components path).dropLast (components dir') (createPrevious dir' s))
    (hfair : s.Fair path) (hon : OnWay sys fs₀ path (components path).dropLast s.fs) :
    ∃ ds tail, components dir = ds ++ [tail] ∧
      Leaves sys fs₀ path (components path).dropLast ds
        (createPreviousDirectory sys iErrno createPrevious dir s) := by
  obtain ⟨tail, htail, ⟨hnone, hcs⟩ | ⟨dir', hsome, hne, hpath, hcs⟩⟩ := components_previous dir
  · unfold createPreviousDirectory
    rw [hnone]
    rcases hcs with hcs | ⟨-, hcs⟩
    · exact ⟨[], tail, hcs, ⟨s, rfl, hfair, hon, _, _, walk_nil⟩⟩
    · exact ⟨[[]], tail, hcs, ⟨s, rfl, hfair, hon, _, _, by rw [walk_stays (Or.inl rfl), walk_nil]⟩⟩
  · refine ⟨components dir', tail, hcs, ?_⟩
    have hbefore' : Before dir' dir := ⟨tail, hpath⟩
    have hbefore : Before dir' path := by
      rcases hdir with rfl | ⟨hbefore, -⟩
      · exact hbefore'
      · exact hbefore'.trans hbefore
    have hfits : LinkFits sys w.fs path dir' := by
      refine hlinks dir' tail hne htail ?_
      rw [hpath]
      refine hdir.imp_right fun ⟨hbefore, hmissing⟩ => ⟨hbefore, hmissing.resolve_left ?_⟩
      rintro rfl
      cases hsome
    obtain ⟨b, s₁, hcheck, hfair₁, hon₁, htrue, hfalse⟩ :=
      isDirectoryExisting_spec iErrno hg hon hfair hbefore hne hfits
    unfold createPreviousDirectory
    rw [hsome]
    dsimp only
    rw [bind_ok hcheck]
    cases b with
    | true =>
      obtain ⟨r, hr⟩ := htrue rfl
      exact ⟨s₁, rfl, hfair₁, hon₁, r.1, r.2, hr⟩
    | false =>
      have hreached : Reached sys fs₀ path dir' :=
        Or.inr ⟨hbefore, (hfalse rfl).imp_right fun hnot ⟨r, hr⟩ => hnot ⟨r, walk_enlarged hon.low hr⟩⟩
      obtain ⟨s₂, hrun, hs₂⟩ := hprevious dir' s₁ hbefore'.length_lt hne hbefore hreached hfair₁ hon₁
      refine ⟨s₂, ?_, hs₂⟩
      show unlessExists iErrno (createPrevious dir') s₁ = _
      unfold unlessExists
      rw [hrun]

/-- The `mkdir` at the end, when an entry that exists is no error. -/
theorem mkdirDirectory_spec (hg : Growing sys fs₀ path cs w)
    (hbeginning : (components path).dropLast <+: cs)
    (haccepts : Accepts sys s.fs dir) (hstart : start dir sys.cwd = start path sys.cwd)
    (hcs : components dir <+: cs) {ds : List Name} {tail : Name} (hds : components dir = ds ++ [tail])
    (hfair : s.Fair path) (hon : OnWay sys fs₀ path cs s.fs)
    (hwalk : walk sys s.fs .directory sys.linkMax (start path sys.cwd) ds = .ok (q, m)) :
    Leaves sys fs₀ path cs (components dir) (mkdirDirectory sys dir true s) := by
  have hlater := turn_later hon.sound hfair
  have hon₁ := (kept_onWay sys fs₀ hbeginning).turn hfair hon
  obtain ⟨fs', hmkdir, hon', r, hr⟩ :=
    hon₁.mkdir_spec hg.grow rfl hstart (haccepts.enlarged hlater.2) hcs hds (walk_enlarged hlater.2 hwalk)
  have hfair₁ : (s.turn sys).Fair path := hfair.turn
  unfold mkdirDirectory
  rcases hmkdir with hmade | ⟨hexists, rfl⟩
  · rw [hmade]
    exact ⟨_, rfl, hfair₁, hon', r.1, r.2, hr⟩
  · rw [hexists]
    exact ⟨_, rfl, hfair₁, hon', r.1, r.2, hr⟩

/-- **Every text in front of a slash is made a directory.** -/
theorem createDirectory_before (iErrno : Errno) (hg : Growing sys fs₀ path (components path).dropLast w)
    (hlinks : LinksFit sys fs₀ w.fs path) (depth : ℕ) (dir : List UInt8) (s : Shared)
    (hdepth : dir.length < depth) (hne : dir ≠ []) (hbefore : Before dir path)
    (hreached : Reached sys fs₀ path dir) (hfair : s.Fair path)
    (hon : OnWay sys fs₀ path (components path).dropLast s.fs) :
    Leaves sys fs₀ path (components path).dropLast (components dir)
      (createDirectory sys iErrno depth dir true true s) := by
  induction depth generalizing dir s with
  | zero => exact absurd hdepth (Nat.not_lt_zero _)
  | succ depth ih =>
    obtain ⟨ds, tail, hds, s₁, hprevious, hfair₁, hon₁, q, m, hwalk⟩ :=
      createPreviousDirectory_spec iErrno hg hlinks hreached
        (fun dir' s hlength => ih dir' s (by omega)) hfair hon
    have haccepts := hbefore.accepts hne (hg.accepts.enlarged hon₁.low)
    have hrun : createDirectory sys iErrno (depth + 1) dir true true s =
        mkdirDirectory sys dir true s₁ := by
      rw [createDirectory, if_pos rfl, bind_ok hprevious]
    rw [hrun]
    exact mkdirDirectory_spec hg (List.prefix_refl _) haccepts (hbefore.start hne)
      (prefix_dropLast hbefore) hds
      hfair₁ hon₁ hwalk

/-! ### What the method promises -/

/-- **Exactly what was missing has been made**: the path leads to a directory, and all that is new are
directories that it leads over. -/
structure Created (sys : System) (fs fs' : FileSystem) (path : List UInt8) : Prop where
  enlarged : Enlarged fs fs'
  leads : ∃ q, resolve sys fs' .directory path = .ok q
  made : ∀ q e, fs.entry q = none → fs'.entry q = some e →
    ∃ ds m, ds <+: components path ∧
      walk sys fs' .directory sys.linkMax (start path sys.cwd) ds = .ok (q, m)

/-- The method ends well and makes exactly what is missing, whatever other processes make in front of the
slashes meanwhile, and whatever is in a variable that has not been set. -/
def Creates (sys : System) (fs : FileSystem) (path : List UInt8) (bNoErrorIfExists : Bool) : Prop :=
  ∀ (iErrno : Errno) (turns : ℕ → List (List UInt8)), (∀ n, ∀ dir ∈ turns n, Before dir path) →
    ∃ s', createDirectory sys iErrno (path.length + 1) path bNoErrorIfExists true ⟨fs, turns⟩ =
      .ok () s' ∧
      Created sys fs s'.fs path

/-- The last component is the name of a directory that is still missing when all others are there. -/
def LastIsNew (sys : System) (fs : FileSystem) (path : List UInt8) : Prop :=
  ∃ w c, grow sys ⟨fs, start path sys.cwd, sys.linkMax⟩ (components path).dropLast = .ok w ∧
    (components path).getLast? = some c ∧ EntryName c ∧ w.fs.entry (w.place ++ [c]) = none

/-- When a path can be made: it is accepted, all that is missing can be made, the last component is new
where an entry that exists is an error, and the links on the way that may be looked at can be read. -/
structure Creatable (sys : System) (fs : FileSystem) (path : List UInt8)
    (bNoErrorIfExists : Bool) : Prop where
  accepts : Accepts sys fs path
  grows : ∃ w, grow sys ⟨fs, start path sys.cwd, sys.linkMax⟩ (components path) = .ok w
  new : bNoErrorIfExists = false → LastIsNew sys fs path
  links : LinksFit sys fs
    (limit sys ⟨fs, start path sys.cwd, sys.linkMax⟩ (components path).dropLast) path

/-- On the way with the path at its end, exactly what was missing has been made. -/
theorem created_of_onWay (hg : Growing sys fs₀ path (components path) w)
    (hon : OnWay sys fs₀ path (components path) fs) (hdir : IsDirectory sys fs path path) :
    Created sys fs₀ fs path := by
  obtain ⟨r, hr⟩ := hdir
  have hgrows := grows_of_grow hg.grow
  have hhigh : Enlarged fs w.fs := limit_of_grow hg.grow ▸ hon.high
  obtain ⟨w', hgrow', hlow, -⟩ := grow_of_whole_walk hon.low hon.high hr
  rw [hg.grow] at hgrow'
  cases hgrow'
  refine ⟨hon.low, ⟨r.1, (hg.accepts.enlarged hon.low).resolve hr⟩, fun q e hnone he => ?_⟩
  obtain ⟨ds, m, hds, hwalk⟩ := hgrows.made q e hnone (hhigh.kept _ _ he)
  exact ⟨ds, m, hds, walk_enlarged hlow hwalk⟩

/-- Each path has a last component, behind its last slash. -/
theorem exists_last (path : List UInt8) : ∃ ds tail, 47 ∉ tail ∧ components path = ds ++ [tail] := by
  obtain ⟨tail, htail, ⟨-, hcs | ⟨-, hcs⟩⟩ | ⟨dir, -, -, -, hcs⟩⟩ := components_previous path
  · exact ⟨[], tail, htail, hcs⟩
  · exact ⟨[[]], tail, htail, hcs⟩
  · exact ⟨components dir, tail, htail, hcs⟩

/-- The components of a path, cut before the last one. -/
theorem components_cut (path : List UInt8) {ds : List Name} {tail : Name}
    (h : components path = ds ++ [tail]) :
    (components path).dropLast = ds ∧ (components path).getLast? = some tail := by
  rw [h, List.dropLast_concat, List.getLast?_concat]
  exact ⟨rfl, rfl⟩

/-- **A path that can be made is made.** -/
theorem creates_of_creatable {bNoErrorIfExists : Bool} (hs : fs.Sound sys)
    (htexts : ∀ p, fs.entry p ≠ some (.link [])) (h : Creatable sys fs path bNoErrorIfExists) :
    Creates sys fs path bNoErrorIfExists := by
  intro iErrno turns hturns
  obtain ⟨w, hgrow⟩ := h.grows
  have hall : Growing sys fs path (components path) w :=
    ⟨hs, htexts, h.accepts, List.prefix_refl _, hgrow⟩
  obtain ⟨rest, hrest⟩ : (components path).dropLast <+: components path := List.dropLast_prefix _
  obtain ⟨w₁, hgrow₁, hlast⟩ := grow_beginning (hrest.symm ▸ hgrow)
  have hg : Growing sys fs path (components path).dropLast w₁ :=
    ⟨hs, htexts, h.accepts, ⟨rest, hrest⟩, hgrow₁⟩
  have hlinks : LinksFit sys fs w₁.fs path := by
    rw [← limit_of_grow hgrow₁]
    exact h.links
  have hstart : OnWay sys fs path (components path).dropLast fs :=
    ⟨hs, Enlarged.refl _, enlarged_limit ⟨fs, start path sys.cwd, sys.linkMax⟩ _⟩
  obtain ⟨ds, tail, hds, s₁, hprevious, hfair₁, hon₁, q, m, hwalk⟩ :=
    createPreviousDirectory_spec iErrno (s := ⟨fs, turns⟩) hg hlinks (Or.inl rfl)
      (fun dir' s hlength hne hbefore =>
        createDirectory_before iErrno hg hlinks path.length dir' s hlength hne hbefore)
      hturns hstart
  have hrun : createDirectory sys iErrno (path.length + 1) path bNoErrorIfExists true ⟨fs, turns⟩ =
      mkdirDirectory sys path bNoErrorIfExists s₁ := by
    rw [createDirectory, if_pos rfl, bind_ok hprevious]
  rw [hrun]
  have haccepts := h.accepts.enlarged hon₁.low
  have hon₁' : OnWay sys fs path (components path) s₁.fs := by
    have hfurther := hon₁.further rest
    rwa [hrest] at hfurther
  cases bNoErrorIfExists with
  | true =>
    obtain ⟨s', hmkdir, -, hon', q', m', hwalk'⟩ :=
      mkdirDirectory_spec hall (List.dropLast_prefix _) haccepts rfl
        (List.prefix_refl _) hds hfair₁ hon₁' hwalk
    exact ⟨s', hmkdir, created_of_onWay hall hon' ⟨_, hwalk'⟩⟩
  | false =>
    -- the last component is new, whatever the other processes have made
    obtain ⟨w', c, hgrow', hc, hname, hnone⟩ := h.new rfl
    rw [hgrow₁] at hgrow'
    cases hgrow'
    obtain ⟨hcut, hget⟩ := components_cut path hds
    rw [hget] at hc
    cases hc
    have hlater := turn_later hon₁.sound hfair₁
    have hon₂ := (kept_onWay sys fs (List.prefix_refl _)).turn hfair₁ hon₁
    have hwalk₂ := walk_enlarged hlater.2 hwalk
    have hhigh : Enlarged (s₁.turn sys).fs w₁.fs := limit_of_grow hgrow₁ ▸ hon₂.high
    obtain ⟨w₂, hgrow₂, -, hplace⟩ := grow_of_whole_walk hon₂.low (hcut ▸ hon₂.high) hwalk₂
    rw [← hcut, hgrow₁] at hgrow₂
    cases hgrow₂
    cases hplace
    have hrest' : rest = [tail] := by
      have happend := hrest.trans hds
      rw [hcut] at happend
      exact List.append_cancel_left happend
    rw [hrest'] at hlast
    obtain ⟨w₃, hgo, -⟩ := grow_cons_eq_ok hlast
    obtain ⟨hfits, -⟩ := (walk_eq_ok hname.stays hname.up).mp (goes_of_go hgo).walk
    have hmissing : (s₁.turn sys).fs.entry (w₁.place ++ [tail]) = none := hhigh.missing hnone
    have hmade : mkdir sys (s₁.turn sys).fs path =
        .ok ((s₁.turn sys).fs.insert (w₁.place ++ [tail]) .directory) := by
      rw [mkdir_name (haccepts.enlarged hlater.2) hds hwalk₂ hname hfits, hmissing]
    have hon₂' : OnWay sys fs path (components path) (s₁.turn sys).fs := by
      have hfurther := hon₂.further rest
      rwa [hrest] at hfurther
    have hruns : mkdirDirectory sys path false s₁ =
        .ok () ⟨(s₁.turn sys).fs.insert (w₁.place ++ [tail]) .directory, (s₁.turn sys).turns⟩ := by
      unfold mkdirDirectory
      rw [hmade]
    have hthere : walk sys ((s₁.turn sys).fs.insert (w₁.place ++ [tail]) .directory) .directory
        sys.linkMax (start path sys.cwd) (components path) = .ok (w₁.place ++ [tail], w₁.links) := by
      rw [hds, walk_directory_append (walk_enlarged (enlarged_insert hmissing) hwalk₂)]
      exact (walk_eq_ok hname.stays hname.up).mpr
        ⟨hfits, .directory (FileSystem.entry_insert_self _) walk_nil⟩
    exact ⟨_, hruns, created_of_onWay hall
      (hon₂'.mkdir rfl (fun _ => rfl) (List.prefix_refl _) hmade) ⟨_, hthere⟩⟩

/-! ### What stays true along a run -/

/-- What holds before each call holds after it. -/
structure Invariant (sys : System) (path : List UInt8) (J : Shared → Prop) : Prop where
  turn : ∀ s, J s → J (s.turn sys)
  mkdir : ∀ s fs' dir, J s → Before dir path → mkdir sys s.fs dir = .ok fs' → J ⟨fs', s.turns⟩

/-- An action keeps what holds. -/
def Keeps {α : Type} (J : Shared → Prop) (x : SharedMethod α) : Prop := ∀ s, J s → J (after (x s))

section Keeps

variable {α β : Type} {J : Shared → Prop}

theorem Keeps.bind {x : SharedMethod α} {f : α → SharedMethod β} (hx : Keeps J x)
    (hf : ∀ a, Keeps J (f a)) :
    Keeps J (x >>= f) := by
  intro s hs
  rcases hrun : x s with ⟨a, s'⟩ | ⟨e, s'⟩
  · rw [bind_ok hrun]
    have hs' := hx s hs
    rw [hrun] at hs'
    exact hf a s' hs'
  · rw [bind_error hrun]
    have hs' := hx s hs
    rw [hrun] at hs'
    exact hs'

theorem keeps_called (hJ : Invariant sys path J) (f : FileSystem → Except FileIOError α) :
    Keeps J (called sys f) := by
  intro s hs
  rcases hrun : f (s.turn sys).fs with e | a
  · rw [called_error hrun]
    exact hJ.turn s hs
  · rw [called_ok hrun]
    exact hJ.turn s hs

theorem keeps_isDirectoryExisting (hJ : Invariant sys path J) (dir : List UInt8) :
    Keeps J (isDirectoryExistingShared sys iErrno dir) := by
  have hopen : Keeps J (openDirectoryShared sys dir) := by
    refine (keeps_called hJ _).bind fun entryType => ?_
    cases entryType with
    | linkFile => exact (keeps_called hJ _).bind fun _ => keeps_called hJ _
    | directory => exact keeps_called hJ _
    | regularFile => exact keeps_called hJ _
  intro s hs
  have hafter := hopen s hs
  unfold isDirectoryExistingShared
  rcases hrun : openDirectoryShared sys dir s with ⟨d, s'⟩ | ⟨e, s'⟩
  · rw [hrun] at hafter
    exact hafter
  · rw [hrun] at hafter
    dsimp only
    split
    · exact hafter
    · exact hafter

theorem keeps_mkdirDirectory (hJ : Invariant sys path J) (hbefore : Before dir path) (flag : Bool) :
    Keeps J (mkdirDirectory sys dir flag) := by
  intro s hs
  have hturn := hJ.turn s hs
  unfold mkdirDirectory
  rcases hrun : mkdir sys (s.turn sys).fs dir with e | fs'
  · dsimp only
    split
    · exact hturn
    · exact hturn
  · exact hJ.mkdir _ _ _ hturn hbefore hrun

theorem keeps_createPreviousDirectory (iErrno : Errno) (dir : List UInt8)
    (hJ : Invariant sys path J) {createPrevious : List UInt8 → SharedMethod Unit}
    (hprevious : ∀ dir', Before dir' dir → Keeps J (createPrevious dir')) :
    Keeps J (createPreviousDirectory sys iErrno createPrevious dir) := by
  unfold createPreviousDirectory
  rcases hsome : previousDirectory dir with _ | dir'
  · exact fun s hs => hs
  · obtain ⟨-, tail, -, htail⟩ := previousDirectory_some hsome
    refine (keeps_isDirectoryExisting hJ dir').bind fun b => ?_
    cases b with
    | true => exact fun s hs => hs
    | false =>
      intro s hs
      have hafter := hprevious dir' ⟨tail, htail⟩ s hs
      show J (after (unlessExists iErrno (createPrevious dir') s))
      unfold unlessExists
      rcases hrun : createPrevious dir' s with ⟨u, s'⟩ | ⟨e, s'⟩
      · rw [hrun] at hafter
        exact hafter
      · rw [hrun] at hafter
        dsimp only
        split
        · exact hafter
        · exact hafter

theorem keeps_createDirectory (iErrno : Errno) (hJ : Invariant sys path J) (depth : ℕ)
    (hbefore : Before dir path) (flag : Bool) :
    Keeps J (createDirectory sys iErrno depth dir flag true) := by
  induction depth generalizing dir flag with
  | zero => exact fun s hs => hs
  | succ depth ih =>
    refine Keeps.bind ?_ fun _ => keeps_mkdirDirectory hJ hbefore flag
    exact keeps_createPreviousDirectory iErrno dir hJ fun dir' hdir' => ih (hdir'.trans hbefore) true

/-- The last call of a run that ends well, and what is kept until then. -/
theorem createDirectory_last (hJ : Invariant sys path J) {flag : Bool} {depth : ℕ} (hs : J s)
    (h : createDirectory sys iErrno (depth + 1) path flag true s = .ok () s') :
    ∃ s₁, J s₁ ∧ mkdirDirectory sys path flag s₁ = .ok () s' := by
  rw [createDirectory, if_pos rfl] at h
  obtain ⟨u, s₁, hprevious, hmkdir⟩ := bind_eq_ok.mp h
  have hkept := keeps_createPreviousDirectory iErrno path hJ
    (fun dir' hdir' => keeps_createDirectory iErrno hJ depth hdir' true) s hs
  rw [hprevious] at hkept
  exact ⟨s₁, hkept, hmkdir⟩

end Keeps

theorem Stable.invariant {J : FileSystem → Prop} (hk : Stable sys path J) :
    Invariant sys path fun s => s.Fair path ∧ J s.fs :=
  ⟨fun _ h => ⟨h.1.turn, hk.turn h.1 h.2⟩, fun _ _ _ h hbefore hmade =>
    ⟨h.1, hk _ _ _ h.2 hbefore hmade⟩⟩

/-! ### What a run that ends well needs -/

theorem onWay_refl (path : List UInt8) (hs : fs.Sound sys) (cs : List Name) : OnWay sys fs path cs fs :=
  ⟨hs, Enlarged.refl _, enlarged_limit ⟨fs, start path sys.cwd, sys.linkMax⟩ cs⟩

theorem mkdirDirectory_eq_ok {flag : Bool} (h : mkdirDirectory sys dir flag s = .ok () s') :
    mkdir sys (s.turn sys).fs dir = .ok s'.fs ∨ flag = true ∧ s' = s.turn sys := by
  unfold mkdirDirectory at h
  rcases hrun : mkdir sys (s.turn sys).fs dir with e | fs'
  · rw [hrun] at h
    dsimp only at h
    split at h
    · next hexists =>
      cases h
      exact Or.inr ⟨hexists.1, rfl⟩
    · cases h
  · rw [hrun] at h
    cases h
    exact Or.inl rfl

/-- A file system in which no path of the run can be made stays as it is. -/
theorem accepts_of_creates {flag : Bool} (hs : fs.Sound sys) (h : Creates sys fs path flag) :
    Accepts sys fs path := by
  obtain ⟨s', hrun, hcreated⟩ := h .EIOERR (fun _ => []) (fair_nothing fs path)
  obtain ⟨q, hq⟩ := hcreated.leads
  obtain ⟨⟨hne, hfits, hbase⟩, -⟩ := follow_eq_ok.mp hq
  by_contra hnot
  have hnever : ∀ dir fs', dir = path ∨ Before dir path → mkdir sys fs dir ≠ .ok fs' := by
    rintro dir fs' hdir hmade
    obtain ⟨haccepts, -⟩ := mkdir_eq_ok hs hmade
    refine hnot ⟨hne, hfits, ?_⟩
    rcases hdir with rfl | hbefore
    · exact haccepts.base
    · rw [← hbefore.head? haccepts.nonempty]
      exact haccepts.base
  have hkept : Stable sys path (· = fs) := by
    rintro _ fs' dir rfl hbefore hmade
    exact absurd hmade (hnever dir fs' (Or.inr hbefore))
  obtain ⟨s₁, ⟨hfair₁, hsame⟩, hmkdir⟩ :=
    createDirectory_last hkept.invariant ⟨fair_nothing fs path, rfl⟩ hrun
  have hturn := hkept.turn hfair₁ hsame
  have hend : s'.fs = fs := by
    rcases mkdirDirectory_eq_ok hmkdir with hmade | ⟨-, rfl⟩
    · rw [hturn] at hmade
      exact absurd hmade (hnever path _ (Or.inl rfl))
    · exact hturn
  rw [hend] at hbase
  exact hnot ⟨hne, hfits, hbase⟩

/-- All that is missing can be made. -/
theorem grows_of_creates {flag : Bool} (hs : fs.Sound sys) (h : Creates sys fs path flag) :
    ∃ w, grow sys ⟨fs, start path sys.cwd, sys.linkMax⟩ (components path) = .ok w := by
  obtain ⟨s', hrun, hcreated⟩ := h .EIOERR (fun _ => []) (fair_nothing fs path)
  obtain ⟨q, hq⟩ := hcreated.leads
  obtain ⟨-, m, hwalk⟩ := follow_eq_ok.mp hq
  have hkept := kept_onWay sys fs (List.dropLast_prefix (components path))
  obtain ⟨s₁, ⟨hfair₁, hon₁⟩, hmkdir⟩ := createDirectory_last hkept.invariant
    ⟨fair_nothing fs path, onWay_refl path hs _⟩ hrun
  have hturn := hkept.turn hfair₁ hon₁
  have hon : OnWay sys fs path (components path) s'.fs := by
    rcases mkdirDirectory_eq_ok hmkdir with hmade | ⟨-, rfl⟩
    · exact hturn.mkdir rfl (fun _ => rfl) (List.prefix_refl _) hmade
    · exact hturn
  obtain ⟨w, hgrow, -⟩ := grow_of_whole_walk hon.low hon.high hwalk
  exact ⟨w, hgrow⟩

/-- Other processes can make all directories in front of slashes, in one turn. -/
theorem exists_all (hg : Growing sys fs₀ path (components path).dropLast w) (hbefore : Before dir path)
    (hne : dir ≠ []) :
    ∃ dirs : List (List UInt8), (∀ dir' ∈ dirs, Before dir' path) ∧
      ∀ fs, OnWay sys fs₀ path (components path).dropLast fs →
        IsDirectory sys (dirs.foldl (made sys) fs) path dir := by
  induction hlength : dir.length using Nat.strong_induction_on generalizing dir with
  | _ n ih =>
    have hkept := kept_onWay sys fs₀ (List.prefix_refl (components path).dropLast)
    -- one more, behind those that are there
    have hlast : ∀ ds tail fs, components dir = ds ++ [tail] →
        OnWay sys fs₀ path (components path).dropLast fs →
        (∃ q m, walk sys fs .directory sys.linkMax (start path sys.cwd) ds = .ok (q, m)) →
        IsDirectory sys (made sys fs dir) path dir := by
      rintro ds tail fs hds hon ⟨q, m, hwalk⟩
      obtain ⟨fs', hmkdir, -, r, hr⟩ := hon.mkdir_spec hg.grow rfl (hbefore.start hne)
        (hbefore.accepts hne (hg.accepts.enlarged hon.low)) (prefix_dropLast hbefore) hds hwalk
      unfold made
      rcases hmkdir with hmade | ⟨hexists, rfl⟩
      · rw [hmade]
        exact ⟨r, hr⟩
      · rw [hexists]
        exact ⟨r, hr⟩
    obtain ⟨tail, -, ⟨-, hcs⟩ | ⟨dir', -, hne', hpath, hcs⟩⟩ := components_previous dir
    · refine ⟨[dir], fun dir' hdir' => List.mem_singleton.mp hdir' ▸ hbefore, fun fs hon => ?_⟩
      rcases hcs with hcs | ⟨-, hcs⟩
      · exact hlast [] tail fs hcs hon ⟨_, _, walk_nil⟩
      · exact hlast [[]] tail fs hcs hon ⟨_, _, by rw [walk_stays (Or.inl rfl), walk_nil]⟩
    · have hbefore' : Before dir' dir := ⟨tail, hpath⟩
      obtain ⟨dirs, hdirs, hall⟩ :=
        ih dir'.length (hlength ▸ hbefore'.length_lt) (hbefore'.trans hbefore) hne' rfl
      refine ⟨dirs ++ [dir], fun d hd => ?_, fun fs hon => ?_⟩
      · rcases List.mem_append.mp hd with hd | hd
        · exact hdirs d hd
        · exact List.mem_singleton.mp hd ▸ hbefore
      · rw [List.foldl_append]
        obtain ⟨r, hr⟩ := hall fs hon
        exact hlast _ tail _ hcs (hkept.foldl dirs hon hdirs) ⟨r.1, r.2, hr⟩

/-- All components but the last one, likewise. -/
theorem exists_previous (hg : Growing sys fs₀ path (components path).dropLast w) :
    ∃ dirs : List (List UInt8), (∀ dir ∈ dirs, Before dir path) ∧
      ∀ fs, OnWay sys fs₀ path (components path).dropLast fs →
        ∃ q m, walk sys (dirs.foldl (made sys) fs) .directory sys.linkMax (start path sys.cwd)
          (components path).dropLast = .ok (q, m) := by
  obtain ⟨tail, -, ⟨-, hcs⟩ | ⟨dir, -, hne, hpath, hcs⟩⟩ := components_previous path
  · refine ⟨[], (fun _ hmem => nomatch hmem), fun fs _ => ?_⟩
    rcases hcs with hcs | ⟨-, hcs⟩
    · rw [hcs]
      exact ⟨_, _, walk_nil⟩
    · rw [hcs]
      exact ⟨_, _, by rw [List.dropLast_cons_cons, List.dropLast_singleton,
        walk_stays (Or.inl rfl), walk_nil]⟩
  · obtain ⟨dirs, hdirs, hall⟩ := exists_all hg ⟨tail, hpath⟩ hne
    refine ⟨dirs, hdirs, fun fs hon => ?_⟩
    obtain ⟨r, hr⟩ := hall fs hon
    rw [hcs, List.dropLast_concat]
    exact ⟨r.1, r.2, hr⟩

/-- The last component is new, where an entry that exists is an error. -/
theorem lastIsNew_of_creates (hs : fs.Sound sys) (htexts : ∀ p, fs.entry p ≠ some (.link []))
    (h : Creates sys fs path false) : LastIsNew sys fs path := by
  have haccepts := accepts_of_creates hs h
  obtain ⟨w, hgrow⟩ := grows_of_creates hs h
  obtain ⟨rest, hrest⟩ : (components path).dropLast <+: components path := List.dropLast_prefix _
  obtain ⟨w₁, hgrow₁, hlast⟩ := grow_beginning (hrest.symm ▸ hgrow)
  have hg : Growing sys fs path (components path).dropLast w₁ :=
    ⟨hs, htexts, haccepts, ⟨rest, hrest⟩, hgrow₁⟩
  obtain ⟨dirs, hdirs, hall⟩ := exists_previous hg
  -- in every turn the other processes make all that they may
  obtain ⟨s', hrun, -⟩ := h .EIOERR (fun _ => dirs) fun _ => hdirs
  have hkept := kept_onWay sys fs (List.prefix_refl (components path).dropLast)
  have hinvariant : Invariant sys path fun s =>
      (∀ n, s.turns n = dirs) ∧ OnWay sys fs path (components path).dropLast s.fs :=
    ⟨fun s hs => ⟨fun n => hs.1 (n + 1), hkept.turn (fun n => hs.1 n ▸ hdirs) hs.2⟩,
      fun _ _ _ hs hbefore hmade => ⟨hs.1, hkept _ _ _ hs.2 hbefore hmade⟩⟩
  obtain ⟨s₁, ⟨hturns, hon₁⟩, hmkdir⟩ :=
    createDirectory_last hinvariant ⟨fun _ => rfl, onWay_refl path hs _⟩ hrun
  have hmade := (mkdirDirectory_eq_ok hmkdir).resolve_right fun h => nomatch h.1
  have hturn : (s₁.turn sys).fs = dirs.foldl (made sys) s₁.fs := by
    unfold Shared.turn
    rw [hturns 0]
  obtain ⟨q, m, hwalk⟩ := hall s₁.fs hon₁
  have hon₂ := hkept.foldl dirs hon₁ hdirs
  rw [← hturn] at hwalk hon₂
  obtain ⟨ds, tail, htail, hcs⟩ := exists_last path
  obtain ⟨hcut, hget⟩ := components_cut path hcs
  rw [hcut] at hwalk
  have hthere : ∀ r, walk sys (s₁.turn sys).fs .directory sys.linkMax (start path sys.cwd)
      (components path) ≠ .ok r := by
    intro r hr
    rw [mkdir_directory hon₂.sound (haccepts.enlarged hon₂.low) hr] at hmade
    cases hmade
  have hname : EntryName tail := by
    refine ⟨fun hs => hthere (q, m) ?_, fun hu => hthere (q.dropLast, m) ?_, htail⟩
    · rw [hcs, walk_directory_append hwalk, walk_stays hs, walk_nil]
    · rw [hcs, walk_directory_append hwalk, hu, walk_up, walk_nil]
  obtain ⟨w₂, hgrow₂, hlow, hplace⟩ := grow_of_whole_walk hon₂.low (hcut ▸ hon₂.high) hwalk
  rw [← hcut, hgrow₁] at hgrow₂
  cases hgrow₂
  cases hplace
  have hrest' : rest = [tail] := by
    rw [hcut, hcs] at hrest
    exact List.append_cancel_left hrest
  rw [hrest'] at hlast
  obtain ⟨w₃, hgo, -⟩ := grow_cons_eq_ok hlast
  obtain ⟨hfits, -⟩ := (walk_eq_ok hname.stays hname.up).mp (goes_of_go hgo).walk
  rw [mkdir_name (haccepts.enlarged hon₂.low) hcs hwalk hname hfits] at hmade
  have hnone : (s₁.turn sys).fs.entry (w₁.place ++ [tail]) = none := by
    rcases hentry : (s₁.turn sys).fs.entry (w₁.place ++ [tail]) with _ | e
    · rfl
    · rw [hentry] at hmade
      cases hmade
  exact ⟨w₁, tail, hgrow₁, hget, hname, hlow.missing hnone⟩

/-! ### A link that cannot be read -/

theorem previousDirectory_append {tail : List UInt8} (hne : dir ≠ []) (htail : 47 ∉ tail) :
    previousDirectory (dir ++ 47 :: tail) = some dir := by
  have hcut : (dir ++ [47] ++ tail).rdropWhile (· ≠ 47) = dir ++ [47] := by
    induction tail using List.reverseRecOn with
    | nil =>
      rw [List.append_nil]
      exact List.rdropWhile_concat_neg _ _ _ (by simp)
    | append_singleton tail b ih =>
      have hb : b ≠ 47 := fun hb => htail (hb ▸ List.mem_append_right _ List.mem_cons_self)
      rw [← List.append_assoc, List.rdropWhile_concat_pos _ _ _ (by simpa using hb)]
      exact ih fun hmem => htail (List.mem_append_left _ hmem)
  obtain ⟨b, dir', rfl⟩ := List.exists_cons_of_ne_nil hne
  unfold previousDirectory
  rw [List.append_cons, hcut, List.dropLast_concat]

/-- A text in front of a slash is in front of the last one. -/
theorem previousDirectory_of_before (h : Before dir path) (hne : dir ≠ []) :
    ∃ dir', previousDirectory path = some dir' ∧ (dir = dir' ∨ Before dir dir') := by
  obtain ⟨rest, rfl⟩ := h
  rcases cut_at_slash rest with ⟨hslash, -⟩ | ⟨dir', tail, htail, rfl, -⟩
  · exact ⟨dir, previousDirectory_append hne hslash, Or.inl rfl⟩
  · refine ⟨dir ++ 47 :: dir', ?_, Or.inr ⟨dir', rfl⟩⟩
    have hnonempty : dir ++ 47 :: dir' ≠ [] := List.append_ne_nil_of_left_ne_nil hne _
    rw [← previousDirectory_append hnonempty htail, List.append_assoc, List.cons_append]

/-- **A link that cannot be read is an error** of `isDirectoryExisting`, as soon as it leads to a
directory. -/
theorem isDirectoryExisting_fails (hg : Growing sys fs₀ path (components path).dropLast w)
    (hon : OnWay sys fs₀ path (components path).dropLast s.fs) (hfair : s.Fair path)
    (hbefore : Before dir path) (hne : dir ≠ []) (hdir : IsDirectory sys (s.turn sys).fs path dir)
    (hfits : ¬LinkFits sys w.fs path dir) :
    ∃ e s', isDirectoryExistingShared sys .EIOERR dir s = .error e s' ∧
      e.getUserData.getD .EIOERR ≠ .EEXIST := by
  have hon₁ := (kept_onWay sys fs₀ (List.prefix_refl _)).turn hfair hon
  have hfair₁ : (s.turn sys).Fair path := hfair.turn
  have hon₂ := (kept_onWay sys fs₀ (List.prefix_refl _)).turn hfair₁ hon₁
  have hlater₂ := turn_later hon₁.sound hfair₁
  have hlater₃ := turn_later hon₂.sound hfair₁.turn
  have hend : Enlarged (s.turn sys).fs w.fs := limit_of_grow hg.grow ▸ hon₁.high
  obtain ⟨p, m, target, hp, hlink, hlong⟩ : ∃ p m target,
      walk sys w.fs .noFollow sys.linkMax (start path sys.cwd) (components (unslashed dir)) =
        .ok (p, m) ∧
      w.fs.entry p = some (.link target) ∧
      ¬((linkText (unslashed dir) target).length < 512 ∧
        (linkText (unslashed dir) target).length < sys.pathMax) := by
    unfold LinkFits at hfits
    push Not at hfits
    obtain ⟨p, m, target, hp, hlink, hlong⟩ := hfits
    exact ⟨p, m, target, hp, hlink, fun h => (hlong h.1).not_gt h.2⟩
  rcases getDirectoryEntryType_spec hg hon₁ hbefore hne (prefix_dropLast hbefore) with
    ⟨-, rfl | hnot⟩ | ⟨-, haccepts, hstart, p', m', hp', hentry⟩
  · -- the root is no link
    rw [show components (unslashed [47]) = [[]] from rfl, walk_stays (Or.inl rfl), walk_nil] at hp
    cases hp
    rw [hend.kept _ _ (hon₁.sound.start (hg.accepts.enlarged hon₁.low).base)] at hlink
    cases hlink
  · exact absurd hdir hnot
  · have hsame := walk_enlarged hend hp'
    rw [hp] at hsame
    cases hsame
    have hentry : (s.turn sys).fs.entry p = some (.link target) := by
      rcases hentry with hentry | ⟨target', hentry⟩
      · rw [hend.kept _ _ hentry] at hlink
        cases hlink
      · have hkept := hend.kept _ _ hentry
        rw [hlink] at hkept
        cases hkept
        exact hentry
    have htype : getDirectoryEntryType sys (s.turn sys).fs (unslashed dir) = .ok .linkFile := by
      unfold getDirectoryEntryType
      rw [lstat_eq (haccepts.resolve (hstart.symm ▸ hp')) hentry]
      rfl
    have haccepts₂ := haccepts.enlarged hlater₂.2
    have htext := readLink_eq_text (haccepts₂.resolve (hstart.symm ▸ walk_enlarged hlater₂.2 hp'))
      (hlater₂.2.kept _ _ hentry)
    unfold isDirectoryExistingShared openDirectoryShared
    rw [bind_ok (called_ok htype)]
    dsimp only
    by_cases hread : (linkText (unslashed dir) target).length < 512
    · -- the text is read, and is no path
      rw [if_pos hread] at htext
      have hopen : openAt sys (((s.turn sys).turn sys).turn sys).fs (unslashed dir)
          (linkText (unslashed dir) target) = .error (.opendirFailed .ENAMETOOLONG) := by
        have hnonempty : target ≠ [] := by
          rintro rfl
          exact hg.texts p (hon₁.low.old hentry nofun)
        have htoo : sys.pathMax ≤ (linkText (unslashed dir) target).length :=
          Nat.not_lt.mp fun hshort => hlong ⟨hread, hshort⟩
        unfold openAt opendir resolve follow
        rw [if_neg (linkText_ne_nil hnonempty), if_pos htoo]
        rfl
      rw [bind_ok (called_ok htext), called_error hopen]
      exact ⟨_, _, rfl, nofun⟩
    · rw [if_neg hread] at htext
      rw [bind_error (called_error htext)]
      exact ⟨_, _, rfl, nofun⟩

/-- The other processes can see to it that the run comes to such a link. -/
theorem createDirectory_fails (hg : Growing sys fs₀ path (components path).dropLast w)
    {tail : List UInt8}
    (hne : dir ≠ []) (htail : 47 ∉ tail) (hfits : ¬LinkFits sys w.fs path dir) (depth : ℕ) (flag : Bool)
    (text : List UInt8) (hdepth : text.length < depth) (htext : text = path ∨ Before text path)
    (hdir : dir ++ 47 :: tail = text ∨
      Before (dir ++ 47 :: tail) text ∧ ¬IsDirectory sys fs₀ path (dir ++ 47 :: tail)) :
    ∃ turns e s', Shared.Fair ⟨fs₀, turns⟩ path ∧
      createDirectory sys .EIOERR depth text flag true ⟨fs₀, turns⟩ = .error e s' ∧
      e.getUserData.getD .EIOERR ≠ .EEXIST := by
  have hon := onWay_refl path hg.sound (components path).dropLast
  -- an error of what comes before the last call is one of the method
  have hwhole : ∀ depth text flag s e s',
      createPreviousDirectory sys .EIOERR
        (fun dir' => createDirectory sys .EIOERR depth dir' true true) text s =
        .error e s' → createDirectory sys .EIOERR (depth + 1) text flag true s = .error e s' := by
    intro depth text flag s e s' herror
    rw [createDirectory, if_pos rfl, bind_error herror]
  induction depth generalizing text flag with
  | zero => exact absurd hdepth (Nat.not_lt_zero _)
  | succ depth ih =>
    have hfront : ∀ dir', Before dir' text → Before dir' path := by
      rintro dir' hbefore
      rcases htext with rfl | htext
      · exact hbefore
      · exact hbefore.trans htext
    rcases hdir with rfl | ⟨hbefore, hmissing⟩
    · -- the other processes make all that is in front of the link
      have hdirBefore := hfront dir ⟨tail, rfl⟩
      obtain ⟨dirs, hdirs, hall⟩ := exists_all hg hdirBefore hne
      obtain ⟨e, s', hcheck, he⟩ :=
        isDirectoryExisting_fails (s := ⟨fs₀, fun _ => dirs⟩) hg hon (fun _ => hdirs)
        hdirBefore hne (hall fs₀ hon) hfits
      refine ⟨fun _ => dirs, e, s', fun _ => hdirs, hwhole _ _ _ _ _ _ ?_, he⟩
      unfold createPreviousDirectory
      rw [previousDirectory_append hne htail]
      dsimp only
      rw [bind_error hcheck]
    · -- they wait until the run has come to it
      obtain ⟨dir', hprevious, hdir'⟩ :=
        previousDirectory_of_before hbefore (List.append_ne_nil_of_left_ne_nil hne _)
      obtain ⟨hne', tail', -, htail'⟩ := previousDirectory_some hprevious
      have hbefore' : Before dir' text := ⟨tail', htail'⟩
      obtain ⟨turns, e, s', hfair, herror, he⟩ := ih true dir' (by have := hbefore'.length_lt; omega)
        (Or.inr (hfront dir' hbefore')) (hdir'.imp_right fun h => ⟨h, hmissing⟩)
      refine ⟨behindEmpty turns, e, s', ?_, hwhole _ _ _ _ _ _ ?_, he⟩
      · rintro (_ | n) d hd
        · cases hd
        · exact hfair n d hd
      · have hnot : ¬IsDirectory sys fs₀ path dir' := by
          rintro hthere
          rcases hdir' with rfl | hdir'
          · exact hmissing hthere
          · exact hmissing (hthere.of_before hdir')
        have htype : getDirectoryEntryType sys fs₀ (unslashed dir') =
            .error (.lstatFailed .ENOENT) := by
          rcases getDirectoryEntryType_spec hg hon (hfront dir' hbefore') hne'
            (prefix_dropLast (hfront dir' hbefore')) with ⟨htype, -⟩ | ⟨hthere, -⟩
          · exact htype
          · exact absurd hthere hnot
        have hcheck : isDirectoryExistingShared sys .EIOERR dir'
            ⟨fs₀, behindEmpty turns⟩ = .ok false ⟨fs₀, turns⟩ := by
          unfold isDirectoryExistingShared openDirectoryShared
          rw [bind_error (called_error htype)]
          rfl
        unfold createPreviousDirectory
        rw [hprevious]
        dsimp only
        rw [bind_ok hcheck]
        show unlessExists .EIOERR (createDirectory sys .EIOERR depth dir' true true) ⟨fs₀, turns⟩ = _
        unfold unlessExists
        rw [herror]
        dsimp only
        rw [if_neg he]

/-- The links that may be looked at can be read. -/
theorem linksFit_of_creates {flag : Bool} (hs : fs.Sound sys)
    (htexts : ∀ p, fs.entry p ≠ some (.link []))
    (h : Creates sys fs path flag) :
    LinksFit sys fs
      (limit sys ⟨fs, start path sys.cwd, sys.linkMax⟩ (components path).dropLast) path := by
  obtain ⟨w, hgrow⟩ := grows_of_creates hs h
  obtain ⟨rest, hrest⟩ : (components path).dropLast <+: components path := List.dropLast_prefix _
  obtain ⟨w₁, hgrow₁, -⟩ := grow_beginning (hrest.symm ▸ hgrow)
  have hg : Growing sys fs path (components path).dropLast w₁ :=
    ⟨hs, htexts, accepts_of_creates hs h, ⟨rest, hrest⟩, hgrow₁⟩
  rw [limit_of_grow hgrow₁]
  intro dir tail hne htail hdir
  by_contra hfits
  obtain ⟨turns, e, s', hfair, herror, -⟩ :=
    createDirectory_fails hg hne htail hfits (path.length + 1) flag path (Nat.lt_succ_self _)
      (Or.inl rfl) hdir
  obtain ⟨s'', hrun, -⟩ := h .EIOERR turns hfair
  rw [herror] at hrun
  cases hrun

/-- **When a path is made**, for all that other processes do: exactly when it can be made. -/
theorem createDirectory_creates_iff (sys : System) (fs : FileSystem) (path : List UInt8)
    (bNoErrorIfExists : Bool)
    (hs : fs.Sound sys) (htexts : ∀ p, fs.entry p ≠ some (.link [])) :
    Creates sys fs path bNoErrorIfExists ↔ Creatable sys fs path bNoErrorIfExists := by
  constructor
  · intro h
    refine ⟨accepts_of_creates hs h, grows_of_creates hs h, ?_, linksFit_of_creates hs htexts h⟩
    rintro rfl
    exact lastIsNew_of_creates hs htexts h
  · exact creates_of_creatable hs htexts

/-- A root without entries. -/
def bareRoot : FileSystem where
  entries := [⟨[], .directory⟩].toAList
  content _ := []
  nextFile := 0

theorem bareRoot_sound : bareRoot.Sound linux :=
  FileSystem.sound_of_keys (FileSystem.tree_of_keys (by decide +kernel)) (by decide +kernel)
    (by decide +kernel)

theorem bareRoot_entry (h : bareRoot.entry p = some e) : e = .directory := by
  have hkey := AList.mem_keys.mp (AList.lookup_isSome.mp (Option.isSome_of_eq_some h))
  obtain rfl := List.mem_singleton.mp hkey
  rw [bareRoot_sound.root] at h
  exact (Option.some.inj h).symm

/-- "a/b" is made in an empty root, even where an entry that exists is an error. -/
theorem createDirectory_creates_iff_two : Creates linux bareRoot [97, 47, 98] false := by
  have hlinks : LinksFit linux bareRoot
      (limit linux ⟨bareRoot, start [97, 47, 98] linux.cwd, linux.linkMax⟩
        (components [97, 47, 98]).dropLast)
      [97, 47, 98] := by
    rintro dir tail - - - p m target - hlink
    cases bareRoot_entry ((enlarged_limit _ _).old hlink nofun)
  exact (createDirectory_creates_iff linux bareRoot [97, 47, 98] false bareRoot_sound
      fun p h => nomatch bareRoot_entry h).mpr
    ⟨⟨by decide, by decide, by decide +kernel⟩, ⟨_, rfl⟩,
      fun _ => ⟨_, [98], rfl, by decide +kernel, ⟨by decide, by decide, by decide⟩,
        by decide +kernel⟩, hlinks⟩

/-- "a/" is not made in an empty root: "a" is, and then the `mkdir` of "a/" finds it. -/
theorem not_created_slash :
    bareRoot.Sound linux ∧ (∀ p e, bareRoot.entry p = some e → e = .directory) ∧
      resolve linux bareRoot .directory [97, 47] = .error .ENOENT ∧
      error? (createDirectory linux .EIOERR 3 [97, 47] false true ⟨bareRoot, fun _ => []⟩) =
        some (.mkdirFailed .EEXIST) ∧
      ¬Creates linux bareRoot [97, 47] false := by
  have herror : error? (createDirectory linux .EIOERR 3 [97, 47] false true ⟨bareRoot, fun _ => []⟩) =
      some (.mkdirFailed .EEXIST) := by decide +kernel
  refine ⟨bareRoot_sound, fun _ _ h => bareRoot_entry h, by decide +kernel, herror, fun h => ?_⟩
  obtain ⟨s', hrun, -⟩ := h .EIOERR (fun _ => []) fun _ _ hmem => nomatch hmem
  have hrun : createDirectory linux .EIOERR 3 [97, 47] false true ⟨bareRoot, fun _ => []⟩ =
      .ok () s' := hrun
  rw [hrun] at herror
  cases herror

end FileIO

end CatraLibraries
