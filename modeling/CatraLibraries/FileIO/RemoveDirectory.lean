/-
# Removing a directory

`FileIO::removeDirectory` with `bRemoveRecursively`.  A round of the loop removes one entry and what
is below it; the path of the directory goes on to lead there, as nothing outside is touched.
-/
import CatraLibraries.FileIO.Directories

namespace CatraLibraries

open Posix Effects
open Paths (Name components Stays components_append)

namespace FileIO

variable {sys : System} {fs fs' : FileSystem} {path : List UInt8} {d : Place} {n : Name} {e : Entry}

/-! ### The calls on a path that leads to a directory -/

/-- The path that `openDirectory` keeps. -/
theorem exists_slashed_eq (h : Leads sys fs path d) (hd : d ≠ []) :
    ∃ path', slashed path = path' ++ [47] ∧ ∀ final, resolve sys fs final path' = .ok d := by
  obtain ⟨path', hslashed, hbare, hpath⟩ := slashed_eq path
  refine ⟨path', hslashed, fun final => ?_⟩
  rcases hpath with rfl | hpath
  · exact h.resolve
  · have hne : path' ≠ [] := by
      -- the path of the root has no component
      rintro rfl
      obtain ⟨m, hm⟩ := h.way
      have hroot : bareComponents path = [] := by
        rw [hpath]
        rfl
      rw [hroot, walk_nil, hpath] at hm
      cases hm
      exact hd rfl
    have hhead : path'.head? = path.head? := by
      rw [hpath]
      cases path' with
      | nil => exact absurd rfl hne
      | cons b path' => rfl
    have hfits : path'.length < sys.pathMax := by
      have := h.fits
      rw [hpath, List.length_append] at this
      omega
    obtain ⟨k, hk⟩ := components_eq_bare path'
    unfold resolve
    rw [hk, hbare]
    exact h.follow hne hhead hfits k

theorem openDirectory_slashed (h : Leads sys fs path d) (hd : d ≠ []) :
    ∃ path', slashed path = path' ++ [47] ∧
      openDirectory sys fs (slashed path) = .ok ⟨path', sys.readdir fs d⟩ := by
  obtain ⟨path', hslashed, hresolve⟩ := exists_slashed_eq h hd
  refine ⟨path', hslashed, ?_⟩
  have hunslashed : unslashed (slashed path) = path' := by
    unfold unslashed
    rw [hslashed, List.dropLast_concat, if_pos]
    rw [List.getLast?_append]
    rfl
  have htype : getDirectoryEntryType sys fs path' = .ok .directory := by
    unfold getDirectoryEntryType
    rw [lstat_eq (hresolve .noFollow) h.directory]
    rfl
  simp only [openDirectory, hunslashed, htype]
  unfold openAt
  rw [opendir_eq (hresolve .directory)]

theorem isDirectoryExisting_slashed (h : Leads sys fs path d) (hd : d ≠ []) :
    isDirectoryExisting sys fs (slashed path) = .ok true := by
  obtain ⟨path', -, hopen⟩ := openDirectory_slashed h hd
  unfold isDirectoryExisting
  rw [hopen]

/-- The entry of a name in the directory. -/
theorem lstat_name (h : Leads sys fs path d) (hn : EntryName n) (hname : n.length ≤ sys.nameMax)
    (hfits : (slashed path ++ n).length < sys.pathMax) (hentry : fs.entry (d ++ [n]) = some e) :
    lstat sys fs (slashed path ++ n) = .ok e :=
  lstat_eq (h.resolve_name hn hname hfits) hentry

theorem readEntry_dots {dDirectory : Directory} (h : n = [46] ∨ n = [46, 46]) :
    readEntry sys fs dDirectory n = .ok none := if_pos h

theorem readEntry_name (names : List Name) {path' : List UInt8} (hpath : slashed path = path' ++ [47])
    (h : Leads sys fs path d) (hn : EntryName n) (hname : n.length ≤ sys.nameMax)
    (hfits : (slashed path ++ n).length < sys.pathMax) (hentry : fs.entry (d ++ [n]) = some e) :
    readEntry sys fs ⟨path', names⟩ n = .ok (some (entryType e)) := by
  have hdots : ¬(n = [46] ∨ n = [46, 46]) := by
    rintro (rfl | rfl)
    · exact hn.stays (Or.inr rfl)
    · exact hn.up rfl
  unfold readEntry getDirectoryEntryType
  rw [if_neg hdots, ← hpath, lstat_name h hn hname hfits hentry]

/-- An entry that is no directory is removed. -/
theorem remove_name (h : Leads sys fs path d) (hn : EntryName n) (hname : n.length ≤ sys.nameMax)
    (hfits : (slashed path ++ n).length < sys.pathMax) (hentry : fs.entry (d ++ [n]) = some e)
    (he : e ≠ .directory) : remove sys (slashed path ++ n) fs = .ok () (fs.erase (d ++ [n])) := by
  refine change_ok ?_
  rw [unlink_eq (h.resolve_name hn hname hfits) hentry he]

/-- An empty directory is removed. -/
theorem rmdirDirectory_empty (h : Leads sys fs path d) (hd : d ≠ [])
    (hdot : (bareComponents path).getLast? ≠ some [46])
    (hempty : ∀ q, d <+: q → q ≠ d → fs.entry q = none) :
    rmdirDirectory sys path fs = .ok () (fs.erase d) := by
  refine change_ok ?_
  rw [rmdir_eq h.bare h.directory hd hdot ((fs.isEmpty_iff).mpr hempty)]

/-! ### The loop -/

/-- What the removal of a directory needs: a tree, a path that leads to the directory without what is
below it and does not end in ".", and paths of the entries that are not too long. -/
structure Removable (sys : System) (fs : FileSystem) (path : List UInt8) (d : Place) : Prop where
  tree : fs.Tree sys
  stands : Stands sys fs path d
  root : d ≠ []
  dot : (bareComponents path).getLast? ≠ some [46]
  fits : PathsFit sys fs path d

/-- The entry of a name and what is below it. -/
def At (d : Place) (n : Name) (q : Place) : Prop := d ++ [n] <+: q

theorem At.below {q : Place} (h : At d n q) : d <+: q ∧ q ≠ d := by
  refine ⟨(List.prefix_append d [n]).trans h, ?_⟩
  rintro rfl
  have := h.length_le
  rw [List.length_append, List.length_singleton] at this
  omega

namespace Removable

theorem fits_name (h : Removable sys fs path d) (hentry : (fs.entry (d ++ [n])).isSome) :
    (slashed path ++ n).length < sys.pathMax := h.fits [n] (List.cons_ne_nil _ _) hentry

/-- A directory of the directory is removable too. -/
theorem name (h : Removable sys fs path d) (hentry : fs.entry (d ++ [n]) = some .directory) :
    Removable sys fs (slashed path ++ n) (d ++ [n]) := by
  have hsome : (fs.entry (d ++ [n])).isSome := by
    rw [hentry]
    rfl
  obtain ⟨hn, hname⟩ := h.tree.name d n hsome
  obtain ⟨k, hk⟩ := components_slashed_append path hn.slash
  have hbare : bareComponents (slashed path ++ n) =
      bareComponents path ++ List.replicate k [] ++ [n] := by
    unfold bareComponents
    rw [hk]
    exact List.rdropWhile_concat_neg _ _ _ (by simpa using fun hnil => hn.stays (Or.inl hnil))
  refine ⟨h.tree, h.stands.name hn hname (h.fits_name hsome) hentry, by simp, ?_, h.fits.name n⟩
  rw [hbare, List.getLast?_concat]
  rintro ⟨⟩
  exact hn.stays (Or.inr rfl)

/-- It stays removable while entries of it go, each with what is below it. -/
theorem without (h : Removable sys fs path d) {gone : Place → Prop} (hw : Without fs' fs gone)
    (hgone : ∀ q, gone q → d <+: q ∧ q ≠ d) (hbelow : ∀ q n, gone q → fs'.entry (q ++ [n]) = none) :
    Removable sys fs' path d :=
  ⟨h.tree.without hw hbelow, h.stands.congr (hw.sameOutside hgone), h.root, h.dot, h.fits.without hw⟩

end Removable

/-- One round removes the entry of the name, and what is below it. -/
def Clears (sys : System) (path : List UInt8) (d : Place) (body : Name → DirectoryEntryType → Method Unit) :
    Prop :=
  ∀ fs n e, Removable sys fs path d → fs.entry (d ++ [n]) = some e →
    ∃ fs', body n (entryType e) fs = .ok () fs' ∧ Without fs' fs (At d n)

/-- **The loop removes the entries of its names.** -/
theorem forEntries_clears {body : Name → DirectoryEntryType → Method Unit} (hbody : Clears sys path d body)
    {path' : List UInt8} (hpath : slashed path = path' ++ [47]) (all names : List Name)
    (hnodup : names.Nodup)
    (h : Removable sys fs path d)
    (hnames : ∀ n ∈ names, n = [46] ∨ n = [46, 46] ∨ (fs.entry (d ++ [n])).isSome) :
    ∃ fs', forEntries sys ⟨path', all⟩ body names fs = .ok () fs' ∧
      Without fs' fs fun q => ∃ n ∈ names, (fs.entry (d ++ [n])).isSome ∧ At d n q := by
  induction names generalizing fs with
  | nil => exact ⟨fs, rfl, (Without.refl fs).congr (by simp) (by simp)⟩
  | cons n names ih =>
    obtain ⟨hnot, hnodup⟩ := List.nodup_cons.mp hnodup
    have hrest : ∀ n' ∈ names, n' = [46] ∨ n' = [46, 46] ∨ (fs.entry (d ++ [n'])).isSome :=
      fun n' hn' => hnames n' (List.mem_cons_of_mem _ hn')
    by_cases hsome : (fs.entry (d ++ [n])).isSome
    · obtain ⟨e, he⟩ := Option.isSome_iff_exists.mp hsome
      obtain ⟨hn, hname⟩ := h.tree.name d n hsome
      have hentry := readEntry_name all hpath h.stands.leads hn hname (h.fits_name hsome) he
      obtain ⟨fs₁, hround, hw⟩ := hbody fs n e h he
      have hbelow : ∀ q n', At d n q → fs₁.entry (q ++ [n']) = none :=
        fun q n' hq => hw.absent _ (hq.trans (List.prefix_append q [n']))
      have hother : ∀ n' ∈ names, fs₁.entry (d ++ [n']) = fs.entry (d ++ [n']) := by
        intro n' hn'
        refine hw.kept _ fun hat => hnot ?_
        have hsame := hat.eq_of_length (by simp)
        rw [List.append_cancel_left_eq, List.singleton_inj] at hsame
        rwa [hsame]
      obtain ⟨fs₂, hrun, hw₂⟩ := ih hnodup (h.without hw (fun q => At.below) hbelow) (fun n' hn' => by
        rw [hother n' hn']
        exact hrest n' hn')
      refine ⟨fs₂, ?_, (hw₂.trans hw).congr ?_ ?_⟩
      · refine bind_eq_ok.mpr ⟨_, fs, look_ok hentry, ?_⟩
        exact bind_eq_ok.mpr ⟨(), fs₁, hround, hrun⟩
      · rintro q ⟨n', hn', hpresent, hq⟩
        rcases List.mem_cons.mp hn' with rfl | hn'
        · exact Or.inl (Or.inl hq)
        · refine Or.inl (Or.inr ⟨n', hn', ?_, hq⟩)
          rwa [hother n' hn']
      · rintro q (hq | ⟨n', hn', hpresent, hq⟩)
        · exact ⟨n, List.mem_cons_self, hsome, hq⟩
        · refine ⟨n', List.mem_cons_of_mem _ hn', ?_, hq⟩
          rwa [← hother n' hn']
    · have hdots : n = [46] ∨ n = [46, 46] := by
        rcases hnames n List.mem_cons_self with hn | hn | hn
        · exact Or.inl hn
        · exact Or.inr hn
        · exact absurd hn hsome
      obtain ⟨fs₂, hrun, hw₂⟩ := ih hnodup h hrest
      refine ⟨fs₂, ?_, hw₂.congr ?_ ?_⟩
      · exact bind_eq_ok.mpr ⟨none, fs, look_ok (readEntry_dots hdots), hrun⟩
      · rintro q ⟨n', hn', hpresent, hq⟩
        rcases List.mem_cons.mp hn' with rfl | hn'
        · exact absurd hpresent hsome
        · exact Or.inl ⟨n', hn', hpresent, hq⟩
      · rintro q ⟨n', hn', hpresent, hq⟩
        exact ⟨n', List.mem_cons_of_mem _ hn', hpresent, hq⟩

/-! ### The removal -/

/-- A file or a link goes alone: nothing is below it. -/
theorem remove_clears (h : Removable sys fs path d) (he : fs.entry (d ++ [n]) = some e)
    (hdirectory : e ≠ .directory) :
    ∃ fs', remove sys (slashed path ++ n) fs = .ok () fs' ∧ Without fs' fs (At d n) := by
  have hsome : (fs.entry (d ++ [n])).isSome := by
    rw [he]
    rfl
  obtain ⟨hn, hname⟩ := h.tree.name d n hsome
  refine ⟨_, remove_name h.stands.leads hn hname (h.fits_name hsome) he hdirectory,
    (Without.erase fs (d ++ [n])).congr (fun q hq => ?_) ?_⟩
  · by_cases hqd : q = d ++ [n]
    · exact Or.inl hqd
    · refine Or.inr ?_
      rw [fs.entry_erase_of_ne hqd]
      refine h.tree.none_below (fun hdir => hdirectory ?_) hq hqd
      rw [he] at hdir
      exact Option.some.inj hdir
  · rintro q rfl
    exact List.prefix_refl _

/-- After the loop the directory is empty. -/
theorem none_below_of_forEntries (h : Removable sys fs path d)
    (hw : Without fs' fs fun q => ∃ n ∈ sys.readdir fs d, (fs.entry (d ++ [n])).isSome ∧ At d n q)
    {q : Place} (hq : d <+: q) (hne : q ≠ d) : fs'.entry q = none := by
  by_contra hentry
  have hsome := hw.isSome (Option.isSome_iff_ne_none.mpr hentry)
  obtain ⟨r, rfl⟩ := hq
  cases r with
  | nil => exact hne (List.append_nil d)
  | cons n r =>
    have hpresent : (fs.entry (d ++ [n])).isSome := by
      cases r with
      | nil => exact hsome
      | cons n' r =>
        have happend : d ++ n :: n' :: r = d ++ [n] ++ n' :: r := by simp
        rw [happend] at hsome
        rw [h.tree.above (List.cons_ne_nil _ _) hsome]
        rfl
    have hn := (h.tree.name d n hpresent).1
    refine hentry (hw.absent _ ⟨n, sys.mem_readdir fs d n hn hpresent, hpresent, ?_⟩)
    exact ⟨r, by simp⟩

/-- **The removal of a directory.**  The depth of the recursion is bounded by the longest path. -/
theorem removeDirectory_removes (depth : ℕ) (h : Removable sys fs path d)
    (hdepth : sys.pathMax ≤ path.length + depth) :
    ∃ fs', removeDirectory sys depth path true fs = .ok () fs' ∧ Without fs' fs (d <+: ·) := by
  induction depth generalizing fs path d with
  | zero => exact absurd h.stands.leads.fits (by omega)
  | succ depth ih =>
    have hlength : ∀ n : Name, n ≠ [] → path.length + 1 ≤ (slashed path ++ n).length := by
      intro n hn
      have hn := List.length_pos_iff.mpr hn
      unfold slashed
      split
      all_goals
        rw [List.length_append]
        try rw [List.length_append]
        omega
    have hclears : Clears sys path d
        (removeEntry sys (fun path => removeDirectory sys depth path true) (slashed path)) := by
      intro fs n e h he
      cases e with
      | directory =>
        have hname := h.name he
        have hn := (h.tree.name d n (by rw [he]; rfl)).1
        have := hlength n fun hnil => hn.stays (Or.inl hnil)
        exact ih hname (by omega)
      | regular file => exact remove_clears h he nofun
      | link target => exact remove_clears h he nofun
    have hleads := h.stands.leads
    obtain ⟨path', hslashed, hopen⟩ := openDirectory_slashed hleads h.root
    obtain ⟨fs', hloop, hw⟩ := forEntries_clears hclears hslashed (sys.readdir fs d)
      (sys.readdir fs d) (sys.readdir_nodup fs d) h (sys.readdir_name fs d)
    have hbelow : ∀ q, d <+: q → q ≠ d → fs'.entry q = none :=
      fun q hq hne => none_below_of_forEntries h hw hq hne
    have hleads' : Leads sys fs' path d := by
      refine h.stands fs' (hw.sameOutside ?_)
      rintro q ⟨n, -, -, hq⟩
      exact hq.below
    refine ⟨fs'.erase d, ?_, ((Without.erase fs' d).trans hw).congr ?_ ?_⟩
    · refine bind_eq_ok.mpr ⟨true, fs, look_ok (isDirectoryExisting_slashed hleads h.root), ?_⟩
      refine bind_eq_ok.mpr ⟨_, fs, look_ok hopen, ?_⟩
      refine bind_eq_ok.mpr ⟨(), fs', hloop, ?_⟩
      exact rmdirDirectory_empty hleads' h.root h.dot hbelow
    · intro q hq
      by_cases hqd : q = d
      · exact Or.inl (Or.inr hqd)
      · refine Or.inr ?_
        rw [fs'.entry_erase_of_ne hqd]
        exact hbelow q hq hqd
    · rintro q (⟨n, -, -, hq⟩ | rfl)
      · exact hq.below.1
      · exact List.prefix_refl q

/-- **`removeDirectory` removes a tree.**  It ends well, and what is removed is the directory and what
is below it: no other entry and no file is touched, whatever the links below the directory point to. -/
def RemovesTree (sys : System) (fs : FileSystem) (path : List UInt8) (d : Place) : Prop :=
  ∀ depth, sys.pathMax ≤ depth →
    ∃ fs', removeDirectory sys depth path true fs = .ok () fs' ∧ Without fs' fs (d <+: ·)

/-- A directory is removed with what is below it when its path leads there without what is below it,
it is not the root, the path does not end in ".", and the paths of the entries are not too long. -/
theorem removesTree_of_removable (h : Removable sys fs path d) : RemovesTree sys fs path d :=
  fun depth hdepth => removeDirectory_removes depth h (by omega)

/-- Plain paths are such paths. -/
theorem Removable.plainPath (h : fs.Tree sys) (hd : d ≠ []) (hentry : fs.entry d = some .directory)
    (hlength : (plainPath d).length < sys.pathMax) (hfits : PathsFit sys fs (plainPath d) d) :
    Removable sys fs (plainPath d) d := by
  refine ⟨h, h.stands_plainPath hd hentry hlength, hd, ?_, hfits⟩
  rw [bareComponents_plainPath hd fun n hn => (h.name_of_mem hentry hn).1]
  intro hdot
  have hmem := List.mem_of_getLast? hdot
  rcases List.mem_cons.mp hmem with hnil | hmem
  · cases hnil
  · exact (h.name_of_mem hentry hmem).1.stays (Or.inr rfl)

/-- The directory "/t" with the directory "x", and with a link "l" to the root. -/
def smallTree : FileSystem where
  entries := [⟨[], .directory⟩, ⟨[[116]], .directory⟩, ⟨[[116], [120]], .directory⟩,
    ⟨[[116], [108]], .link [47]⟩].toAList
  content _ := []
  nextFile := 0

/-- A system with the limits of Linux. -/
def linux : System := .ordered [] 4096 255 40 .EIOERR

theorem smallTree_tree : smallTree.Tree linux := FileSystem.tree_of_keys (by decide +kernel)

theorem smallTree_fits : PathsFit linux smallTree [47, 116] [[116]] := by
  intro r hr hentry
  have hkey := AList.mem_keys.mp (AList.lookup_isSome.mp hentry)
  have hall : ∀ q ∈ smallTree.entries.keys, (entryPath [47, 116] (q.drop 1)).length < 4096 := by
    decide +kernel
  exact hall _ hkey

/-- The link to the root goes, the root stays. -/
theorem removesTree_smallTree : RemovesTree linux smallTree [47, 116] [[116]] :=
  removesTree_of_removable (.plainPath smallTree_tree (by decide) (by decide +kernel) (by decide +kernel)
    smallTree_fits)

/-- Paths of directories that are refused, and the errors: the root, a path that ends in ".", one that
leads through an entry that is removed, and one that is too long with the name of an entry behind it. -/
def refusedPaths : List (List UInt8 × Place × FileIOError) :=
  [([47], [], .directoryNotExisting), ([47, 116, 47, 46], [[116]], .rmdirFailed .EINVAL),
    ([47, 116, 47, 120, 47, 46, 46, 47, 46, 46, 47, 116], [[116]], .rmdirFailed .ENOENT),
    ([47, 116] ++ List.replicate 4093 47, [[116]], .lstatFailed .ENAMETOOLONG)]

theorem not_removesTree_refused :
    refusedPaths.Forall fun p => smallTree.Tree linux ∧ Leads linux smallTree p.1 p.2.1 ∧
      error? (removeDirectory linux 4096 p.1 true smallTree) = some p.2.2 ∧
      ¬RemovesTree linux smallTree p.1 p.2.1 := by
  rw [List.forall_iff_forall_mem]
  intro p hp
  have hlook : ∀ p ∈ refusedPaths, p.1 ≠ [] ∧ p.1.length < 4096 ∧ p.1.head? = some 47 ∧
      walk linux smallTree .noFollow 40 [] (bareComponents p.1) = .ok (p.2.1, 40) ∧
      smallTree.entry p.2.1 = some .directory ∧
      error? (removeDirectory linux 4096 p.1 true smallTree) = some p.2.2 := by
    decide +kernel
  obtain ⟨hne, hfits, hhead, hway, hentry, herror⟩ := hlook p hp
  have hleads : Leads linux smallTree p.1 p.2.1 := by
    refine ⟨hne, hfits, Or.inl hhead, ⟨40, ?_⟩, hentry⟩
    have hstart : start p.1 linux.cwd = [] := if_pos hhead
    rw [hstart]
    exact hway
  refine ⟨smallTree_tree, hleads, herror, fun hremoves => ?_⟩
  obtain ⟨fs', hrun, -⟩ := hremoves 4096 (le_refl _)
  exact not_ok_of_error? herror hrun

end FileIO

end CatraLibraries
