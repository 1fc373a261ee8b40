/-
# Trees of directories

What is below a directory, and the paths that lead to it.  A path that is made of the path of the
directory, a slash and a name leads to the entry of that name, as long as the path of the directory
leads there; that does not depend on what is below the directory.
-/
import CatraLibraries.Lib.FileSystem

namespace Posix

open Paths (Name components Stays components_append)

variable (sys : System) (fs : FileSystem) (final : Final)

/-! ### Paths of directories -/

section Directories

variable {sys fs} {final : Final} {path : List UInt8} {d : Place} {n : Name}

/-- A path with one slash at its end, or more. -/
def slashed (path : List UInt8) : List UInt8 :=
  if path.getLast? = some 47 then path else path ++ [47]

theorem bareComponents_slash (path : List UInt8) :
    bareComponents (path ++ [47]) = bareComponents path := by
  unfold bareComponents
  rw [components_append]
  exact List.rdropWhile_concat_pos _ _ _ (by simp)

theorem components_eq_bare (path : List UInt8) :
    ∃ k, components path = bareComponents path ++ List.replicate k [] := by
  unfold bareComponents
  generalize components path = cs
  induction cs using List.reverseRecOn with
  | nil => exact ⟨0, rfl⟩
  | append_singleton cs c ih =>
    by_cases hc : c = []
    · obtain ⟨k, hk⟩ := ih
      refine ⟨k + 1, ?_⟩
      rw [List.rdropWhile_concat_pos _ _ _ (by simpa using hc), List.replicate_succ', ← List.append_assoc,
        ← hk, hc]
    · refine ⟨0, ?_⟩
      rw [List.rdropWhile_concat_neg _ _ _ (by simpa using hc), List.replicate_zero, List.append_nil]

/-- A path with a slash at its end is another one and the slash. -/
theorem slashed_eq (path : List UInt8) : ∃ path', slashed path = path' ++ [47] ∧
    bareComponents path' = bareComponents path ∧ (path' = path ∨ path = path' ++ [47]) := by
  unfold slashed
  split
  · next h =>
    refine ⟨path.dropLast, (List.dropLast_append_getLast? 47 h).symm, ?_, Or.inr ?_⟩
    · rw [← bareComponents_slash path.dropLast, List.dropLast_append_getLast? 47 h]
    · exact (List.dropLast_append_getLast? 47 h).symm
  · exact ⟨path, rfl, rfl, Or.inl rfl⟩

theorem components_slashed_append (path : List UInt8) (hn : 47 ∉ n) :
    ∃ k, components (slashed path ++ n) = bareComponents path ++ List.replicate k [] ++ [n] := by
  obtain ⟨path', hpath', hbare, -⟩ := slashed_eq path
  obtain ⟨k, hk⟩ := components_eq_bare path'
  refine ⟨k, ?_⟩
  rw [hpath', List.append_assoc, List.singleton_append, components_append, hk, hbare]
  exact congrArg _ (List.splitOn_eq_singleton hn)

theorem head?_slashed_append (h : path ≠ []) (n : Name) :
    (slashed path ++ n).head? = path.head? := by
  unfold slashed
  cases path with
  | nil => exact absurd rfl h
  | cons b path => split <;> rfl

/-- **A path leads to a directory**, by its last name and not by a link there. -/
structure Leads (sys : System) (fs : FileSystem) (path : List UInt8) (d : Place) : Prop where
  ne : path ≠ []
  fits : path.length < sys.pathMax
  base : path.head? = some 47 ∨ fs.entry sys.cwd = some .directory
  way : ∃ m, walk sys fs .noFollow sys.linkMax (start path sys.cwd) (bareComponents path) = .ok (d, m)
  directory : fs.entry d = some .directory

theorem start_congr {path' : List UInt8} (h : path'.head? = path.head?) (d : Place) :
    start path' d = start path d := by
  unfold start
  rw [h]

/-- A path that starts like another one and is not too long is followed. -/
theorem Leads.follow_eq (h : Leads sys fs path d) {path' : List UInt8} (hne : path' ≠ [])
    (hhead : path'.head? = path.head?) (hfits : path'.length < sys.pathMax) (cs : List Name) :
    follow sys fs final path' cs =
      (walk sys fs final sys.linkMax (start path sys.cwd) cs).map (·.1) := by
  unfold follow
  rw [if_neg hne, if_neg (Nat.not_le.mpr hfits), if_neg, start_congr hhead]
  rintro ⟨hhead', hbase⟩
  rcases h.base with h | h
  · exact hhead' (hhead.trans h)
  · exact hbase h

theorem Leads.follow (h : Leads sys fs path d) {path' : List UInt8} (hne : path' ≠ [])
    (hhead : path'.head? = path.head?) (hfits : path'.length < sys.pathMax) (k : ℕ) :
    follow sys fs final path' (bareComponents path ++ List.replicate k []) = .ok d := by
  obtain ⟨m, hm⟩ := h.way
  rw [h.follow_eq hne hhead hfits, walk_append_empty hm h.directory]
  rfl

/-- The calls find the directory. -/
theorem Leads.resolve (h : Leads sys fs path d) : resolve sys fs final path = .ok d := by
  obtain ⟨k, hk⟩ := components_eq_bare path
  unfold Posix.resolve
  rw [hk]
  exact h.follow h.ne rfl h.fits k

/-- The calls that take the slashes away find the directory too. -/
theorem Leads.bare (h : Leads sys fs path d) :
    Posix.follow sys fs final path (bareComponents path) = .ok d := by
  have hfollow : Posix.follow sys fs final path (bareComponents path ++ List.replicate 0 []) = .ok d :=
    h.follow h.ne rfl h.fits 0
  rwa [List.replicate_zero, List.append_nil] at hfollow

/-- What a name in the directory leads to. -/
theorem Leads.resolve_name (h : Leads sys fs path d) (hn : EntryName n)
    (hname : n.length ≤ sys.nameMax) (hfits : (slashed path ++ n).length < sys.pathMax) :
    Posix.resolve sys fs .noFollow (slashed path ++ n) = .ok (d ++ [n]) := by
  obtain ⟨m, hm⟩ := h.way
  obtain ⟨k, hk⟩ := components_slashed_append path hn.slash
  have hne : slashed path ++ n ≠ [] := by
    intro hnil
    have hstays := hn.stays
    rw [(List.append_eq_nil_iff.mp hnil).2] at hstays
    exact hstays (Or.inl rfl)
  unfold Posix.resolve
  rw [hk, h.follow_eq hne (head?_slashed_append h.ne n) hfits, walk_append_name hm h.directory,
    walk_name_noFollow hn hname]
  rfl

/-- A path behind a slash and a name leads to the directory of that name. -/
theorem Leads.name (h : Leads sys fs path d) (hn : EntryName n) (hname : n.length ≤ sys.nameMax)
    (hfits : (slashed path ++ n).length < sys.pathMax)
    (hdirectory : fs.entry (d ++ [n]) = some .directory) : Leads sys fs (slashed path ++ n) (d ++ [n]) := by
  obtain ⟨m, hm⟩ := h.way
  obtain ⟨k, hk⟩ := components_slashed_append path hn.slash
  have hne : n ≠ [] := by
    intro hnil
    exact hn.stays (Or.inl hnil)
  have hbare : bareComponents (slashed path ++ n) =
      bareComponents path ++ List.replicate k [] ++ [n] := by
    unfold bareComponents
    rw [hk]
    exact List.rdropWhile_concat_neg _ _ _ (by simpa using hne)
  have hhead := head?_slashed_append h.ne n
  refine ⟨fun hnil => hne (List.append_eq_nil_iff.mp hnil).2, hfits, ?_, ⟨m, ?_⟩, hdirectory⟩
  · rw [hhead]
    exact h.base
  · rw [hbare, start_congr hhead, walk_append_name hm h.directory, walk_name_noFollow hn hname]

/-! ### What is below a directory -/

/-- The same entries, except below the directory. -/
def SameOutside (fs' fs : FileSystem) (d : Place) : Prop :=
  ∀ q, ¬(d <+: q ∧ q ≠ d) → fs'.entry q = fs.entry q

/-- A path leads to a directory whatever is below the directory. -/
def Stands (sys : System) (fs : FileSystem) (path : List UInt8) (d : Place) : Prop :=
  ∀ fs', SameOutside fs' fs d → Leads sys fs' path d

variable {fs' : FileSystem}

theorem SameOutside.refl (fs : FileSystem) (d : Place) : SameOutside fs fs d := fun _ _ => rfl

theorem SameOutside.trans {fs'' : FileSystem} (h : SameOutside fs'' fs' d) (h' : SameOutside fs' fs d) :
    SameOutside fs'' fs d := fun q hq => (h q hq).trans (h' q hq)

/-- What is the same outside a directory is the same outside the directory above. -/
theorem SameOutside.above {r : List Name} (h : SameOutside fs' fs (d ++ r)) : SameOutside fs' fs d := by
  intro q hq
  refine h q fun ⟨hpre, hne⟩ => hq ⟨(List.prefix_append d r).trans hpre, ?_⟩
  rintro rfl
  have hlength := hpre.length_le
  rw [List.length_append] at hlength
  have hr : r = [] := List.length_eq_zero_iff.mp (by omega)
  rw [hr, List.append_nil] at hne
  exact hne rfl

theorem Stands.leads (h : Stands sys fs path d) : Leads sys fs path d := h fs (SameOutside.refl fs d)

theorem Stands.congr (h : Stands sys fs path d) (hsame : SameOutside fs' fs d) :
    Stands sys fs' path d := fun fs'' h'' => h fs'' (h''.trans hsame)

/-- The directories of a directory stand too. -/
theorem Stands.name (h : Stands sys fs path d) (hn : EntryName n) (hname : n.length ≤ sys.nameMax)
    (hfits : (slashed path ++ n).length < sys.pathMax)
    (hdirectory : fs.entry (d ++ [n]) = some .directory) :
    Stands sys fs (slashed path ++ n) (d ++ [n]) := by
  intro fs' hsame
  refine (h fs' hsame.above).name hn hname hfits ?_
  rw [hsame _ fun h => h.2 rfl]
  exact hdirectory

/-- **The entries make a tree**: each one has a name that a directory may hold, in a directory. -/
structure FileSystem.Tree (sys : System) (fs : FileSystem) : Prop where
  name : ∀ d n, (fs.entry (d ++ [n])).isSome → EntryName n ∧ n.length ≤ sys.nameMax
  parent : ∀ d n, (fs.entry (d ++ [n])).isSome → fs.entry d = some .directory

/-- What has an entry below it is a directory. -/
theorem FileSystem.Tree.above (h : fs.Tree sys) {r : List Name} (hr : r ≠ [])
    (hentry : (fs.entry (d ++ r)).isSome) : fs.entry d = some .directory := by
  induction r using List.reverseRecOn with
  | nil => exact absurd rfl hr
  | append_singleton r n ih =>
    rw [← List.append_assoc] at hentry
    have hparent := h.parent _ _ hentry
    by_cases hnil : r = []
    · rwa [hnil, List.append_nil] at hparent
    · refine ih hnil ?_
      rw [hparent]
      rfl

/-- Nothing is below what is not a directory. -/
theorem FileSystem.Tree.none_below (h : fs.Tree sys) (hd : fs.entry d ≠ some .directory) {q : Place}
    (hq : d <+: q) (hne : q ≠ d) : fs.entry q = none := by
  obtain ⟨r, rfl⟩ := hq
  by_contra hentry
  refine hd (h.above (r := r) ?_ (Option.isSome_iff_ne_none.mpr hentry))
  rintro rfl
  exact hne (List.append_nil d)

/-- The entries of a list make a tree when each one but the root has a name in a directory. -/
theorem FileSystem.tree_of_keys
    (h : ∀ q ∈ fs.entries.keys, ∀ n ∈ q.getLast?,
      EntryName n ∧ n.length ≤ sys.nameMax ∧ fs.entry q.dropLast = some .directory) : fs.Tree sys := by
  have hall : ∀ d n, (fs.entry (d ++ [n])).isSome →
      EntryName n ∧ n.length ≤ sys.nameMax ∧ fs.entry d = some .directory := by
    intro d n hentry
    have := h (d ++ [n]) (AList.mem_keys.mp (AList.lookup_isSome.mp hentry)) n
      (by rw [List.getLast?_concat]; rfl)
    rwa [List.dropLast_concat] at this
  exact ⟨fun d n hentry => ⟨(hall d n hentry).1, (hall d n hentry).2.1⟩,
    fun d n hentry => (hall d n hentry).2.2⟩

/-! ### Plain paths -/

/-- The path of the names from the root on. -/
def plainPath (d : Place) : List UInt8 := d.flatMap fun n => 47 :: n

theorem components_slash_append (path : List UInt8) : components (47 :: path) = [] :: components path := by
  have happend := components_append [] path
  rw [List.nil_append] at happend
  rw [happend]
  rfl

theorem components_plainPath (hd : ∀ n ∈ d, 47 ∉ n) : components (plainPath d) = [] :: d := by
  induction d with
  | nil => rfl
  | cons n d ih =>
    have hcut : components n = [n] := List.splitOn_eq_singleton (hd n List.mem_cons_self)
    have ih := ih fun n' hn' => hd n' (List.mem_cons_of_mem _ hn')
    show components (47 :: (n ++ plainPath d)) = _
    rw [components_slash_append]
    cases d with
    | nil =>
      show [] :: components (n ++ []) = _
      rw [List.append_nil, hcut]
    | cons n' d =>
      have hplain : plainPath (n' :: d) = 47 :: (n' ++ plainPath d) := rfl
      rw [hplain, components_slash_append] at ih
      rw [hplain, components_append, hcut, (List.cons.inj ih).2]
      rfl

/-- Names of directories lead to the last one. -/
theorem walk_names {links : ℕ} {r : List Name} {q : Place}
    (hnames : ∀ n ∈ r, EntryName n ∧ n.length ≤ sys.nameMax)
    (hdirectories : ∀ r', r' <+: r → fs.entry (q ++ r') = some .directory) :
    walk sys fs .noFollow links q r = .ok (q ++ r, links) := by
  induction r generalizing q with
  | nil => rw [walk_nil, List.append_nil]
  | cons n r ih =>
    obtain ⟨hn, hname⟩ := hnames n List.mem_cons_self
    refine (walk_eq_ok hn.stays hn.up).mpr ⟨hname, .directory (hdirectories [n] ⟨r, rfl⟩) ?_⟩
    rw [ih fun n' hn' => hnames n' (List.mem_cons_of_mem _ hn')]
    · rw [List.append_assoc]
      rfl
    · intro r' hr'
      rw [List.append_assoc]
      exact hdirectories (n :: r') (List.cons_prefix_cons.mpr ⟨rfl, hr'⟩)

theorem bareComponents_plainPath (hd : d ≠ []) (hnames : ∀ n ∈ d, EntryName n) :
    bareComponents (plainPath d) = [] :: d := by
  unfold bareComponents
  rw [components_plainPath fun n hn => (hnames n hn).slash, List.rdropWhile_eq_self_iff]
  intro hne hlast
  have hmem := List.getLast_mem hd
  rw [List.getLast_cons hd, decide_eq_true_eq] at hlast
  rw [hlast] at hmem
  exact (hnames _ hmem).stays (Or.inl rfl)

theorem FileSystem.Tree.directory_of_prefix (h : fs.Tree sys) (hentry : fs.entry d = some .directory)
    {r : Place} (hr : r <+: d) : fs.entry r = some .directory := by
  obtain ⟨r', rfl⟩ := hr
  by_cases hr' : r' = []
  · rwa [hr', List.append_nil] at hentry
  · exact h.above hr' (by rw [hentry]; rfl)

theorem FileSystem.Tree.name_of_mem (h : fs.Tree sys) (hentry : fs.entry d = some .directory)
    (hn : n ∈ d) : EntryName n ∧ n.length ≤ sys.nameMax := by
  obtain ⟨r, r', hr⟩ := List.append_of_mem hn
  have hprefix : r ++ [n] <+: d := ⟨r', by rw [hr]; simp⟩
  exact h.name r n (by rw [h.directory_of_prefix hentry hprefix]; rfl)

/-- **The plain path of a directory** leads there whatever is below the directory. -/
theorem FileSystem.Tree.stands_plainPath (h : fs.Tree sys) (hd : d ≠ [])
    (hentry : fs.entry d = some .directory) (hfits : (plainPath d).length < sys.pathMax) :
    Stands sys fs (plainPath d) d := by
  have hnames : ∀ n ∈ d, EntryName n ∧ n.length ≤ sys.nameMax := fun n hn => h.name_of_mem hentry hn
  have hhead : (plainPath d).head? = some 47 := by
    cases d with
    | nil => exact absurd rfl hd
    | cons n d => rfl
  intro fs' hsame
  have habove : ∀ r, r <+: d → fs'.entry ([] ++ r) = some .directory := by
    intro r hr
    rw [List.nil_append, hsame r fun hbelow => hbelow.2 (hr.eq_of_length_le hbelow.1.length_le)]
    exact h.directory_of_prefix hentry hr
  refine ⟨?_, hfits, Or.inl hhead, ⟨sys.linkMax, ?_⟩, habove d (List.prefix_refl d)⟩
  · rintro hnil
    rw [hnil] at hhead
    cases hhead
  · have hstart : start (plainPath d) sys.cwd = [] := if_pos hhead
    rw [hstart, bareComponents_plainPath hd fun n hn => (hnames n hn).1, walk_stays (Or.inl rfl),
      walk_names hnames habove]
    rfl

/-- The entries without some of them. -/
structure Without (fs' fs : FileSystem) (gone : Place → Prop) : Prop where
  absent : ∀ q, gone q → fs'.entry q = none
  kept : ∀ q, ¬gone q → fs'.entry q = fs.entry q
  content : fs'.content = fs.content

variable {gone : Place → Prop}

theorem Without.refl (fs : FileSystem) : Without fs fs fun _ => False :=
  ⟨nofun, fun _ _ => rfl, rfl⟩

theorem Without.erase (fs : FileSystem) (d : Place) : Without (fs.erase d) fs (· = d) :=
  ⟨fun q hq => by rw [hq, FileSystem.entry_erase_self], fun q hq => fs.entry_erase_of_ne hq, rfl⟩

theorem Without.congr {gone' : Place → Prop} (h : Without fs' fs gone)
    (hgone : ∀ q, gone' q → gone q ∨ fs'.entry q = .none) (hkept : ∀ q, gone q → gone' q) :
    Without fs' fs gone' :=
  ⟨fun q hq => (hgone q hq).elim (h.absent q) id, fun q hq => h.kept q fun hg => hq (hkept q hg), h.content⟩

theorem Without.trans {fs'' : FileSystem} {gone' : Place → Prop} (h : Without fs'' fs' gone')
    (h' : Without fs' fs gone) : Without fs'' fs fun q => gone q ∨ gone' q := by
  refine ⟨fun q hq => ?_, fun q hq => ?_, h.content.trans h'.content⟩
  · by_cases hq' : gone' q
    · exact h.absent q hq'
    · rw [h.kept q hq', h'.absent q (hq.resolve_right hq')]
  · rw [h.kept q fun hg => hq (Or.inr hg), h'.kept q fun hg => hq (Or.inl hg)]

theorem Without.isSome (h : Without fs' fs gone) {q : Place} (hq : (fs'.entry q).isSome) :
    (fs.entry q).isSome := by
  by_cases hg : gone q
  · rw [h.absent q hg] at hq
    cases hq
  · rwa [h.kept q hg] at hq

/-- A tree stays one when whatever is below an entry goes with it. -/
theorem FileSystem.Tree.without (h : fs.Tree sys) (hw : Without fs' fs gone)
    (hbelow : ∀ q n, gone q → fs'.entry (q ++ [n]) = none) : fs'.Tree sys := by
  refine ⟨fun q n hq => h.name q n (hw.isSome hq), fun q n hq => ?_⟩
  have hgone : ¬gone q := by
    intro hg
    rw [hbelow q n hg] at hq
    cases hq
  rw [hw.kept q hgone]
  exact h.parent q n (hw.isSome hq)

theorem Without.sameOutside (h : Without fs' fs gone) (hgone : ∀ q, gone q → d <+: q ∧ q ≠ d) :
    SameOutside fs' fs d := fun q hq => h.kept q fun hg => hq (hgone q hg)

/-- The path of an entry below a directory, name by name. -/
def entryPath (path : List UInt8) (r : List Name) : List UInt8 :=
  r.foldl (fun path n => slashed path ++ n) path

/-- The paths of the entries below a directory are not too long. -/
def PathsFit (sys : System) (fs : FileSystem) (path : List UInt8) (d : Place) : Prop :=
  ∀ r ≠ [], (fs.entry (d ++ r)).isSome → (entryPath path r).length < sys.pathMax

theorem PathsFit.name (h : PathsFit sys fs path d) (n : Name) :
    PathsFit sys fs (slashed path ++ n) (d ++ [n]) := by
  intro r _ hentry
  rw [List.append_assoc] at hentry
  exact h (n :: r) (List.cons_ne_nil _ _) hentry

theorem PathsFit.without (h : PathsFit sys fs path d) (hw : Without fs' fs gone) :
    PathsFit sys fs' path d := fun r hr hentry => h r hr (hw.isSome hentry)

end Directories

end Posix
