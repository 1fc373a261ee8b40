/-
# Ways that stay

A path is found again at each call, and the file system may have changed in between.  Regular files
on the way do not matter, nor does a symbolic link that leads to no directory: no way goes on behind
either.
-/
import CatraLibraries.Lib.FileTree

namespace Posix

open Paths (Name components Stays components_append)

variable {sys : System} {fs fs' : FileSystem} {final : Final} {links m : ℕ} {d p q : Place} {c : Name}
  {cs ds : List Name} {path target : List UInt8} {file : ℕ}

/-! ### Regular files -/

/-- A way may go on behind a directory or a link. -/
def Entry.Leads : Entry → Prop
  | .regular _ => False
  | _ => True

theorem Entry.leads_directory : Entry.directory.Leads := trivial

theorem Entry.leads_link (target : List UInt8) : (Entry.link target).Leads := trivial

/-- The same directories and the same links. -/
def SameWays (fs' fs : FileSystem) : Prop :=
  ∀ q e, e.Leads → (fs'.entry q = some e ↔ fs.entry q = some e)

theorem SameWays.refl (fs : FileSystem) : SameWays fs fs := fun _ _ _ => Iff.rfl

theorem SameWays.symm (h : SameWays fs' fs) : SameWays fs fs' := fun q e he => (h q e he).symm

theorem SameWays.trans {fs'' : FileSystem} (h : SameWays fs'' fs') (h' : SameWays fs' fs) :
    SameWays fs'' fs := fun q e he => (h q e he).trans (h' q e he)

/-- What is not there or a regular file may come and go. -/
theorem sameWays_of_entry (hp : ∀ e, fs.entry p = some e → ¬e.Leads)
    (hp' : ∀ e, fs'.entry p = some e → ¬e.Leads) (hother : ∀ q ≠ p, fs'.entry q = fs.entry q) :
    SameWays fs' fs := by
  intro q e he
  by_cases hq : q = p
  · subst hq
    exact ⟨fun h => absurd he (hp' e h), fun h => absurd he (hp e h)⟩
  · rw [hother q hq]

theorem sameWays_erase (hp : fs.entry p = some (.regular file)) : SameWays (fs.erase p) fs := by
  refine sameWays_of_entry (p := p) ?_ ?_ fun q hq => fs.entry_erase_of_ne hq
  · intro e he
    rw [hp] at he
    cases he
    exact id
  · intro e he
    rw [FileSystem.entry_erase_self] at he
    cases he

theorem sameWays_write (fs : FileSystem) (file : ℕ) (bytes : List UInt8) : SameWays (fs.write file bytes) fs :=
  fun _ _ _ => Iff.rfl

theorem sameWays_create (hp : fs.entry p = none) : SameWays (fs.create p) fs := by
  refine sameWays_of_entry (p := p) ?_ ?_ fun q hq => fs.entry_insert_of_ne hq
  · intro e he
    rw [hp] at he
    cases he
  · intro e he
    have hentry : (fs.create p).entry p = some (.regular fs.nextFile) := fs.entry_insert_self
    rw [hentry] at he
    cases he
    exact id

theorem SameWays.erase (h : SameWays fs' fs) (p : Place) : SameWays (fs'.erase p) (fs.erase p) := by
  intro q e he
  by_cases hq : q = p
  · subst hq
    rw [FileSystem.entry_erase_self, FileSystem.entry_erase_self]
  · rw [FileSystem.entry_erase_of_ne fs' hq, FileSystem.entry_erase_of_ne fs hq]
    exact h q e he

/-- **Ways depend on directories and links only.** -/
theorem walk_sameWays (h : SameWays fs' fs) {r : Place × ℕ}
    (hwalk : walk sys fs final links d cs = .ok r) : walk sys fs' final links d cs = .ok r := by
  induction links, d, cs using walk_induction with
  | hnil links d => rwa [walk_nil] at hwalk ⊢
  | hstays links d c cs hs ih =>
    rw [walk_stays hs] at hwalk ⊢
    exact ih hwalk
  | hup links d cs ih =>
    rw [walk_up] at hwalk ⊢
    exact ih hwalk
  | hname links d c cs hs hu ih ihjump =>
    obtain ⟨hfits, hpass⟩ := (walk_eq_ok hs hu).mp hwalk
    refine (walk_eq_ok hs hu).mpr ⟨hfits, ?_⟩
    cases hpass with
    | directory hc hr => exact .directory ((h _ _ Entry.leads_directory).mpr hc) (ih hr)
    | last hcs hfinal hc hr =>
      refine .last hcs hfinal (fun e he => ?_) hr
      cases e with
      | regular file => exact ⟨file, rfl⟩
      | directory =>
        obtain ⟨file, hfile⟩ := hc _ ((h _ _ Entry.leads_directory).mp he)
        cases hfile
      | link target =>
        obtain ⟨file, hfile⟩ := hc _ ((h _ _ (Entry.leads_link target)).mp he)
        cases hfile
    | here target hcs hfinal hc hr => exact .here target hcs hfinal ((h _ _ (Entry.leads_link target)).mpr hc) hr
    | link target n hcs hc hlinks hr =>
      exact .link target n hcs ((h _ _ (Entry.leads_link target)).mpr hc) hlinks (ihjump n hlinks _ _ hr)

/-- A path that is followed leads where its way leads. -/
theorem follow_eq_ok : follow sys fs final path cs = .ok q ↔
    (path ≠ [] ∧ path.length < sys.pathMax ∧
      (path.head? = some 47 ∨ fs.entry sys.cwd = some .directory)) ∧
      ∃ m, walk sys fs final sys.linkMax (start path sys.cwd) cs = .ok (q, m) := by
  unfold follow
  by_cases hne : path = []
  · rw [if_pos hne]
    exact ⟨nofun, fun h => absurd hne h.1.1⟩
  · rw [if_neg hne]
    by_cases hlong : sys.pathMax ≤ path.length
    · rw [if_pos hlong]
      exact ⟨nofun, fun h => absurd h.1.2.1 (Nat.not_lt.mpr hlong)⟩
    · rw [if_neg hlong]
      by_cases hbase : path.head? ≠ some 47 ∧ fs.entry sys.cwd ≠ some .directory
      · rw [if_pos hbase]
        exact ⟨nofun, fun h => absurd h.1.2.2 (not_or.mpr hbase)⟩
      · rw [if_neg hbase]
        have hbase' : path.head? = some 47 ∨ fs.entry sys.cwd = some .directory := by
          by_contra h
          exact hbase (not_or.mp h)
        constructor
        · intro h
          refine ⟨⟨hne, Nat.not_le.mp hlong, hbase'⟩, ?_⟩
          rcases hwalk : walk sys fs final sys.linkMax (start path sys.cwd) cs with e | ⟨q', m⟩
          · rw [hwalk] at h
            cases h
          · rw [hwalk] at h
            cases h
            exact ⟨m, rfl⟩
        · rintro ⟨-, m, hm⟩
          rw [hm]
          rfl

theorem follow_sameWays (h : SameWays fs' fs) (hfollow : follow sys fs final path cs = .ok q) :
    follow sys fs' final path cs = .ok q := by
  obtain ⟨⟨hne, hfits, hbase⟩, m, hm⟩ := follow_eq_ok.mp hfollow
  exact follow_eq_ok.mpr ⟨⟨hne, hfits, hbase.imp_right (h _ _ Entry.leads_directory).mpr⟩, m, walk_sameWays h hm⟩

theorem resolve_sameWays (h : SameWays fs' fs) (hresolve : resolve sys fs final path = .ok q) :
    resolve sys fs' final path = .ok q := follow_sameWays h hresolve

/-! ### Links that lead to no directory -/

/-- The beginning of a way leads to a directory. -/
theorem walk_prefix {r : Place × ℕ} (h : walk sys fs final links d (cs ++ ds) = .ok r) (hds : ds ≠ []) :
    ∃ q m, walk sys fs .directory links d cs = .ok (q, m) := by
  induction links, d, cs using walk_induction with
  | hnil links d => exact ⟨d, links, walk_nil⟩
  | hstays links d c cs hs ih =>
    rw [List.cons_append, walk_stays hs] at h
    rw [walk_stays hs]
    exact ih h
  | hup links d cs ih =>
    rw [List.cons_append, walk_up] at h
    rw [walk_up]
    exact ih h
  | hname links d c cs hs hu ih ihjump =>
    obtain ⟨hfits, hpass⟩ := (walk_eq_ok hs hu).mp h
    cases hpass with
    | directory hc hr =>
      obtain ⟨q, m, hwalk⟩ := ih hr
      exact ⟨q, m, (walk_eq_ok hs hu).mpr ⟨hfits, .directory hc hwalk⟩⟩
    | last hcs => exact absurd (List.append_eq_nil_iff.mp hcs).2 hds
    | here _ hcs => exact absurd (List.append_eq_nil_iff.mp hcs).2 hds
    | link target n hcs hc hlinks hr =>
      have hassoc : components target ++ (cs ++ ds) = components target ++ cs ++ ds :=
        (List.append_assoc _ _ _).symm
      obtain ⟨q, m, hwalk⟩ := ihjump n hlinks _ (components target ++ cs) (hassoc ▸ hr)
      exact ⟨q, m, (walk_eq_ok hs hu).mpr ⟨hfits, .link target n (fun h => nomatch h.2) hc hlinks hwalk⟩⟩

/-- A way is the only way, however many links are left. -/
theorem walk_unique {links' : ℕ} {q' : Place} {m' : ℕ} (hfinal : final ≠ .noFollow)
    (h : walk sys fs final links d cs = .ok (q, m))
    (h' : walk sys fs .follow links' d cs = .ok (q', m')) : q' = q := by
  induction links, d, cs using walk_induction generalizing links' with
  | hnil links d =>
    rw [walk_nil] at h h'
    cases h
    cases h'
    rfl
  | hstays links d c cs hs ih =>
    rw [walk_stays hs] at h h'
    exact ih h h'
  | hup links d cs ih =>
    rw [walk_up] at h h'
    exact ih h h'
  | hname links d c cs hs hu ih ihjump =>
    obtain ⟨-, hpass⟩ := (walk_eq_ok hs hu).mp h
    obtain ⟨-, hpass'⟩ := (walk_eq_ok hs hu).mp h'
    cases hpass with
    | directory hc hr =>
      cases hpass' with
      | directory _ hr' => exact ih hr hr'
      | last _ _ hc' =>
        obtain ⟨file, hfile⟩ := hc' _ hc
        cases hfile
      | here _ _ hfinal' => cases hfinal'
      | link target n _ hc' => rw [hc] at hc'; cases hc'
    | last _ _ hc hr =>
      cases hpass' with
      | directory hc' =>
        obtain ⟨file, hfile⟩ := hc _ hc'
        cases hfile
      | last _ _ _ hr' =>
        cases hr
        cases hr'
        rfl
      | here _ _ hfinal' => cases hfinal'
      | link target n _ hc' =>
        obtain ⟨file, hfile⟩ := hc _ hc'
        cases hfile
    | here _ _ hfinal' => exact absurd hfinal' hfinal
    | link target n hcs hc hlinks hr =>
      cases hpass' with
      | directory hc' => rw [hc] at hc'; cases hc'
      | last _ _ hc' =>
        obtain ⟨file, hfile⟩ := hc' _ hc
        cases hfile
      | here _ _ hfinal' => cases hfinal'
      | link target' n' _ hc' hlinks' hr' =>
        rw [hc] at hc'
        cases hc'
        exact ihjump n hlinks _ _ hr hr'

/-- A way to a directory ends at one. -/
theorem FileSystem.Tree.directory_of_walk (h : fs.Tree sys) (hd : fs.entry d = some .directory)
    (hwalk : walk sys fs .directory links d cs = .ok (q, m)) : fs.entry q = some .directory := by
  induction links, d, cs using walk_induction with
  | hnil links d =>
    rw [walk_nil] at hwalk
    cases hwalk
    exact hd
  | hstays links d c cs hs ih =>
    rw [walk_stays hs] at hwalk
    exact ih hd hwalk
  | hup links d cs ih =>
    rw [walk_up] at hwalk
    exact ih (h.directory_of_prefix hd (List.dropLast_prefix d)) hwalk
  | hname links d c cs hs hu ih ihjump =>
    obtain ⟨-, hpass⟩ := (walk_eq_ok hs hu).mp hwalk
    cases hpass with
    | directory hc hr => exact ih hc hr
    | last _ hfinal => exact absurd rfl hfinal
    | here _ _ hfinal => cases hfinal
    | link target n _ hc hlinks hr =>
      refine ihjump n hlinks _ _ ?_ hr
      unfold start
      split
      · exact h.directory_of_prefix hd (List.nil_prefix)
      · exact hd

/-- Where a way ends at a link, following it goes on with the text of the link. -/
theorem walk_follow_link (h : walk sys fs .noFollow links d cs = .ok (p, m))
    (hp : fs.entry p = some (.link target)) {q : Place} {m' : ℕ}
    (h' : walk sys fs .follow links d cs = .ok (q, m')) (hd : fs.entry d = some .directory) (ht : fs.Tree sys) :
    ∃ n < links, walk sys fs .follow n (start target p.dropLast) (components target) = .ok (q, m') := by
  induction links, d, cs using walk_induction with
  | hnil links d =>
    rw [walk_nil] at h
    cases h
    rw [hd] at hp
    cases hp
  | hstays links d c cs hs ih =>
    rw [walk_stays hs] at h h'
    exact ih h h' hd
  | hup links d cs ih =>
    rw [walk_up] at h h'
    exact ih h h' (ht.directory_of_prefix hd (List.dropLast_prefix d))
  | hname links d c cs hs hu ih ihjump =>
    obtain ⟨-, hpass⟩ := (walk_eq_ok hs hu).mp h
    obtain ⟨-, hpass'⟩ := (walk_eq_ok hs hu).mp h'
    cases hpass with
    | directory hc hr =>
      cases hpass' with
      | directory _ hr' => exact ih hr hr' hc
      | last _ _ hc' =>
        obtain ⟨file, hfile⟩ := hc' _ hc
        cases hfile
      | here _ _ hfinal => cases hfinal
      | link _ _ _ hc' => rw [hc] at hc'; cases hc'
    | last _ _ hc hr =>
      cases hr
      obtain ⟨file, hfile⟩ := hc _ hp
      cases hfile
    | here target' hcs _ hc hr =>
      cases hr
      rw [hc] at hp
      cases hp
      cases hpass' with
      | directory hc' => rw [hc] at hc'; cases hc'
      | last _ _ hc' =>
        obtain ⟨file, hfile⟩ := hc' _ hc
        cases hfile
      | here _ _ hfinal => cases hfinal
      | link target'' n _ hc' hlinks hr' =>
        rw [hc] at hc'
        cases hc'
        rw [hcs, List.append_nil] at hr'
        exact ⟨n, hlinks ▸ Nat.lt_succ_self n, by rwa [List.dropLast_concat]⟩
    | link target' n hcs hc hlinks hr =>
      cases hpass' with
      | directory hc' => rw [hc] at hc'; cases hc'
      | last _ _ hc' =>
        obtain ⟨file, hfile⟩ := hc' _ hc
        cases hfile
      | here _ _ hfinal => cases hfinal
      | link target'' n' _ hc' hlinks' hr' =>
        rw [hc] at hc'
        cases hc'
        cases hlinks
        cases hlinks'
        have hstart : fs.entry (start target' d) = some .directory := by
          unfold start
          split
          · exact ht.directory_of_prefix hd (List.nil_prefix)
          · exact hd
        obtain ⟨k, hk, hwalk⟩ := ihjump n rfl _ _ hr hr' hstart
        exact ⟨k, Nat.lt_succ_of_lt hk, hwalk⟩

/-- A link that leads to no directory. -/
def LeadsNowhere (sys : System) (fs : FileSystem) (p : Place) : Prop :=
  ∃ target, fs.entry p = some (.link target) ∧
    ∀ n q m, walk sys fs .directory n (start target p.dropLast) (components target) ≠ .ok (q, m)

/-- A link whose path is followed to a place that is no directory leads to none. -/
theorem leadsNowhere_of_resolve (ht : fs.Tree sys) (hroot : fs.entry [] = some .directory)
    (hp : fs.entry p = some (.link target))
    (hpath : resolve sys fs .noFollow path = .ok p) (hq : resolve sys fs .follow path = .ok q)
    (hnot : fs.entry q ≠ some .directory) : LeadsNowhere sys fs p := by
  refine ⟨target, hp, fun n q' m hwalk => hnot ?_⟩
  obtain ⟨⟨-, -, hbase⟩, k, hk⟩ := follow_eq_ok.mp hpath
  obtain ⟨-, k', hk'⟩ := follow_eq_ok.mp hq
  have hstart : fs.entry (start path sys.cwd) = some .directory := by
    unfold start
    split
    · exact hroot
    · next hhead => exact hbase.resolve_left hhead
  obtain ⟨n', -, hn'⟩ := walk_follow_link hk hp hk' hstart ht
  rw [walk_unique (by decide) hwalk hn']
  refine ht.directory_of_walk ?_ hwalk
  unfold start
  split
  · exact hroot
  · have hne : p ≠ [] := by
      rintro rfl
      rw [hroot] at hp
      cases hp
    obtain ⟨p', c, rfl⟩ := (List.eq_nil_or_concat' p).resolve_left hne
    rw [List.dropLast_concat]
    exact ht.parent p' c (by rw [hp]; rfl)

/-- **Without a link that leads to no directory** the other ways stay; one that follows a last link
does when it does not end where the link leads. -/
theorem walk_erase_link (hp : LeadsNowhere sys fs p) {r : Place × ℕ}
    (hfinal : final = .follow → ∀ target, fs.entry p = some (.link target) → ∀ n m,
      walk sys fs .follow n (start target p.dropLast) (components target) ≠ .ok (r.1, m))
    (h : walk sys fs final links d cs = .ok r) : walk sys (fs.erase p) final links d cs = .ok r := by
  obtain ⟨target, hlink, hnowhere⟩ := hp
  have hentry : ∀ q e, fs.entry q = some e → e ≠ .link target ∨ q ≠ p → (fs.erase p).entry q = some e := by
    intro q e he hne
    have hq : q ≠ p := by
      rintro rfl
      rw [hlink] at he
      cases he
      exact hne.elim (fun h => h rfl) fun h => h rfl
    rwa [FileSystem.entry_erase_of_ne fs hq]
  induction links, d, cs using walk_induction with
  | hnil links d => rwa [walk_nil] at h ⊢
  | hstays links d c cs hs ih =>
    rw [walk_stays hs] at h ⊢
    exact ih h
  | hup links d cs ih =>
    rw [walk_up] at h ⊢
    exact ih h
  | hname links d c cs hs hu ih ihjump =>
    obtain ⟨hfits, hpass⟩ := (walk_eq_ok hs hu).mp h
    refine (walk_eq_ok hs hu).mpr ⟨hfits, ?_⟩
    cases hpass with
    | directory hc hr => exact .directory (hentry _ _ hc (Or.inl nofun)) (ih hr)
    | last hcs hfinal' hc hr =>
      refine .last hcs hfinal' (fun e he => hc e ?_) hr
      by_cases hq : d ++ [c] = p
      · rw [hq, FileSystem.entry_erase_self] at he
        cases he
      · rwa [FileSystem.entry_erase_of_ne fs hq] at he
    | here target' hcs hfinal' hc hr =>
      by_cases hq : d ++ [c] = p
      · refine .last hcs (fun h => by rw [h] at hfinal'; cases hfinal') (fun e he => ?_) hr
        rw [hq, FileSystem.entry_erase_self] at he
        cases he
      · exact .here target' hcs hfinal' (hentry _ _ hc (Or.inr hq)) hr
    | link target' n hcs hc hlinks hr =>
      by_cases hq : d ++ [c] = p
      · -- the way would go on behind the link
        rw [hq, hlink] at hc
        cases hc
        have hdrop : p.dropLast = d := by rw [← hq, List.dropLast_concat]
        rw [hdrop] at hnowhere
        by_cases hnil : cs = []
        · rw [hnil, List.append_nil] at hr
          cases final with
          | directory => exact absurd hr (hnowhere n r.1 r.2)
          | follow =>
            rw [← hdrop] at hr
            exact absurd hr (hfinal rfl _ hlink n r.2)
          | noFollow => exact absurd ⟨hnil, rfl⟩ hcs
        · obtain ⟨q, m, hwalk⟩ := walk_prefix hr hnil
          exact absurd hwalk (hnowhere n q m)
      · exact .link target' n hcs (hentry _ _ hc (Or.inr hq)) hlinks (ihjump n hlinks _ _ hr)

theorem resolve_erase_link (hp : LeadsNowhere sys fs p)
    (hfinal : final = .follow → ∀ target, fs.entry p = some (.link target) → ∀ n m,
      walk sys fs .follow n (start target p.dropLast) (components target) ≠ .ok (q, m))
    (h : resolve sys fs final path = .ok q) : resolve sys (fs.erase p) final path = .ok q := by
  obtain ⟨⟨hne, hfits, hbase⟩, m, hm⟩ := follow_eq_ok.mp h
  refine follow_eq_ok.mpr ⟨⟨hne, hfits, hbase.imp_right fun hcwd => ?_⟩, m, walk_erase_link hp hfinal hm⟩
  obtain ⟨target, hlink, -⟩ := hp
  rw [FileSystem.entry_erase_of_ne fs]
  · exact hcwd
  · rintro hcwd'
    rw [hcwd', hlink] at hcwd
    cases hcwd

/-! ### Files at the end of a path -/

theorem openRead_eq_ok : openRead sys fs path = .ok file ↔
    ∃ q, resolve sys fs .follow path = .ok q ∧ fs.entry q = some (.regular file) := by
  show (resolve sys fs .follow path >>= fun q => _) = _ ↔ _
  rcases resolve sys fs .follow path with e | q
  · exact ⟨nofun, fun ⟨q, hq, _⟩ => nomatch hq⟩
  · dsimp only [bind, Except.bind]
    constructor
    · intro h
      refine ⟨q, rfl, ?_⟩
      rcases hq : fs.entry q with _ | _ | file' | target
      all_goals
        rw [hq] at h
        cases h
      rfl
    · rintro ⟨q', hq', hentry⟩
      cases hq'
      rw [hentry]

theorem openWrite_eq_ok {truncate : Bool} :
    openWrite sys fs truncate path = .ok (file, fs') ↔
      ∃ q, resolve sys fs .follow path = .ok q ∧
        (fs.entry q = some (.regular file) ∧ fs' = (if truncate then fs.write file [] else fs) ∨
          fs.entry q = none ∧ file = fs.nextFile ∧ fs' = fs.create q) := by
  show (resolve sys fs .follow path >>= fun q => _) = _ ↔ _
  rcases resolve sys fs .follow path with e | q
  · exact ⟨nofun, fun ⟨q, hq, _⟩ => nomatch hq⟩
  · dsimp only [bind, Except.bind]
    constructor
    · intro h
      refine ⟨q, rfl, ?_⟩
      rcases hq : fs.entry q with _ | _ | file' | target
      all_goals
        rw [hq] at h
        cases h
      · exact Or.inr ⟨rfl, rfl, rfl⟩
      · exact Or.inl ⟨rfl, rfl⟩
    · rintro ⟨q', hq', ⟨hentry, rfl⟩ | ⟨hentry, rfl, rfl⟩⟩
      · cases hq'
        rw [hentry]
      · cases hq'
        rw [hentry]

/-- The bytes that a path leads to. -/
def contentAt (sys : System) (fs : FileSystem) (path : List UInt8) : Option (List UInt8) :=
  match openRead sys fs path with
  | .ok file => some (fs.content file)
  | .error _ => none

theorem contentAt_eq_some {bytes : List UInt8} : contentAt sys fs path = some bytes ↔
    ∃ file, openRead sys fs path = .ok file ∧ fs.content file = bytes := by
  unfold contentAt
  rcases openRead sys fs path with e | file
  · exact ⟨nofun, fun ⟨_, h, _⟩ => nomatch h⟩
  · constructor
    · intro h
      exact ⟨file, rfl, Option.some.inj h⟩
    · rintro ⟨_, ⟨⟩, h⟩
      exact congrArg some h

theorem contentAt_eq (h : resolve sys fs .follow path = .ok q) (hq : fs.entry q = some (.regular file)) :
    contentAt sys fs path = some (fs.content file) := by
  unfold contentAt
  rw [openRead_eq_ok.mpr ⟨q, h, hq⟩]

/-- A path that ends at no link is followed to the same place. -/
theorem resolve_follow_of_noFollow (h : resolve sys fs .noFollow path = .ok q)
    (hq : ∀ target, fs.entry q ≠ some (.link target)) : resolve sys fs .follow path = .ok q := by
  obtain ⟨hpath, m, hm⟩ := follow_eq_ok.mp h
  exact follow_eq_ok.mpr ⟨hpath, m, walk_of_noFollow hm (Or.inr ⟨by decide, hq⟩)⟩

theorem contentAt_none (h : resolve sys fs .noFollow path = .ok q) (hq : fs.entry q = none) :
    contentAt sys fs path = none := by
  have hfollow := resolve_follow_of_noFollow h fun target ht => by rw [hq] at ht; cases ht
  unfold contentAt
  rcases hread : openRead sys fs path with e | file
  · rfl
  · obtain ⟨q', hq', hentry⟩ := openRead_eq_ok.mp hread
    rw [hfollow] at hq'
    cases hq'
    rw [hq] at hentry
    cases hentry

/-- A tree with its root, in which every file is older than the next one. -/
structure FileSystem.Sound (sys : System) (fs : FileSystem) : Prop where
  tree : fs.Tree sys
  root : fs.entry [] = some .directory
  fresh : ∀ q file, fs.entry q = some (.regular file) → file < fs.nextFile

/-- A file is older than the file of the number. -/
def Entry.isOlder (nextFile : ℕ) : Entry → Bool
  | .regular file => file < nextFile
  | .directory => true
  | .link _ => true

/-- The entries of a list are looked at one by one. -/
theorem FileSystem.sound_of_keys (htree : fs.Tree sys) (hroot : fs.entry [] = some .directory)
    (h : ∀ q ∈ fs.entries.keys, ∀ e ∈ fs.entry q, e.isOlder fs.nextFile) : fs.Sound sys := by
  refine ⟨htree, hroot, fun q file hq => ?_⟩
  have hkey := AList.mem_keys.mp (AList.lookup_isSome.mp (Option.isSome_of_eq_some hq))
  exact of_decide_eq_true (h q hkey _ hq)

theorem slash_notMem_components {c : Name} (h : c ∈ components path) : 47 ∉ c := by
  induction path generalizing c with
  | nil =>
    rw [List.mem_singleton.mp h]
    exact List.not_mem_nil
  | cons b path ih =>
    by_cases hb : b = 47
    · subst hb
      rw [components_slash_append] at h
      rcases List.mem_cons.mp h with rfl | h
      · exact List.not_mem_nil
      · exact ih h
    · have hcons : components (b :: path) = (components path).modifyHead (b :: ·) := by
        unfold components
        rw [List.splitOn_cons_eq_if_modifyHead, if_neg fun h => hb (eq_of_beq h)]
      rw [hcons] at h
      rcases hpath : components path with _ | ⟨c', cs⟩
      · rw [hpath] at h
        cases h
      · rw [hpath] at h
        rcases List.mem_cons.mp h with rfl | h
        · have hc' : 47 ∉ c' := ih (by rw [hpath]; exact List.mem_cons_self)
          exact fun hmem => (List.mem_cons.mp hmem).elim (fun hb' => hb hb'.symm) hc'
        · refine ih ?_
          rw [hpath]
          exact List.mem_cons_of_mem _ h

/-- A way that ends at no entry ends at a name in a directory. -/
theorem walk_new (ht : fs.Tree sys) (hd : fs.entry d = some .directory) (hcs : ∀ c ∈ cs, 47 ∉ c)
    (h : walk sys fs final links d cs = .ok (q, m)) (hq : fs.entry q = none) :
    ∃ d' c, q = d' ++ [c] ∧ EntryName c ∧ c.length ≤ sys.nameMax ∧ fs.entry d' = some .directory := by
  induction links, d, cs using walk_induction with
  | hnil links d =>
    rw [walk_nil] at h
    cases h
    rw [hd] at hq
    cases hq
  | hstays links d c cs hs ih =>
    rw [walk_stays hs] at h
    exact ih hd (fun c' hc' => hcs c' (List.mem_cons_of_mem _ hc')) h
  | hup links d cs ih =>
    rw [walk_up] at h
    exact ih (ht.directory_of_prefix hd (List.dropLast_prefix d))
      (fun c' hc' => hcs c' (List.mem_cons_of_mem _ hc')) h
  | hname links d c cs hs hu ih ihjump =>
    obtain ⟨hfits, hpass⟩ := (walk_eq_ok hs hu).mp h
    have hrest : ∀ c' ∈ cs, 47 ∉ c' := fun c' hc' => hcs c' (List.mem_cons_of_mem _ hc')
    have hhere : q = d ++ [c] → ∃ d' c, q = d' ++ [c] ∧ EntryName c ∧ c.length ≤ sys.nameMax ∧
        fs.entry d' = some .directory :=
      fun hq => ⟨d, c, hq, ⟨hs, hu, hcs c List.mem_cons_self⟩, hfits, hd⟩
    cases hpass with
    | directory hc hr => exact ih hc hrest hr
    | last _ _ _ hr =>
      cases hr
      exact hhere rfl
    | here _ _ _ _ hr =>
      cases hr
      exact hhere rfl
    | link target n _ hc hlinks hr =>
      refine ihjump n hlinks _ _ ?_ ?_ hr
      · unfold start
        split
        · exact ht.directory_of_prefix hd (List.nil_prefix)
        · exact hd
      · intro c' hc'
        rcases List.mem_append.mp hc' with hc' | hc'
        · exact slash_notMem_components hc'
        · exact hrest c' hc'

theorem FileSystem.Sound.start (h : fs.Sound sys)
    (hbase : path.head? = some 47 ∨ fs.entry sys.cwd = some .directory) :
    fs.entry (start path sys.cwd) = some .directory := by
  unfold Posix.start
  split
  · exact h.root
  · next hhead => exact hbase.resolve_left hhead

/-- A file that is made where a path leads keeps a file system sound. -/
theorem FileSystem.Sound.create (h : fs.Sound sys) (hpath : resolve sys fs final path = .ok q)
    (hq : fs.entry q = none) : (fs.create q).Sound sys := by
  obtain ⟨⟨-, -, hbase⟩, m, hm⟩ := follow_eq_ok.mp hpath
  obtain ⟨d, c, rfl, hc, hfits, hd⟩ :=
    walk_new h.tree (h.start hbase) (fun c hc => slash_notMem_components hc) hm hq
  have hself : (fs.create (d ++ [c])).entry (d ++ [c]) = some (.regular fs.nextFile) :=
    fs.entry_insert_self
  have hother : ∀ q', q' ≠ d ++ [c] → (fs.create (d ++ [c])).entry q' = fs.entry q' :=
    fun q' hq' => fs.entry_insert_of_ne hq'
  have hdirectory : ∀ q', fs.entry q' = some .directory →
      (fs.create (d ++ [c])).entry q' = some .directory := by
    intro q' hq'
    rw [hother]
    · exact hq'
    · rintro rfl
      rw [hq] at hq'
      cases hq'
  refine ⟨⟨fun q' n hn => ?_, fun q' n hn => ?_⟩, hdirectory _ h.root, fun q' file hfile => ?_⟩
  · by_cases hqn : q' ++ [n] = d ++ [c]
    · obtain ⟨rfl, hnc⟩ := List.append_inj' hqn rfl
      rw [List.singleton_inj] at hnc
      rw [hnc]
      exact ⟨hc, hfits⟩
    · rw [hother _ hqn] at hn
      exact h.tree.name q' n hn
  · by_cases hqn : q' ++ [n] = d ++ [c]
    · obtain ⟨rfl, -⟩ := List.append_inj' hqn rfl
      exact hdirectory _ hd
    · rw [hother _ hqn] at hn
      exact hdirectory _ (h.tree.parent q' n hn)
  · show file < fs.nextFile + 1
    by_cases hqn : q' = d ++ [c]
    · rw [hqn, hself] at hfile
      cases hfile
      exact Nat.lt_succ_self _
    · rw [hother _ hqn] at hfile
      exact Nat.lt_succ_of_lt (h.fresh q' file hfile)

/-- The last name of a path that is followed to no directory stands for its own entry. -/
theorem exists_noFollow (h : resolve sys fs .follow path = .ok q) :
    ∃ p, resolve sys fs .noFollow path = .ok p := by
  obtain ⟨hpath, m, hm⟩ := follow_eq_ok.mp h
  suffices hwalk : ∃ r, walk sys fs .noFollow sys.linkMax (start path sys.cwd) (components path) = .ok r by
    obtain ⟨⟨p, m'⟩, hp⟩ := hwalk
    exact ⟨p, follow_eq_ok.mpr ⟨hpath, m', hp⟩⟩
  generalize start path sys.cwd = d at hm
  generalize components path = cs at hm
  generalize sys.linkMax = links at hm
  clear hpath h
  induction links, d, cs using walk_induction with
  | hnil links d => exact ⟨_, walk_nil⟩
  | hstays links d c cs hs ih =>
    rw [walk_stays hs] at hm ⊢
    exact ih hm
  | hup links d cs ih =>
    rw [walk_up] at hm ⊢
    exact ih hm
  | hname links d c cs hs hu ih ihjump =>
    obtain ⟨hfits, hpass⟩ := (walk_eq_ok hs hu).mp hm
    cases hpass with
    | directory hc hr =>
      obtain ⟨r, hr'⟩ := ih hr
      exact ⟨r, (walk_eq_ok hs hu).mpr ⟨hfits, .directory hc hr'⟩⟩
    | last hcs _ hc hr => exact ⟨_, (walk_eq_ok hs hu).mpr ⟨hfits, .last hcs (by decide) hc rfl⟩⟩
    | here _ _ hfinal => cases hfinal
    | link target n hcs hc hlinks hr =>
      by_cases hnil : cs = []
      · exact ⟨_, (walk_eq_ok hs hu).mpr ⟨hfits, .here target hnil rfl hc rfl⟩⟩
      · obtain ⟨r, hr'⟩ := ihjump n hlinks _ _ hr
        exact ⟨r, (walk_eq_ok hs hu).mpr ⟨hfits, .link target n (fun h => hnil h.1) hc hlinks hr'⟩⟩

/-- **The name of a file may be removed**: the ways of other paths stay, up to the last name. -/
theorem resolve_erase (h : fs.Sound sys) (hp : resolve sys fs .noFollow path = .ok p)
    (hq : resolve sys fs .follow path = .ok q) (hnot : fs.entry q ≠ some .directory)
    {path' : List UInt8} {r : Place} (hr : resolve sys fs .noFollow path' = .ok r) :
    resolve sys (fs.erase p) .noFollow path' = .ok r := by
  rcases hentry : fs.entry p with _ | _ | file | target
  · refine resolve_sameWays (sameWays_of_entry (p := p) ?_ ?_ fun q hq => fs.entry_erase_of_ne hq) hr
    · intro e he
      rw [hentry] at he
      cases he
    · intro e he
      rw [FileSystem.entry_erase_self] at he
      cases he
  · have hfollow := resolve_follow_of_noFollow hp fun target ht => by rw [hentry] at ht; cases ht
    rw [hq] at hfollow
    cases hfollow
    exact absurd hentry hnot
  · exact resolve_sameWays (sameWays_erase hentry) hr
  · exact resolve_erase_link (leadsNowhere_of_resolve h.tree h.root hentry hp hq hnot) nofun hr

/-- The name of a file may be removed: a path that leads to another file still does. -/
theorem resolve_erase_other (h : fs.Sound sys) (hp : resolve sys fs .noFollow path = .ok p)
    (hq : resolve sys fs .follow path = .ok q) (hnot : fs.entry q ≠ some .directory)
    {path' : List UInt8} {r : Place} (hr : resolve sys fs .follow path' = .ok r) (hne : r ≠ q) :
    resolve sys (fs.erase p) .follow path' = .ok r := by
  rcases hentry : fs.entry p with _ | _ | file | target
  · refine resolve_sameWays (sameWays_of_entry (p := p) ?_ ?_ fun q hq => fs.entry_erase_of_ne hq) hr
    · intro e he
      rw [hentry] at he
      cases he
    · intro e he
      rw [FileSystem.entry_erase_self] at he
      cases he
  · have hfollow := resolve_follow_of_noFollow hp fun target ht => by rw [hentry] at ht; cases ht
    rw [hq] at hfollow
    cases hfollow
    exact absurd hentry hnot
  · exact resolve_sameWays (sameWays_erase hentry) hr
  · refine resolve_erase_link (leadsNowhere_of_resolve h.tree h.root hentry hp hq hnot) ?_ hr
    intro _ target' htarget n m hwalk
    -- the link leads to one place only
    obtain ⟨⟨-, -, hbase⟩, k, hk⟩ := follow_eq_ok.mp hp
    obtain ⟨-, k', hk'⟩ := follow_eq_ok.mp hq
    obtain ⟨n', -, hn'⟩ := walk_follow_link hk htarget hk' (h.start hbase) h.tree
    exact hne (walk_unique (by decide) hn' hwalk)

end Posix
