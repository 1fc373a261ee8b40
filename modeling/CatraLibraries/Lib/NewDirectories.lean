/-
# Directories that are made on the way

A path is gone name by name, and a directory is made where a name stands for nothing.  What is made
never changes a way that was there before; so whoever makes directories of the same path, in whatever
order, stays between the file system as it was and the one with all of them, and a path that leads to a
directory has had all of its own made.
-/
import CatraLibraries.Lib.NewLinks

namespace Posix

open Paths (Name components Stays components_append)

variable {sys : System} {fs fs' fs'' : FileSystem} {final : Final} {links m n k : ℕ} {d p q : Place}
  {c : Name} {cs ds rest : List Name} {path target : List UInt8} {r : Place × ℕ}

/-! ### More directories -/

/-- Directories have been added, and nothing else has changed. -/
structure Enlarged (fs fs' : FileSystem) : Prop where
  kept : ∀ q e, fs.entry q = some e → fs'.entry q = some e
  new : ∀ q e, fs.entry q = none → fs'.entry q = some e → e = .directory
  content : fs'.content = fs.content
  nextFile : fs'.nextFile = fs.nextFile

theorem Enlarged.refl (fs : FileSystem) : Enlarged fs fs :=
  ⟨fun _ _ h => h, fun _ _ h h' => (nomatch (h.symm.trans h' : none = some _)), rfl, rfl⟩

theorem Enlarged.trans (h : Enlarged fs fs') (h' : Enlarged fs' fs'') : Enlarged fs fs'' := by
  refine ⟨fun q e he => h'.kept q e (h.kept q e he), fun q e hnone he => ?_, h'.content.trans h.content,
    h'.nextFile.trans h.nextFile⟩
  rcases hq : fs'.entry q with _ | e'
  · exact h'.new q e hq he
  · have hsame := h'.kept q e' hq
    rw [he] at hsame
    cases hsame
    exact h.new q e hnone hq

theorem enlarged_insert (hp : fs.entry p = none) : Enlarged fs (fs.insert p .directory) := by
  refine ⟨fun q e he => ?_, fun q e hnone he => ?_, rfl, rfl⟩
  · rw [FileSystem.entry_insert_of_ne]
    · exact he
    · rintro rfl
      rw [hp] at he
      cases he
  · by_cases hq : q = p
    · rw [hq, FileSystem.entry_insert_self] at he
      exact (Option.some.inj he).symm
    · rw [FileSystem.entry_insert_of_ne _ hq, hnone] at he
      cases he

theorem Enlarged.insert (h : Enlarged fs fs') (hp : fs'.entry p = some .directory) :
    Enlarged (fs.insert p .directory) fs' := by
  refine ⟨fun q e he => ?_, fun q e hnone he => ?_, h.content, h.nextFile⟩
  · by_cases hq : q = p
    · rw [hq, FileSystem.entry_insert_self] at he
      cases he
      rw [hq]
      exact hp
    · rw [FileSystem.entry_insert_of_ne _ hq] at he
      exact h.kept q e he
  · by_cases hq : q = p
    · rw [hq, FileSystem.entry_insert_self] at hnone
      cases hnone
    · rw [FileSystem.entry_insert_of_ne _ hq] at hnone
      exact h.new q e hnone he

/-- What is no directory was there before. -/
theorem Enlarged.old {e : Entry} (h : Enlarged fs fs') (he : fs'.entry q = some e)
    (hne : e ≠ .directory) :
    fs.entry q = some e := by
  rcases hq : fs.entry q with _ | e'
  · exact absurd (h.new q e hq he) hne
  · rw [h.kept q e' hq] at he
    exact he

/-- A directory that is missing in the end was missing before. -/
theorem Enlarged.missing (h : Enlarged fs fs') (hq : fs'.entry q = none) : fs.entry q = none := by
  rcases hentry : fs.entry q with _ | e
  · rfl
  · rw [h.kept q e hentry] at hq
    cases hq

/-- **More directories change no way.** -/
theorem walk_enlarged (h : Enlarged fs fs') (hwalk : walk sys fs final links d cs = .ok r) :
    walk sys fs' final links d cs = .ok r := by
  induction links, d, cs using walk_induction with
  | hnil links d => rwa [walk_nil] at hwalk ⊢
  | hstays links d c cs hs ih =>
    rw [walk_stays hs] at hwalk ⊢
    exact ih hwalk
  | hup links d cs ih =>
    rw [walk_up] at hwalk ⊢
    exact ih hwalk
  | hname links d c cs hs hu ih ihjump =>
    obtain ⟨hfits, hpass⟩ := (walk_eq_ok hs hu).mp hwalk
    refine (walk_eq_ok hs hu).mpr ⟨hfits, ?_⟩
    cases hpass with
    | directory hc hr => exact .directory (h.kept _ _ hc) (ih hr)
    | here target hcs hfinal hc hr => exact .here target hcs hfinal (h.kept _ _ hc) hr
    | link target n hcs hc hlinks hr =>
      exact .link target n hcs (h.kept _ _ hc) hlinks (ihjump n hlinks _ _ hr)
    | last hcs hfinal hc hr =>
      rcases hentry : fs.entry (d ++ [c]) with _ | e
      · rcases hnew : fs'.entry (d ++ [c]) with _ | e'
        · exact .last hcs hfinal (fun e he => by rw [hnew] at he; cases he) hr
        · -- the directory is made at the end of the way
          have hdir := h.new _ _ hentry hnew
          rw [hdir] at hnew
          refine .directory hnew ?_
          rw [hcs, walk_nil, hr]
      · obtain ⟨file, rfl⟩ := hc e hentry
        refine .last hcs hfinal (fun e he => ⟨file, ?_⟩) hr
        rw [h.kept _ _ hentry] at he
        exact (Option.some.inj he).symm

/-- A way with fewer directories is the same, or something is missing. -/
theorem walk_of_enlarged (h : Enlarged fs fs') (hwalk : walk sys fs' final links d cs = .ok r) :
    walk sys fs final links d cs = .ok r ∨ walk sys fs final links d cs = .error .ENOENT := by
  induction links, d, cs using walk_induction with
  | hnil links d =>
    rw [walk_nil] at hwalk ⊢
    exact Or.inl hwalk
  | hstays links d c cs hs ih =>
    rw [walk_stays hs] at hwalk ⊢
    exact ih hwalk
  | hup links d cs ih =>
    rw [walk_up] at hwalk ⊢
    exact ih hwalk
  | hname links d c cs hs hu ih ihjump =>
    obtain ⟨hfits, hpass⟩ := (walk_eq_ok hs hu).mp hwalk
    rw [walk_name hs hu, if_neg (Nat.not_lt.mpr hfits)]
    rcases hentry : fs.entry (d ++ [c]) with _ | e
    · -- nothing is there yet
      dsimp only
      by_cases hlast : cs = [] ∧ final ≠ .directory
      · rw [if_pos hlast]
        obtain ⟨rfl, hfinal⟩ := hlast
        cases hpass with
        | directory hc hr =>
          rw [walk_nil] at hr
          exact Or.inl hr
        | last _ _ _ hr => exact Or.inl (congrArg Except.ok hr.symm)
        | here _ _ _ hc => cases h.new _ _ hentry hc
        | link _ _ _ hc => cases h.new _ _ hentry hc
      · rw [if_neg hlast]
        exact Or.inr rfl
    · have hkept := h.kept _ _ hentry
      cases hpass with
      | directory hc hr =>
        rw [hc] at hkept
        cases hkept
        exact ih hr
      | last hcs hfinal hc hr =>
        obtain ⟨file, rfl⟩ := hc e hkept
        exact Or.inl ((if_pos ⟨hcs, hfinal⟩).trans (congrArg Except.ok hr.symm))
      | here target hcs hfinal hc hr =>
        rw [hc] at hkept
        cases hkept
        exact Or.inl ((if_pos ⟨hcs, hfinal⟩).trans (congrArg Except.ok hr.symm))
      | link target n hcs hc hlinks hr =>
        rw [hc] at hkept
        cases hkept
        subst hlinks
        dsimp only
        rw [if_neg hcs]
        exact ihjump n rfl _ _ hr

/-! ### The links that are left -/

theorem walk_left (h : walk sys fs final links d cs = .ok (q, m)) : m ≤ links := by
  induction links, d, cs using walk_induction with
  | hnil links d =>
    rw [walk_nil] at h
    cases h
    exact Nat.le_refl _
  | hstays links d c cs hs ih =>
    rw [walk_stays hs] at h
    exact ih h
  | hup links d cs ih =>
    rw [walk_up] at h
    exact ih h
  | hname links d c cs hs hu ih ihjump =>
    obtain ⟨-, hpass⟩ := (walk_eq_ok hs hu).mp h
    cases hpass with
    | directory hc hr => exact ih hr
    | last _ _ _ hr =>
      cases hr
      exact Nat.le_refl _
    | here _ _ _ _ hr =>
      cases hr
      exact Nat.le_refl _
    | link target n _ _ hlinks hr => exact (ihjump n hlinks _ _ hr).trans (hlinks ▸ Nat.le_succ n)

/-! ### A directory and its own name -/

/-- The last name on a way to a directory is the name of a directory or of a link. -/
theorem walk_own_name (ht : fs.Tree sys) (hd : fs.entry d = some .directory)
    (h : walk sys fs .directory links d cs = .ok r) :
    ∃ p m, walk sys fs .noFollow links d cs = .ok (p, m) ∧
      (fs.entry p = some .directory ∨ ∃ target, fs.entry p = some (.link target)) := by
  induction links, d, cs using walk_induction with
  | hnil links d => exact ⟨d, links, walk_nil, Or.inl hd⟩
  | hstays links d c cs hs ih =>
    rw [walk_stays hs] at h ⊢
    exact ih hd h
  | hup links d cs ih =>
    rw [walk_up] at h ⊢
    exact ih (ht.directory_of_prefix hd (List.dropLast_prefix d)) h
  | hname links d c cs hs hu ih ihjump =>
    obtain ⟨hfits, hpass⟩ := (walk_eq_ok hs hu).mp h
    cases hpass with
    | directory hc hr =>
      obtain ⟨p, m, hwalk, hp⟩ := ih hc hr
      exact ⟨p, m, (walk_eq_ok hs hu).mpr ⟨hfits, .directory hc hwalk⟩, hp⟩
    | last _ hfinal => exact absurd rfl hfinal
    | here _ _ hfinal => cases hfinal
    | link target n _ hc hlinks hr =>
      by_cases hcs : cs = []
      · exact ⟨d ++ [c], links, (walk_eq_ok hs hu).mpr ⟨hfits, .here target hcs rfl hc rfl⟩,
          Or.inr ⟨target, hc⟩⟩
      · have hstart : fs.entry (start target d) = some .directory := by
          unfold start
          split
          · exact ht.directory_of_prefix hd List.nil_prefix
          · exact hd
        obtain ⟨p, m, hwalk, hp⟩ := ihjump n hlinks _ _ hstart hr
        exact ⟨p, m, (walk_eq_ok hs hu).mpr ⟨hfits,
          .link target n (fun h => hcs h.1) hc hlinks hwalk⟩, hp⟩

/-- One component and the others. -/
theorem walk_cons (h : walk sys fs .directory links d [c] = .ok (q, m)) (cs : List Name) :
    walk sys fs .directory links d (c :: cs) = walk sys fs .directory m q cs := by
  by_cases hcs : cs = []
  · rw [hcs, h, walk_nil]
  · exact walk_append h hcs

/-- The components of two paths. -/
theorem walk_directory_append (h : walk sys fs .directory links d cs = .ok (q, m)) (ds : List Name) :
    walk sys fs .directory links d (cs ++ ds) = walk sys fs .directory m q ds := by
  by_cases hds : ds = []
  · rw [hds, List.append_nil, h, walk_nil]
  · exact walk_append h hds

theorem walk_directory_prefix (h : walk sys fs .directory links d (cs ++ ds) = .ok r) :
    ∃ q m, walk sys fs .directory links d cs = .ok (q, m) := by
  by_cases hds : ds = []
  · rw [hds, List.append_nil] at h
    exact ⟨r.1, r.2, h⟩
  · exact walk_prefix h hds

/-! ### Making what is missing -/

/-- A file system, a place that a way has come to, and the links that are left. -/
structure Way where
  fs : FileSystem
  place : Place
  links : ℕ

/-- One component further; a directory is made where a name stands for nothing. -/
def Way.go (sys : System) (w : Way) (c : Name) : Except Errno Way :=
  if Stays c then .ok w
  else if c = [46, 46] then .ok ⟨w.fs, w.place.dropLast, w.links⟩
  else if sys.nameMax < c.length then .error .ENAMETOOLONG
  else
    match w.fs.entry (w.place ++ [c]) with
    | none => .ok ⟨w.fs.insert (w.place ++ [c]) .directory, w.place ++ [c], w.links⟩
    | some .directory => .ok ⟨w.fs, w.place ++ [c], w.links⟩
    | some (.regular _) => .error .ENOTDIR
    | some (.link target) =>
      match jump sys w.fs .directory w.links (start target w.place) (components target) with
      | .ok (q, m) => .ok ⟨w.fs, q, m⟩
      | .error errno => .error errno

/-- All components. -/
def grow (sys : System) : Way → List Name → Except Errno Way
  | w, [] => .ok w
  | w, c :: cs =>
    match w.go sys c with
    | .ok w' => grow sys w' cs
    | .error errno => .error errno

/-- The file system with the directories that can be made. -/
def limit (sys : System) : Way → List Name → FileSystem
  | w, [] => w.fs
  | w, c :: cs =>
    match w.go sys c with
    | .ok w' => limit sys w' cs
    | .error _ => w.fs

variable {w w' : Way}

theorem grow_cons_ok (h : w.go sys c = .ok w') (cs : List Name) :
    grow sys w (c :: cs) = grow sys w' cs := by
  rw [grow, h]

theorem limit_cons_ok (h : w.go sys c = .ok w') (cs : List Name) :
    limit sys w (c :: cs) = limit sys w' cs := by
  rw [limit, h]

theorem grow_cons_eq_ok {w'' : Way} (h : grow sys w (c :: cs) = .ok w'') :
    ∃ w', w.go sys c = .ok w' ∧ grow sys w' cs = .ok w'' := by
  rw [grow] at h
  rcases hgo : w.go sys c with e | w'
  · rw [hgo] at h
    cases h
  · rw [hgo] at h
    exact ⟨w', rfl, h⟩

theorem grow_append (h : grow sys w cs = .ok w') (rest : List Name) :
    grow sys w (cs ++ rest) = grow sys w' rest ∧ limit sys w (cs ++ rest) = limit sys w' rest := by
  induction cs generalizing w with
  | nil =>
    cases h
    exact ⟨rfl, rfl⟩
  | cons c cs ih =>
    obtain ⟨w₁, hgo, hgrow⟩ := grow_cons_eq_ok h
    rw [List.cons_append, grow_cons_ok hgo, limit_cons_ok hgo]
    exact ih hgrow

theorem limit_of_grow (h : grow sys w cs = .ok w') : limit sys w cs = w'.fs := by
  have happend := (grow_append h []).2
  rwa [List.append_nil] at happend

/-- What one component does: a directory may be made where the way has come to. -/
structure Goes (sys : System) (w w' : Way) (c : Name) : Prop where
  enlarged : Enlarged w.fs w'.fs
  walk : walk sys w'.fs .directory w.links w.place [c] = .ok (w'.place, w'.links)
  made : ∀ q e, w.fs.entry q = none → w'.fs.entry q = some e → q = w'.place

theorem goes_of_go (h : w.go sys c = .ok w') : Goes sys w w' c := by
  unfold Way.go at h
  split at h
  · next hs =>
    cases h
    exact ⟨Enlarged.refl _, by rw [walk_stays hs, walk_nil], fun _ _ hn he => nomatch hn.symm.trans he⟩
  · next hs =>
    split at h
    · next hu =>
      cases h
      exact ⟨Enlarged.refl _, by rw [hu, walk_up, walk_nil], fun _ _ hn he => nomatch hn.symm.trans he⟩
    · next hu =>
      split at h
      · cases h
      · next hfits =>
        have hfits' := Nat.not_lt.mp hfits
        split at h
        · next hentry =>
          cases h
          refine ⟨enlarged_insert hentry, ?_, fun q e hn he => ?_⟩
          · exact (walk_eq_ok hs hu).mpr ⟨hfits', .directory (FileSystem.entry_insert_self _) walk_nil⟩
          · by_contra hne
            rw [FileSystem.entry_insert_of_ne _ hne, hn] at he
            cases he
        · next hentry =>
          cases h
          exact ⟨Enlarged.refl _, (walk_eq_ok hs hu).mpr ⟨hfits', .directory hentry walk_nil⟩,
            fun _ _ hn he => nomatch hn.symm.trans he⟩
        · cases h
        · next target hentry =>
          split at h
          · next q m hjump =>
            cases h
            refine ⟨Enlarged.refl _, ?_, fun _ _ hn he => nomatch hn.symm.trans he⟩
            show Posix.walk sys w.fs .directory w.links w.place [c] = _
            rw [walk_name hs hu, if_neg hfits, hentry]
            dsimp only
            rw [if_neg (fun hlast => nomatch hlast.2), List.append_nil]
            exact hjump
          · cases h

/-- **What all components do**: the way leads to a directory, and what was made is on it. -/
structure Grows (sys : System) (w w' : Way) (cs : List Name) : Prop where
  enlarged : Enlarged w.fs w'.fs
  walk : walk sys w'.fs .directory w.links w.place cs = .ok (w'.place, w'.links)
  made : ∀ q e, w.fs.entry q = none → w'.fs.entry q = some e →
    ∃ ds m, ds <+: cs ∧ Posix.walk sys w'.fs .directory w.links w.place ds = .ok (q, m)

theorem grows_of_grow (h : grow sys w cs = .ok w') : Grows sys w w' cs := by
  induction cs generalizing w with
  | nil =>
    cases h
    exact ⟨Enlarged.refl _, walk_nil, fun _ _ hn he => nomatch hn.symm.trans he⟩
  | cons c cs ih =>
    obtain ⟨w₁, hgo, hgrow⟩ := grow_cons_eq_ok h
    have hc := goes_of_go hgo
    have hcs := ih hgrow
    have hfirst := walk_enlarged hcs.enlarged hc.walk
    refine ⟨hc.enlarged.trans hcs.enlarged, ?_, fun q e hn he => ?_⟩
    · rw [walk_cons hfirst]
      exact hcs.walk
    · rcases hq : w₁.fs.entry q with _ | e'
      · obtain ⟨ds, m, hds, hwalk⟩ := hcs.made q e hq he
        exact ⟨c :: ds, m, List.cons_prefix_cons.mpr ⟨rfl, hds⟩, by rw [walk_cons hfirst]; exact hwalk⟩
      · obtain rfl := hc.made q e' hn hq
        exact ⟨[c], w₁.links, List.cons_prefix_cons.mpr ⟨rfl, List.nil_prefix⟩, hfirst⟩

theorem enlarged_limit (w : Way) (cs : List Name) : Enlarged w.fs (limit sys w cs) := by
  induction cs generalizing w with
  | nil => exact Enlarged.refl _
  | cons c cs ih =>
    rcases hgo : w.go sys c with e | w'
    · rw [limit, hgo]
      exact Enlarged.refl _
    · rw [limit_cons_ok hgo]
      exact (goes_of_go hgo).enlarged.trans (ih w')

/-- The beginning of a way makes no more than the way. -/
theorem enlarged_limit_append (w : Way) (cs rest : List Name) :
    Enlarged (limit sys w cs) (limit sys w (cs ++ rest)) := by
  induction cs generalizing w with
  | nil => exact enlarged_limit w rest
  | cons c cs ih =>
    rcases hgo : w.go sys c with e | w'
    · rw [List.cons_append, limit, limit, hgo]
      exact Enlarged.refl _
    · rw [List.cons_append, limit_cons_ok hgo, limit_cons_ok hgo]
      exact ih w'

theorem grow_beginning (h : grow sys w (cs ++ rest) = .ok w') :
    ∃ w₁, grow sys w cs = .ok w₁ ∧ grow sys w₁ rest = .ok w' := by
  induction cs generalizing w with
  | nil => exact ⟨w, rfl, h⟩
  | cons c cs ih =>
    obtain ⟨w₁, hgo, hgrow⟩ := grow_cons_eq_ok h
    obtain ⟨w₂, hw₂, hrest⟩ := ih hgrow
    exact ⟨w₂, by rw [grow_cons_ok hgo]; exact hw₂, hrest⟩

/-- **A path that leads to a directory has had its own made**: what is between the file system as it was
and the one with all directories has those on each way that it has. -/
theorem grow_of_walk (hlow : Enlarged w.fs fs) (hup : Enlarged fs (limit sys w (cs ++ rest)))
    (hwalk : walk sys fs .directory w.links w.place cs = .ok r) :
    ∃ w', grow sys w cs = .ok w' ∧ Enlarged w'.fs fs ∧ r = (w'.place, w'.links) := by
  induction cs generalizing w with
  | nil =>
    rw [walk_nil] at hwalk
    exact ⟨w, rfl, hlow, (Except.ok.inj hwalk).symm⟩
  | cons c cs ih =>
    have hparts : walk sys fs .directory w.links w.place ([c] ++ cs) = .ok r := hwalk
    obtain ⟨q, m, hfirst⟩ := walk_directory_prefix hparts
    have hrest : walk sys fs .directory m q cs = .ok r := by
      rw [← walk_cons hfirst]
      exact hwalk
    -- the first component, in the file system as it was
    suffices hgo : ∃ w₁, w.go sys c = .ok w₁ ∧ Enlarged w₁.fs fs ∧ w₁.place = q ∧ w₁.links = m by
      obtain ⟨w₁, hgo, hlow₁, rfl, rfl⟩ := hgo
      rw [List.cons_append, limit_cons_ok hgo] at hup
      rw [grow_cons_ok hgo]
      exact ih hlow₁ hup hrest
    unfold Way.go
    by_cases hs : Stays c
    · rw [if_pos hs]
      rw [walk_stays hs, walk_nil] at hfirst
      cases hfirst
      exact ⟨w, rfl, hlow, rfl, rfl⟩
    by_cases hu : c = [46, 46]
    · rw [if_neg hs, if_pos hu]
      rw [hu, walk_up, walk_nil] at hfirst
      cases hfirst
      exact ⟨_, rfl, hlow, rfl, rfl⟩
    obtain ⟨hfits, hpass⟩ := (walk_eq_ok hs hu).mp hfirst
    rw [if_neg hs, if_neg hu, if_neg (Nat.not_lt.mpr hfits)]
    cases hpass with
    | last _ hfinal => exact absurd rfl hfinal
    | here _ _ hfinal => cases hfinal
    | directory hc hr =>
      rw [walk_nil] at hr
      cases hr
      rcases hentry : w.fs.entry (w.place ++ [c]) with _ | e
      · exact ⟨_, rfl, hlow.insert hc, rfl, rfl⟩
      · have hkept := hlow.kept _ _ hentry
        rw [hc] at hkept
        cases hkept
        exact ⟨_, rfl, hlow, rfl, rfl⟩
    | link target n hcs hc hlinks hr =>
      have hentry := hlow.old hc nofun
      rw [List.append_nil] at hr
      rw [hentry]
      dsimp only
      rcases hjump : jump sys w.fs .directory w.links (start target w.place)
        (components target) with e | ⟨q', m'⟩
      · -- where the link leads to no directory nothing more is made
        have hstop : limit sys w (c :: cs ++ rest) = w.fs := by
          rw [List.cons_append, limit, Way.go, if_neg hs, if_neg hu,
            if_neg (Nat.not_lt.mpr hfits), hentry]
          dsimp only
          rw [hjump]
        rw [hstop] at hup
        have hback := walk_enlarged hup hr
        rw [hlinks] at hjump
        rw [show jump sys w.fs .directory (n + 1) = walk sys w.fs .directory n from rfl, hback] at hjump
        cases hjump
      · rw [hlinks] at hjump
        have hsame := walk_enlarged hlow (show walk sys w.fs .directory n _ _ = .ok (q', m') from hjump)
        rw [hr] at hsame
        cases hsame
        exact ⟨_, rfl, hlow, rfl, rfl⟩

theorem grow_of_whole_walk (hlow : Enlarged w.fs fs) (hup : Enlarged fs (limit sys w cs))
    (hwalk : walk sys fs .directory w.links w.place cs = .ok r) :
    ∃ w', grow sys w cs = .ok w' ∧ Enlarged w'.fs fs ∧ r = (w'.place, w'.links) := by
  have hup' : Enlarged fs (limit sys w (cs ++ [])) := by
    rw [List.append_nil]
    exact hup
  exact grow_of_walk hlow hup' hwalk

/-- A way that ends at a link ends at the name of the link. -/
theorem walk_to_link (ht : fs.Tree sys) (hd : fs.entry d = some .directory)
    (h : walk sys fs .noFollow links d cs = .ok (p, m)) (hp : fs.entry p = some (.link target)) :
    ∃ ds c q n, cs = ds ++ [c] ∧ walk sys fs .directory links d ds = .ok (q, n) ∧ ¬Stays c ∧
      c ≠ [46, 46] ∧
      c.length ≤ sys.nameMax ∧ fs.entry (q ++ [c]) = some (.link target) := by
  rcases List.eq_nil_or_concat' cs with rfl | ⟨ds, c, rfl⟩
  · rw [walk_nil] at h
    cases h
    rw [hd] at hp
    cases hp
  · obtain ⟨q, n, hq⟩ := walk_prefix h (List.cons_ne_nil c [])
    have hdir := ht.directory_of_walk hd hq
    rw [walk_append hq (List.cons_ne_nil c [])] at h
    have hs : ¬Stays c := by
      intro hs
      rw [walk_stays hs, walk_nil] at h
      cases h
      rw [hdir] at hp
      cases hp
    have hu : c ≠ [46, 46] := by
      intro hu
      rw [hu, walk_up, walk_nil] at h
      cases h
      rw [ht.directory_of_prefix hdir (List.dropLast_prefix _)] at hp
      cases hp
    obtain ⟨hfits, hpass⟩ := (walk_eq_ok hs hu).mp h
    refine ⟨ds, c, q, n, rfl, hq, hs, hu, hfits, ?_⟩
    cases hpass with
    | directory hdirectory hr =>
      rw [walk_nil] at hr
      cases hr
      rw [hdirectory] at hp
      cases hp
    | last _ _ _ hr =>
      cases hr
      exact hp
    | here _ _ _ _ hr =>
      cases hr
      exact hp
    | link _ _ hcs => exact absurd ⟨rfl, rfl⟩ hcs

/-- The same way, followed to a directory. -/
theorem walk_link_text (hs : ¬Stays c) (hu : c ≠ [46, 46])
    (hq : walk sys fs .directory links d ds = .ok (q, n))
    (hp : fs.entry (q ++ [c]) = some (.link target))
    (h : walk sys fs .directory links d (ds ++ [c]) = .ok r) :
    ∃ k, n = k + 1 ∧ walk sys fs .directory k (start target q) (components target) = .ok r := by
  rw [walk_directory_append hq] at h
  obtain ⟨-, hpass⟩ := (walk_eq_ok hs hu).mp h
  cases hpass with
  | directory hc =>
    rw [hp] at hc
    cases hc
  | last _ hfinal => exact absurd rfl hfinal
  | here _ _ hfinal => cases hfinal
  | link target' k _ hc hlinks hr =>
    rw [hp] at hc
    cases hc
    rw [List.append_nil] at hr
    exact ⟨k, hlinks, hr⟩

/-- **A link on a way leads to a directory as soon as it is there**: all that it needs has been made. -/
theorem walk_link_of_grow (hgrow : grow sys w (cs ++ rest) = .ok w') (hlow : Enlarged w.fs fs)
    (hup : Enlarged fs w'.fs) (ht : fs.Tree sys) (hd : fs.entry w.place = some .directory)
    (h : walk sys fs .noFollow w.links w.place cs = .ok (p, m))
    (hp : fs.entry p = some (.link target)) :
    ∃ r, walk sys fs .directory w.links w.place cs = .ok r := by
  obtain ⟨ds, c, q, n, rfl, hq, hs, hu, hfits, hhere⟩ := walk_to_link ht hd h hp
  rw [List.append_assoc] at hgrow
  obtain ⟨w₁, hgrow₁, hlow₁, hplace⟩ :=
    grow_of_walk hlow
      (show Enlarged fs (limit sys w (ds ++ ([c] ++ rest))) from limit_of_grow hgrow ▸ hup) hq
  cases hplace
  rw [(grow_append hgrow₁ _).1] at hgrow
  obtain ⟨w₂, hgo, -⟩ := grow_cons_eq_ok hgrow
  have hc := goes_of_go hgo
  -- at a link nothing is made
  have hsame : w₂.fs = w₁.fs := by
    unfold Way.go at hgo
    rw [if_neg hs, if_neg hu, if_neg (Nat.not_lt.mpr hfits), hlow₁.old hhere nofun] at hgo
    dsimp only at hgo
    split at hgo
    · cases hgo
      rfl
    · cases hgo
  have hlast := walk_enlarged (hsame ▸ hlow₁) hc.walk
  exact ⟨_, (walk_append hq (List.cons_ne_nil c [])).trans hlast⟩

/-! ### `mkdir` -/

/-- A path that a call accepts. -/
structure Accepts (sys : System) (fs : FileSystem) (path : List UInt8) : Prop where
  nonempty : path ≠ []
  fits : path.length < sys.pathMax
  base : path.head? = some 47 ∨ fs.entry sys.cwd = some .directory

theorem Accepts.enlarged (h : Accepts sys fs path) (henlarged : Enlarged fs fs') : Accepts sys fs' path :=
  ⟨h.nonempty, h.fits, h.base.imp_right (henlarged.kept _ _)⟩

theorem Accepts.resolve (h : Accepts sys fs path)
    (hwalk : walk sys fs final sys.linkMax (start path sys.cwd) (components path) = .ok (q, m)) :
    resolve sys fs final path = .ok q :=
  follow_eq_ok.mpr ⟨⟨h.nonempty, h.fits, h.base⟩, m, hwalk⟩

/-- A path that is accepted is only as good as its way. -/
theorem Accepts.resolve_eq (h : Accepts sys fs path) : Posix.resolve sys fs final path =
    (walk sys fs final sys.linkMax (start path sys.cwd) (components path)).map (·.1) := by
  have hbase : ¬(path.head? ≠ some 47 ∧ fs.entry sys.cwd ≠ some .directory) :=
    fun hnot => h.base.elim hnot.1 hnot.2
  unfold Posix.resolve follow
  rw [if_neg h.nonempty, if_neg (Nat.not_le.mpr h.fits), if_neg hbase]

theorem lstat_missing (h : resolve sys fs .noFollow path = .error .ENOENT ∨
    ∃ p, resolve sys fs .noFollow path = .ok p ∧ fs.entry p = none) :
    lstat sys fs path = .error .ENOENT := by
  unfold lstat
  rcases h with h | ⟨p, h, hp⟩
  · rw [h]
    rfl
  · rw [h]
    dsimp only [bind, Except.bind]
    rw [hp]

theorem mkdir_eq (h : follow sys fs .noFollow path (bareComponents path) = .ok p) :
    mkdir sys fs path =
      match fs.entry p with
      | some _ => .error .EEXIST
      | none => .ok (fs.insert p .directory) := by
  unfold mkdir
  rw [h]
  rfl

theorem bareComponents_of_name (hcs : components path = ds ++ [c]) (hc : c ≠ []) :
    bareComponents path = ds ++ [c] := by
  unfold bareComponents
  rw [hcs]
  exact List.rdropWhile_concat_neg _ _ _ (by simpa using hc)

theorem mkdir_name (haccepts : Accepts sys fs path) (hcs : components path = ds ++ [c])
    (hwalk : walk sys fs .directory sys.linkMax (start path sys.cwd) ds = .ok (q, m)) (hc : EntryName c)
    (hfits : c.length ≤ sys.nameMax) :
    mkdir sys fs path =
      match fs.entry (q ++ [c]) with
      | some _ => .error .EEXIST
      | none => .ok (fs.insert (q ++ [c]) .directory) := by
  refine mkdir_eq (follow_eq_ok.mpr ⟨⟨haccepts.nonempty, haccepts.fits, haccepts.base⟩, m, ?_⟩)
  rw [bareComponents_of_name hcs fun h => hc.stays (Or.inl h), walk_append hwalk (List.cons_ne_nil _ _)]
  exact walk_name_noFollow hc hfits

/-- A directory that is there is not made. -/
theorem mkdir_directory (hs : fs.Sound sys) (haccepts : Accepts sys fs path)
    (hwalk : walk sys fs .directory sys.linkMax (start path sys.cwd) (components path) = .ok r) :
    mkdir sys fs path = .error .EEXIST := by
  obtain ⟨k, hk⟩ := components_eq_bare path
  rw [hk] at hwalk
  obtain ⟨q, m, hbare⟩ := walk_directory_prefix hwalk
  obtain ⟨p, m', hp, hentry⟩ := walk_own_name hs.tree (hs.start haccepts.base) hbare
  rw [mkdir_eq (follow_eq_ok.mpr ⟨⟨haccepts.nonempty, haccepts.fits, haccepts.base⟩, m', hp⟩)]
  rcases hentry with hentry | ⟨target, hentry⟩
  · rw [hentry]
  · rw [hentry]

/-- **What `mkdir` makes**: a directory where a name on the way stands for nothing. -/
theorem mkdir_eq_ok (hs : fs.Sound sys) (h : mkdir sys fs path = .ok fs') :
    Accepts sys fs path ∧ ∃ ds c q m, ds ++ [c] <+: components path ∧
      walk sys fs .directory sys.linkMax (start path sys.cwd) ds = .ok (q, m) ∧ EntryName c ∧
      c.length ≤ sys.nameMax ∧ fs.entry q = some .directory ∧ fs.entry (q ++ [c]) = none ∧
      fs' = fs.insert (q ++ [c]) .directory := by
  rcases hp : follow sys fs .noFollow path (bareComponents path) with e | p
  · unfold mkdir at h
    rw [hp] at h
    cases h
  rw [mkdir_eq hp] at h
  rcases hentry : fs.entry p with _ | e
  · rw [hentry] at h
    obtain ⟨⟨hne, hfits, hbase⟩, m, hwalk⟩ := follow_eq_ok.mp hp
    have hstart := hs.start hbase
    refine ⟨⟨hne, hfits, hbase⟩, ?_⟩
    have hbare : bareComponents path <+: components path := List.rdropWhile_prefix _ _
    rcases List.eq_nil_or_concat' (bareComponents path) with hnil | ⟨ds, c, hcs⟩
    · rw [hnil, walk_nil] at hwalk
      cases hwalk
      rw [hstart] at hentry
      cases hentry
    · rw [hcs] at hwalk hbare
      obtain ⟨q, m', hq⟩ := walk_prefix hwalk (List.cons_ne_nil c [])
      have hdir := hs.tree.directory_of_walk hstart hq
      rw [walk_append hq (List.cons_ne_nil c [])] at hwalk
      have hstays : ¬Stays c := by
        intro hs'
        rw [walk_stays hs', walk_nil] at hwalk
        cases hwalk
        rw [hdir] at hentry
        cases hentry
      have hup : c ≠ [46, 46] := by
        intro hu
        rw [hu, walk_up, walk_nil] at hwalk
        cases hwalk
        rw [hs.tree.directory_of_prefix hdir (List.dropLast_prefix q)] at hentry
        cases hentry
      obtain ⟨hlong, -⟩ := (walk_eq_ok hstays hup).mp hwalk
      have hname : EntryName c :=
        ⟨hstays, hup, slash_notMem_components (hbare.subset (List.mem_append_right _ List.mem_cons_self))⟩
      rw [walk_name_noFollow hname hlong] at hwalk
      cases hwalk
      exact ⟨ds, c, q, _, hbare, hq, hname, hlong, hdir, hentry, (Except.ok.inj h).symm⟩
  · rw [hentry] at h
    cases h

theorem FileSystem.Sound.insert (h : fs.Sound sys) (hq : fs.entry q = some .directory)
    (hc : EntryName c)
    (hfits : c.length ≤ sys.nameMax) (hnone : fs.entry (q ++ [c]) = none) :
    (fs.insert (q ++ [c]) .directory).Sound sys := by
  have henlarged : Enlarged fs (fs.insert (q ++ [c]) .directory) := enlarged_insert hnone
  have hold : ∀ q' e, (fs.insert (q ++ [c]) .directory).entry q' = some e → q' ≠ q ++ [c] →
      fs.entry q' = some e := by
    intro q' e he hne
    rwa [FileSystem.entry_insert_of_ne _ hne] at he
  refine ⟨⟨fun q' n hn => ?_, fun q' n hn => ?_⟩, henlarged.kept _ _ h.root, fun q' file hfile => ?_⟩
  · by_cases hqn : q' ++ [n] = q ++ [c]
    · obtain ⟨-, hnc⟩ := List.append_inj' hqn rfl
      rw [List.singleton_inj] at hnc
      rw [hnc]
      exact ⟨hc, hfits⟩
    · rw [FileSystem.entry_insert_of_ne _ hqn] at hn
      exact h.tree.name q' n hn
  · by_cases hqn : q' ++ [n] = q ++ [c]
    · obtain ⟨rfl, -⟩ := List.append_inj' hqn rfl
      exact henlarged.kept _ _ hq
    · rw [FileSystem.entry_insert_of_ne _ hqn] at hn
      exact henlarged.kept _ _ (h.tree.parent q' n hn)
  · by_cases hqn : q' = q ++ [c]
    · rw [hqn, FileSystem.entry_insert_self] at hfile
      cases hfile
    · exact h.fresh q' file (hold _ _ hfile hqn)

/-- Making directories on a way keeps a file system sound. -/
theorem FileSystem.Sound.grow (h : w.fs.Sound sys) (hd : w.fs.entry w.place = some .directory)
    (hcs : ∀ c ∈ cs, 47 ∉ c) (hgrow : grow sys w cs = .ok w') : w'.fs.Sound sys := by
  induction cs generalizing w with
  | nil =>
    cases hgrow
    exact h
  | cons c cs ih =>
    obtain ⟨w₁, hgo, hgrow⟩ := grow_cons_eq_ok hgrow
    have hslash := hcs c List.mem_cons_self
    have hwalk := (goes_of_go hgo).walk
    suffices hsound : w₁.fs.Sound sys from
      ih hsound (hsound.tree.directory_of_walk ((goes_of_go hgo).enlarged.kept _ _ hd) hwalk)
        (fun c' hc' => hcs c' (List.mem_cons_of_mem _ hc')) hgrow
    unfold Way.go at hgo
    split at hgo
    · cases hgo
      exact h
    · next hs =>
      split at hgo
      · cases hgo
        exact h
      · next hu =>
        split at hgo
        · cases hgo
        · next hfits =>
          split at hgo
          · next hentry =>
            cases hgo
            exact h.insert hd ⟨hs, hu, hslash⟩ (Nat.not_lt.mp hfits) hentry
          · cases hgo
            exact h
          · cases hgo
          · split at hgo
            · cases hgo
              exact h
            · cases hgo

/-- **A file system on its way** from the one where a path begins to the one with all its directories. -/
structure Between (sys : System) (w : Way) (cs : List Name) (fs : FileSystem) : Prop where
  sound : fs.Sound sys
  low : Enlarged w.fs fs
  high : Enlarged fs (limit sys w cs)

theorem Between.further (h : Between sys w cs fs) (rest : List Name) : Between sys w (cs ++ rest) fs :=
  ⟨h.sound, h.low, h.high.trans (enlarged_limit_append w cs rest)⟩

/-- `mkdir` of the beginning of a path goes no further than all directories of the path. -/
theorem Between.mkdir (h : Between sys w cs fs) (hlinks : w.links = sys.linkMax)
    (hstart : path ≠ [] → start path sys.cwd = w.place) (hcs : components path <+: cs)
    (hmade : mkdir sys fs path = .ok fs') : Between sys w cs fs' := by
  obtain ⟨haccepts, ds, c, q, m, hds, hwalk, hc, hfits, hq, hnone, rfl⟩ := mkdir_eq_ok h.sound hmade
  rw [hstart haccepts.nonempty, ← hlinks] at hwalk
  obtain ⟨rest, hrest⟩ := hds.trans hcs
  have hlow := h.low
  have hhigh := h.high
  rw [← hrest, List.append_assoc] at hhigh
  obtain ⟨w', hgrow, hw', hplace⟩ := grow_of_walk hlow hhigh hwalk
  cases hplace
  have hgo : w'.go sys c =
      .ok ⟨w'.fs.insert (w'.place ++ [c]) .directory, w'.place ++ [c], w'.links⟩ := by
    rw [Way.go, if_neg hc.stays, if_neg hc.up, if_neg (Nat.not_lt.mpr hfits), hw'.missing hnone]
  have hlimit := (grow_append hgrow ([c] ++ rest)).2
  rw [List.singleton_append, limit_cons_ok hgo, ← List.singleton_append, ← List.append_assoc,
    hrest] at hlimit
  refine ⟨h.sound.insert hq hc hfits hnone, hlow.trans (enlarged_insert hnone), h.high.insert ?_⟩
  rw [hlimit]
  exact (enlarged_limit _ rest).kept _ _ (FileSystem.entry_insert_self _)

/-- What one component makes is there already where its name stands for something. -/
theorem Way.go_enlarged (h : w.go sys c = .ok w') (hlow : Enlarged w.fs fs)
    (hthere : ¬Stays c → c ≠ [46, 46] → fs.entry (w.place ++ [c]) ≠ none) : Enlarged w'.fs fs := by
  unfold Way.go at h
  split at h
  · cases h
    exact hlow
  · next hs =>
    split at h
    · cases h
      exact hlow
    · next hu =>
      split at h
      · cases h
      · split at h
        · next hentry =>
          cases h
          obtain ⟨e, he⟩ := Option.ne_none_iff_exists'.mp (hthere hs hu)
          refine hlow.insert ?_
          rw [he, hlow.new _ _ hentry he]
        · cases h
          exact hlow
        · cases h
        · split at h
          · cases h
            exact hlow
          · cases h

/-- **`mkdir` behind a directory**: it makes the directory of the path, or finds one. -/
theorem Between.mkdir_spec (h : Between sys w cs fs) (hgrow : grow sys w cs = .ok w')
    (hlinks : w.links = sys.linkMax) (hstart : start path sys.cwd = w.place)
    (haccepts : Accepts sys fs path)
    (hcs : components path <+: cs) (hds : components path = ds ++ [c])
    (hwalk : walk sys fs .directory w.links w.place ds = .ok (q, m)) :
    ∃ fs', (Posix.mkdir sys fs path = .ok fs' ∨ Posix.mkdir sys fs path = .error .EEXIST ∧ fs' = fs) ∧
      Between sys w cs fs' ∧
        ∃ r, walk sys fs' .directory w.links w.place (components path) = .ok r := by
  obtain ⟨rest, rfl⟩ := hcs
  have hall := hgrow
  have hhigh := h.high
  rw [hds, List.append_assoc] at hall hhigh
  obtain ⟨w₁, hgrow₁, hlow₁, hplace⟩ := grow_of_walk h.low hhigh hwalk
  cases hplace
  rw [(grow_append hgrow₁ _).1] at hall
  obtain ⟨w₂, hgo, -⟩ := grow_cons_eq_ok hall
  have hgoes := goes_of_go hgo
  have hslash : 47 ∉ c :=
    slash_notMem_components (by rw [hds]; exact List.mem_append_right _ List.mem_cons_self)
  by_cases hnew : (¬Stays c ∧ c ≠ [46, 46]) ∧ fs.entry (w₁.place ++ [c]) = none
  · -- the name stands for nothing
    obtain ⟨⟨hs, hu⟩, hnone⟩ := hnew
    have hfits : c.length ≤ sys.nameMax := by
      obtain ⟨hfits, -⟩ := (walk_eq_ok hs hu).mp hgoes.walk
      exact hfits
    have hmade : Posix.mkdir sys fs path = .ok (fs.insert (w₁.place ++ [c]) .directory) := by
      rw [mkdir_name haccepts hds (by rw [hstart, ← hlinks]; exact hwalk) ⟨hs, hu, hslash⟩ hfits, hnone]
    refine ⟨_, Or.inl hmade, h.mkdir hlinks (fun _ => hstart) (List.prefix_append _ _) hmade,
      (w₁.place ++ [c], w₁.links), ?_⟩
    rw [hds, walk_directory_append (walk_enlarged (enlarged_insert hnone) hwalk)]
    exact (walk_eq_ok hs hu).mpr ⟨hfits, .directory (FileSystem.entry_insert_self _) walk_nil⟩
  · -- there is a directory, or a link to one
    have henlarged : Enlarged w₂.fs fs :=
      Way.go_enlarged hgo hlow₁ fun hs hu hnone => hnew ⟨⟨hs, hu⟩, hnone⟩
    have hthere : walk sys fs .directory w.links w.place (components path) =
        .ok (w₂.place, w₂.links) := by
      rw [hds, walk_directory_append hwalk]
      exact walk_enlarged henlarged hgoes.walk
    have hhere : walk sys fs .directory sys.linkMax (start path sys.cwd) (components path) =
        .ok (w₂.place, w₂.links) := by
      rw [hstart, ← hlinks]
      exact hthere
    exact ⟨fs, Or.inr ⟨mkdir_directory h.sound haccepts hhere, rfl⟩, h, _, hthere⟩

end Posix
