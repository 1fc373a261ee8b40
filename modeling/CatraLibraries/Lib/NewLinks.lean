/-
# What a new link changes

A way that ends well without a place ends as well when something is put there.  The other direction
holds for one way only: a link that is put somewhere does not change the way of its own text.  A way
that met the link would begin again with the same text and fewer links left, so that a way without the
link comes first.
-/
import CatraLibraries.Lib.FileLinks

namespace Posix

open Paths (Name components Stays components_append)

variable {sys : System} {fs fs' : FileSystem} {final : Final} {links : ℕ} {d p q : Place}
  {cs : List Name} {path target : List UInt8} {r : Place × ℕ}

/-- The same entries, but for one place that is empty in the second file system. -/
structure Beside (fs' fs : FileSystem) (p : Place) : Prop where
  none : fs.entry p = none
  same : ∀ q ≠ p, fs'.entry q = fs.entry q

theorem Beside.entry (h : Beside fs' fs p) {e : Entry} (he : fs.entry q = some e) :
    fs'.entry q = some e := by
  rw [h.same]
  · exact he
  · rintro rfl
    rw [h.none] at he
    cases he

theorem beside_erase (fs : FileSystem) (p : Place) : Beside fs (fs.erase p) p :=
  ⟨fs.entry_erase_self, fun _ hq => (fs.entry_erase_of_ne hq).symm⟩

/-- **Something may be put where nothing is.**  Only a way that ends there, and follows what it ends at,
changes. -/
theorem walk_beside (h : Beside fs' fs p) (hr : final = .follow → r.1 ≠ p)
    (hwalk : walk sys fs final links d cs = .ok r) : walk sys fs' final links d cs = .ok r := by
  induction links, d, cs using walk_induction with
  | hnil links d => rwa [walk_nil] at hwalk ⊢
  | hstays links d c cs hs ih =>
    rw [walk_stays hs] at hwalk ⊢
    exact ih hwalk
  | hup links d cs ih =>
    rw [walk_up] at hwalk ⊢
    exact ih hwalk
  | hname links d c cs hs hu ih ihjump =>
    obtain ⟨hfits, hpass⟩ := (walk_eq_ok hs hu).mp hwalk
    refine (walk_eq_ok hs hu).mpr ⟨hfits, ?_⟩
    cases hpass with
    | directory hc hr' => exact .directory (h.entry hc) (ih hr')
    | here target hcs hfinal hc hr' => exact .here target hcs hfinal (h.entry hc) hr'
    | link target n hcs hc hlinks hr' =>
      exact .link target n hcs (h.entry hc) hlinks (ihjump n hlinks _ _ hr')
    | last hcs hfinal hc hr' =>
      by_cases hp : d ++ [c] = p
      · -- the way ends where something is put
        have hno : final = .noFollow := by
          cases final with
          | directory => exact absurd rfl hfinal
          | follow => exact absurd (congrArg Prod.fst hr' |>.trans hp) (hr rfl)
          | noFollow => rfl
        rcases hentry : fs'.entry (d ++ [c]) with _ | _ | file | target
        · exact .last hcs hfinal (fun e he => by rw [hentry] at he; cases he) hr'
        · refine .directory hentry ?_
          rw [hcs, walk_nil, hr']
        · exact .last hcs hfinal (fun e he => ⟨file, by rw [hentry] at he; cases he; rfl⟩) hr'
        · exact .here target hcs hno hentry hr'
      · exact .last hcs hfinal (fun e he => hc e (by rwa [← h.same _ hp])) hr'

theorem resolve_beside (h : Beside fs' fs p) (hresolve : resolve sys fs .noFollow path = .ok q) :
    resolve sys fs' .noFollow path = .ok q := by
  obtain ⟨⟨hne, hfits, hbase⟩, m, hm⟩ := follow_eq_ok.mp hresolve
  exact follow_eq_ok.mpr ⟨⟨hne, hfits, hbase.imp_right h.entry⟩, m, walk_beside h nofun hm⟩

/-- More links may be left. -/
theorem walk_more (k : ℕ) (h : walk sys fs final links d cs = .ok r) :
    walk sys fs final (links + k) d cs = .ok (r.1, r.2 + k) := by
  induction links, d, cs using walk_induction with
  | hnil links d =>
    rw [walk_nil] at h ⊢
    cases h
    rfl
  | hstays links d c cs hs ih =>
    rw [walk_stays hs] at h ⊢
    exact ih h
  | hup links d cs ih =>
    rw [walk_up] at h ⊢
    exact ih h
  | hname links d c cs hs hu ih ihjump =>
    obtain ⟨hfits, hpass⟩ := (walk_eq_ok hs hu).mp h
    refine (walk_eq_ok hs hu).mpr ⟨hfits, ?_⟩
    cases hpass with
    | directory hc hr => exact .directory hc (ih hr)
    | last hcs hfinal hc hr => exact .last hcs hfinal hc (by rw [hr])
    | here target hcs hfinal hc hr => exact .here target hcs hfinal hc (by rw [hr])
    | link target n hcs hc hlinks hr =>
      exact .link target (n + k) hcs hc (by rw [hlinks, Nat.add_right_comm]) (ihjump n hlinks _ _ hr)

/-- A way to a directory may be followed. -/
theorem walk_follow_of_directory (h : walk sys fs .directory links d cs = .ok r) :
    walk sys fs .follow links d cs = .ok r := by
  induction links, d, cs using walk_induction with
  | hnil links d => rwa [walk_nil] at h ⊢
  | hstays links d c cs hs ih =>
    rw [walk_stays hs] at h ⊢
    exact ih h
  | hup links d cs ih =>
    rw [walk_up] at h ⊢
    exact ih h
  | hname links d c cs hs hu ih ihjump =>
    obtain ⟨hfits, hpass⟩ := (walk_eq_ok hs hu).mp h
    refine (walk_eq_ok hs hu).mpr ⟨hfits, ?_⟩
    cases hpass with
    | directory hc hr => exact .directory hc (ih hr)
    | last _ hfinal => exact absurd rfl hfinal
    | here _ _ hfinal => cases hfinal
    | link target n _ hc hlinks hr => exact .link target n nofun hc hlinks (ihjump n hlinks _ _ hr)

/-! ### The way of a link's own text -/

/-- A way with a link at the place is a way without it, or it meets the link and goes on with the text. -/
theorem walk_meets (h : Beside fs' fs p) (hp : fs'.entry p = some (.link target))
    (hfinal : final ≠ .noFollow)
    (hwalk : walk sys fs' final links d cs = .ok r) :
    walk sys fs final links d cs = .ok r ∨
      ∃ n < links, ∃ ds,
        walk sys fs' final n (start target p.dropLast) (components target ++ ds) = .ok r := by
  have hentry : ∀ q e, fs'.entry q = some e → e ≠ .link target ∨ q ≠ p → fs.entry q = some e := by
    intro q e he hne
    have hq : q ≠ p := by
      rintro rfl
      rw [hp] at he
      cases he
      exact hne.elim (fun h => h rfl) fun h => h rfl
    rwa [← h.same q hq]
  induction links, d, cs using walk_induction with
  | hnil links d =>
    rw [walk_nil] at hwalk ⊢
    exact Or.inl hwalk
  | hstays links d c cs hs ih =>
    rw [walk_stays hs] at hwalk ⊢
    exact ih hwalk
  | hup links d cs ih =>
    rw [walk_up] at hwalk ⊢
    exact ih hwalk
  | hname links d c cs hs hu ih ihjump =>
    obtain ⟨hfits, hpass⟩ := (walk_eq_ok hs hu).mp hwalk
    rw [walk_eq_ok hs hu]
    cases hpass with
    | directory hc hr =>
      refine (ih hr).imp_left fun hr' => ⟨hfits, .directory (hentry _ _ hc (Or.inl nofun)) hr'⟩
    | last hcs hfinal' hc hr =>
      refine Or.inl ⟨hfits, .last hcs hfinal' (fun e he => hc e (h.entry he)) hr⟩
    | here _ _ hno => exact absurd hno hfinal
    | link target' n hcs hc hlinks hr =>
      by_cases hq : d ++ [c] = p
      · rw [hq, hp] at hc
        cases hc
        refine Or.inr ⟨n, by rw [hlinks]; exact Nat.lt_succ_self n, cs, ?_⟩
        rwa [← hq, List.dropLast_concat]
      · rcases ihjump n hlinks _ _ hr with hr' | ⟨n', hn', ds, hds⟩
        · exact Or.inl ⟨hfits, .link target' n hcs (hentry _ _ hc (Or.inr hq)) hlinks hr'⟩
        · exact Or.inr ⟨n', by rw [hlinks]; exact Nat.lt_succ_of_lt hn', ds, hds⟩

/-- **The way of a link's own text does not meet the link.** -/
theorem walk_own_text (h : Beside fs' fs p) (hp : fs'.entry p = some (.link target))
    (hfinal : final ≠ .noFollow) (hr : final = .follow → r.1 ≠ p)
    (hwalk : walk sys fs' final links (start target p.dropLast) (components target) = .ok r) :
    walk sys fs final links (start target p.dropLast) (components target) = .ok r := by
  induction links using Nat.strong_induction_on generalizing final r with
  | _ links ih =>
    rcases walk_meets h hp hfinal hwalk with hway | ⟨n, hn, ds, hds⟩
    · exact hway
    · obtain ⟨k, rfl⟩ : ∃ k, links = n + k := Nat.exists_eq_add_of_lt hn |>.imp' (· + 1) fun _ hk => hk
      -- the way begins again: there is one of fewer links, and so the way without the link
      by_cases hnil : ds = []
      · rw [hnil, List.append_nil] at hds
        have hway := walk_more k (ih n hn hfinal hr hds)
        have hboth := walk_beside h (r := (r.1, r.2 + k)) hr hway
        rw [hwalk] at hboth
        rwa [Except.ok.inj hboth]
      · obtain ⟨q, m, hq⟩ := walk_prefix hds hnil
        have hfollows : Final.directory = .follow → q ≠ p := fun hf => nomatch hf
        have hway := walk_more k (ih n hn (show Final.directory ≠ .noFollow by decide) hfollows hq)
        have hway' := walk_beside h hfollows hway
        cases final with
        | noFollow => exact absurd rfl hfinal
        | directory =>
          rw [hwalk] at hway'
          rwa [Except.ok.inj hway']
        | follow =>
          have hboth := walk_follow_of_directory hway'
          rw [hwalk] at hboth
          rw [Except.ok.inj hboth]
          exact walk_follow_of_directory hway

/-! ### Links that are made, and entries that are removed -/

theorem symlink_eq_ok (h : symlink sys fs target path = .ok fs') :
    ∃ d, resolve sys fs .noFollow path = .ok d ∧ fs.entry d = none ∧
      fs' = fs.insert d (.link target) := by
  unfold symlink at h
  split at h
  · cases h
  · split at h
    · cases h
    · rcases hd : resolve sys fs .noFollow path with e | d
      · rw [hd] at h
        cases h
      · rw [hd] at h
        dsimp only [bind, Except.bind] at h
        rcases hentry : fs.entry d with _ | e
        · rw [hentry] at h
          exact ⟨d, rfl, hentry, (Except.ok.inj h).symm⟩
        · rw [hentry] at h
          cases h

theorem unlink_eq_ok (h : unlink sys fs path = .ok fs') :
    ∃ d, resolve sys fs .noFollow path = .ok d ∧ (fs.entry d).isSome ∧ fs' = fs.erase d := by
  unfold unlink at h
  rcases hd : resolve sys fs .noFollow path with e | d
  · rw [hd] at h
    cases h
  · rw [hd] at h
    dsimp only [bind, Except.bind] at h
    refine ⟨d, rfl, ?_⟩
    rcases hentry : fs.entry d with _ | _ | file | text
    all_goals
      rw [hentry] at h
      cases h
    · exact ⟨rfl, rfl⟩
    · exact ⟨rfl, rfl⟩

theorem insert_erase (fs : FileSystem) (d : Place) (e : Entry) :
    (fs.erase d).insert d e = fs.insert d e := by
  unfold FileSystem.erase FileSystem.insert
  congr 1
  refine AList.ext ?_
  show _ :: List.kerase d (List.kerase d fs.entries.entries) = _ :: List.kerase d fs.entries.entries
  rw [List.kerase_of_notMem_keys]
  exact List.notMem_keys_kerase d fs.entries.nodupKeys

/-! ### The file that a link leads to -/

/-- The file at a place: a regular file by its number, or a directory. -/
def FileSystem.fileAt (fs : FileSystem) (q : Place) : Option (ℕ ⊕ Place) :=
  match fs.entry q with
  | some (.regular file) => some (.inl file)
  | some .directory => some (.inr q)
  | _ => none

/-- The file that the link at a place leads to. -/
def linkedFile (sys : System) (fs : FileSystem) (p : Place) : Option (ℕ ⊕ Place) :=
  match fs.entry p with
  | some (.link target) =>
    match jump sys fs .follow sys.linkMax (start target p.dropLast) (components target) with
    | .ok (q, _) => fs.fileAt q
    | .error _ => none
  | _ => none

variable {file : ℕ ⊕ Place}

theorem fileAt_of_none (hp : fs.entry p = none) : fs.fileAt p = none := by
  unfold FileSystem.fileAt
  rw [hp]

theorem fileAt_of_link (hp : fs.entry p = some (.link target)) : fs.fileAt p = none := by
  unfold FileSystem.fileAt
  rw [hp]

theorem Beside.fileAt (h : Beside fs' fs p) (hq : q ≠ p) : fs'.fileAt q = fs.fileAt q := by
  unfold FileSystem.fileAt
  rw [h.same q hq]

theorem linkedFile_of_none (hp : fs.entry p = none) : linkedFile sys fs p = none := by
  unfold linkedFile
  rw [hp]

theorem linkedFile_eq_some (hp : fs.entry p = some (.link target)) :
    linkedFile sys fs p = some file ↔
      ∃ q m, jump sys fs .follow sys.linkMax (start target p.dropLast) (components target) =
        .ok (q, m) ∧
        fs.fileAt q = some file := by
  unfold linkedFile
  rw [hp]
  dsimp only
  rcases jump sys fs .follow sys.linkMax (start target p.dropLast) (components target) with e | ⟨q, m⟩
  · exact ⟨nofun, fun ⟨_, _, h, _⟩ => nomatch h⟩
  · constructor
    · intro h
      exact ⟨q, m, rfl, h⟩
    · rintro ⟨_, _, ⟨⟩, h⟩
      exact h

/-- **A link leads to the file that its text leads to without the link.** -/
theorem linkedFile_beside (h : Beside fs' fs p) (hp : fs'.entry p = some (.link target)) :
    linkedFile sys fs' p = some file ↔
      ∃ q m, jump sys fs .follow sys.linkMax (start target p.dropLast) (components target) =
        .ok (q, m) ∧
        fs.fileAt q = some file := by
  rw [linkedFile_eq_some hp]
  rcases sys.linkMax with _ | links
  · exact ⟨fun ⟨_, _, h, _⟩ => (nomatch h), fun ⟨_, _, h, _⟩ => nomatch h⟩
  · show (∃ q m, walk sys fs' .follow links _ _ = _ ∧ _) ↔ ∃ q m, walk sys fs .follow links _ _ = _ ∧ _
    constructor
    · rintro ⟨q, m, hwalk, hfile⟩
      have hq : q ≠ p := by
        rintro rfl
        rw [fileAt_of_link hp] at hfile
        cases hfile
      refine ⟨q, m, walk_own_text h hp (by decide) (fun _ => hq) hwalk, ?_⟩
      rwa [← h.fileAt hq]
    · rintro ⟨q, m, hwalk, hfile⟩
      have hq : q ≠ p := by
        rintro rfl
        rw [fileAt_of_none h.none] at hfile
        cases hfile
      refine ⟨q, m, walk_beside h (fun _ => hq) hwalk, ?_⟩
      rwa [h.fileAt hq]

end Posix
