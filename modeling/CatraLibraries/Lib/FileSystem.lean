/-
# A POSIX file system

The entries of a tree of directories, each at the names that lead to it from the root: directories,
regular files by number (two names of one number are hard links) and symbolic links.  A path is
followed component by component; a symbolic link on the way is replaced by its text.

The calls are those of POSIX that look names up, make and remove them.  Permissions, other kinds of
entries and what several processes do at once are left out.
-/
import Mathlib.Data.List.AList
import Mathlib.Logic.Function.Basic
import CatraLibraries.Lib.Paths

namespace Posix

open Paths (Name components Stays components_append)

/-- Where an entry is: the names that lead to it from the root. -/
abbrev Place := List Name

/-- What a name stands for. -/
inductive Entry
  | directory
  | regular (file : ℕ)
  | link (target : List UInt8)
  deriving DecidableEq, Repr

/-- The errors of the calls. -/
inductive Errno
  | ENOENT | ENOTDIR | ELOOP | ENAMETOOLONG | EISDIR | EEXIST | ENOTEMPTY | EINVAL | EBUSY | EIOERR
  deriving DecidableEq, Repr

/-- The entries, the bytes of each file, and the number of the file that is made next. -/
structure FileSystem where
  entries : AList fun _ : Place => Entry
  content : ℕ → List UInt8
  nextFile : ℕ

namespace FileSystem

/-- The entry at a place. -/
def entry (fs : FileSystem) (d : Place) : Option Entry := fs.entries.lookup d

/-- One name less. -/
def erase (fs : FileSystem) (d : Place) : FileSystem := { fs with entries := fs.entries.erase d }

/-- One name more. -/
def insert (fs : FileSystem) (d : Place) (e : Entry) : FileSystem :=
  { fs with entries := fs.entries.insert d e }

/-- Other bytes for a file. -/
def write (fs : FileSystem) (file : ℕ) (bytes : List UInt8) : FileSystem :=
  { fs with content := Function.update fs.content file bytes }

/-- Nothing is below the place. -/
def IsEmpty (fs : FileSystem) (d : Place) : Prop := ∀ q ∈ fs.entries.keys, d <+: q → q = d

instance (fs : FileSystem) (d : Place) : Decidable (fs.IsEmpty d) :=
  inferInstanceAs (Decidable (∀ q ∈ fs.entries.keys, d <+: q → q = d))

variable (fs : FileSystem) {d q : Place} {e : Entry}

@[simp] theorem entry_erase_self : (fs.erase d).entry d = none := AList.lookup_erase d fs.entries

@[simp] theorem entry_erase_of_ne (h : q ≠ d) : (fs.erase d).entry q = fs.entry q :=
  AList.lookup_erase_ne h

@[simp] theorem content_erase : (fs.erase d).content = fs.content := rfl

@[simp] theorem entry_insert_self : (fs.insert d e).entry d = some e :=
  AList.lookup_insert fs.entries

@[simp] theorem entry_insert_of_ne (h : q ≠ d) : (fs.insert d e).entry q = fs.entry q :=
  AList.lookup_insert_ne h

@[simp] theorem content_write_self (file : ℕ) (bytes : List UInt8) :
    (fs.write file bytes).content file = bytes := Function.update_self ..

@[simp] theorem content_write_of_ne {file file' : ℕ} (h : file' ≠ file) (bytes : List UInt8) :
    (fs.write file bytes).content file' = fs.content file' := Function.update_of_ne h ..

@[simp] theorem write_write (file : ℕ) (bytes bytes' : List UInt8) :
    (fs.write file bytes).write file bytes' = fs.write file bytes' := by
  unfold write
  rw [Function.update_idem]

theorem write_content (file : ℕ) : fs.write file (fs.content file) = fs := by
  unfold write
  rw [Function.update_eq_self]

theorem isEmpty_iff : fs.IsEmpty d ↔ ∀ q, d <+: q → q ≠ d → fs.entry q = none := by
  constructor
  · intro h q hq hne
    refine AList.lookup_eq_none.mpr fun hmem => hne (h q (AList.mem_keys.mp hmem) hq)
  · intro h q hmem hq
    by_contra hne
    exact AList.lookup_eq_none.mp (h q hq hne) (AList.mem_keys.mpr hmem)

end FileSystem

/-! ### The names that directories hold -/

/-- A name of an entry: it has no slash, and it is neither "." nor "..". -/
structure EntryName (n : Name) : Prop where
  stays : ¬Stays n
  up : n ≠ [46, 46]
  slash : 47 ∉ n

theorem entryName_iff {n : Name} : EntryName n ↔ ¬Stays n ∧ n ≠ [46, 46] ∧ 47 ∉ n :=
  ⟨fun h => ⟨h.stays, h.up, h.slash⟩, fun h => ⟨h.1, h.2.1, h.2.2⟩⟩

instance (n : Name) : Decidable (EntryName n) := decidable_of_iff _ entryName_iff.symm

/-- What the calls depend on besides the file system: the working directory, the longest path and
name, the symbolic links that one path may lead through, what an `int` holds that is not set, and the
order in which the names of a directory are read. -/
structure System where
  cwd : Place
  pathMax : ℕ
  nameMax : ℕ
  linkMax : ℕ
  indeterminate : Errno
  readdir : FileSystem → Place → List Name
  readdir_name : ∀ fs d, ∀ n ∈ readdir fs d, n = [46] ∨ n = [46, 46] ∨ (fs.entry (d ++ [n])).isSome
  mem_readdir : ∀ fs d n, EntryName n → (fs.entry (d ++ [n])).isSome → n ∈ readdir fs d
  readdir_nodup : ∀ fs d, (readdir fs d).Nodup

namespace FileSystem

/-- The names in a directory, in the order of the entries. -/
def names (fs : FileSystem) (d : Place) : List Name :=
  fs.entries.keys.filterMap fun q => if q ≠ [] ∧ q.dropLast = d then q.getLast? else none

theorem mem_names (fs : FileSystem) (d : Place) (n : Name) :
    n ∈ fs.names d ↔ (fs.entry (d ++ [n])).isSome := by
  unfold names entry
  rw [List.mem_filterMap, AList.lookup_isSome, AList.mem_keys]
  constructor
  · rintro ⟨q, hq, hn⟩
    split at hn
    · next h =>
      rwa [← h.2, List.dropLast_append_getLast? n hn]
    · cases hn
  · intro h
    refine ⟨d ++ [n], h, ?_⟩
    rw [if_pos ⟨by simp, List.dropLast_concat⟩, List.getLast?_concat]

theorem names_nodup (fs : FileSystem) (d : Place) : (fs.names d).Nodup := by
  refine fs.entries.keys_nodup.filterMap fun q q' n hq hq' => ?_
  rw [Option.mem_def] at hq hq'
  split at hq
  · next h =>
    split at hq'
    · next h' =>
      rw [← List.dropLast_append_getLast? n hq, ← List.dropLast_append_getLast? n hq', h.2, h'.2]
    · cases hq'
  · cases hq

end FileSystem

/-- A system that reads directories in the order of the entries. -/
def System.ordered (cwd : Place) (pathMax nameMax linkMax : ℕ) (indeterminate : Errno) : System where
  cwd := cwd
  pathMax := pathMax
  nameMax := nameMax
  linkMax := linkMax
  indeterminate := indeterminate
  readdir fs d := [46] :: [46, 46] :: (fs.names d).filter fun n => n ≠ [46] ∧ n ≠ [46, 46]
  readdir_name fs d n hn := by
    rcases List.mem_cons.mp hn with rfl | hn
    · exact Or.inl rfl
    · rcases List.mem_cons.mp hn with rfl | hn
      · exact Or.inr (Or.inl rfl)
      · exact Or.inr (Or.inr ((fs.mem_names d n).mp (List.mem_filter.mp hn).1))
  mem_readdir fs d n hn hentry := by
    refine List.mem_cons_of_mem _ (List.mem_cons_of_mem _ (List.mem_filter.mpr ?_))
    refine ⟨(fs.mem_names d n).mpr hentry, decide_eq_true ⟨?_, hn.up⟩⟩
    exact fun hdot => hn.stays (Or.inr hdot)
  readdir_nodup fs d := by
    have hnodup := (fs.names_nodup d).filter fun n => decide (n ≠ [46] ∧ n ≠ [46, 46])
    refine List.nodup_cons.mpr ⟨?_, List.nodup_cons.mpr ⟨?_, hnodup⟩⟩
    · simp
    · simp

/-! ### The way of a path -/

/-- What the last component of a path may be. -/
inductive Final
  /-- a directory, or a link to one -/
  | directory
  /-- anything or nothing; a link is followed -/
  | follow
  /-- anything or nothing -/
  | noFollow
  deriving DecidableEq, Repr

/-- Where a path starts; `d` is the directory that a relative one is looked up in. -/
def start (path : List UInt8) (d : Place) : Place := if path.head? = some 47 then [] else d

variable (sys : System) (fs : FileSystem) (final : Final)

/-- The components of a path from the directory `d` on, with `links` symbolic links left; `jump`
goes on behind a link. -/
def walkWith (jump : Place → List Name → Except Errno (Place × ℕ)) (links : ℕ) :
    Place → List Name → Except Errno (Place × ℕ)
  | d, [] => .ok (d, links)
  | d, c :: cs =>
    if Stays c then walkWith jump links d cs
    else if c = [46, 46] then walkWith jump links d.dropLast cs
    else if sys.nameMax < c.length then .error .ENAMETOOLONG
    else
      match fs.entry (d ++ [c]) with
      | none => if cs = [] ∧ final ≠ .directory then .ok (d ++ [c], links) else .error .ENOENT
      | some .directory => walkWith jump links (d ++ [c]) cs
      | some (.regular _) =>
        if cs = [] ∧ final ≠ .directory then .ok (d ++ [c], links) else .error .ENOTDIR
      | some (.link target) =>
        if cs = [] ∧ final = .noFollow then .ok (d ++ [c], links)
        else jump (start target d) (components target ++ cs)

/-- The components of a path, each link replaced by its text. -/
def walk : ℕ → Place → List Name → Except Errno (Place × ℕ)
  | 0 => walkWith sys fs final (fun _ _ => .error .ELOOP) 0
  | links + 1 => walkWith sys fs final (walk links) (links + 1)

/-- The components of a path from where it starts. -/
def follow (path : List UInt8) (cs : List Name) : Except Errno Place :=
  if path = [] then .error .ENOENT
  else if sys.pathMax ≤ path.length then .error .ENAMETOOLONG
  else if path.head? ≠ some 47 ∧ fs.entry sys.cwd ≠ some .directory then .error .ENOENT
  else (walk sys fs final sys.linkMax (start path sys.cwd) cs).map (·.1)

/-- Where a path leads to. -/
def resolve (path : List UInt8) : Except Errno Place := follow sys fs final path (components path)

/-- The components of a path without the slashes at its end. -/
def bareComponents (path : List UInt8) : List Name := (components path).rdropWhile (· = [])

/-! ### The calls -/

/-- `lstat`. -/
def lstat (path : List UInt8) : Except Errno Entry := do
  match fs.entry (← resolve sys fs .noFollow path) with
  | some e => .ok e
  | none => .error .ENOENT

/-- `opendir`: the names that the scan will deliver. -/
def opendir (path : List UInt8) : Except Errno (List Name) := do
  let d ← resolve sys fs .directory path
  .ok (sys.readdir fs d)

/-- `readlink` into `size` bytes. -/
def readlink (path : List UInt8) (size : ℕ) : Except Errno (List UInt8) := do
  match fs.entry (← resolve sys fs .noFollow path) with
  | some (.link target) => .ok (target.take size)
  | some _ => .error .EINVAL
  | none => .error .ENOENT

/-- `unlink`. -/
def unlink (path : List UInt8) : Except Errno FileSystem := do
  let d ← resolve sys fs .noFollow path
  match fs.entry d with
  | some .directory => .error .EISDIR
  | some _ => .ok (fs.erase d)
  | none => .error .ENOENT

/-- `rmdir`. -/
def rmdir (path : List UInt8) : Except Errno FileSystem := do
  let cs := bareComponents path
  let d ← follow sys fs .noFollow path cs
  match fs.entry d with
  | some .directory =>
    if d = [] then .error .EBUSY
    else if cs.getLast? = some [46] then .error .EINVAL
    else if ¬fs.IsEmpty d then .error .ENOTEMPTY
    else .ok (fs.erase d)
  | some _ => .error .ENOTDIR
  | none => .error .ENOENT

/-- `mkdir`. -/
def mkdir (path : List UInt8) : Except Errno FileSystem := do
  let d ← follow sys fs .noFollow path (bareComponents path)
  match fs.entry d with
  | some _ => .error .EEXIST
  | none => .ok (fs.insert d .directory)

/-- `symlink`. -/
def symlink (target path : List UInt8) : Except Errno FileSystem := do
  if target = [] then .error .ENOENT
  else if sys.pathMax ≤ target.length then .error .ENAMETOOLONG
  else
    let d ← resolve sys fs .noFollow path
    match fs.entry d with
    | some _ => .error .EEXIST
    | none => .ok (fs.insert d (.link target))

/-- `open` with `O_RDONLY`: the file.  A directory can be opened, but not be read; that is an error
already here. -/
def openRead (path : List UInt8) : Except Errno ℕ := do
  match fs.entry (← resolve sys fs .follow path) with
  | some (.regular file) => .ok file
  | some .directory => .error .EISDIR
  | some (.link _) => .error .ELOOP
  | none => .error .ENOENT

/-- A new file without bytes. -/
def FileSystem.create (fs : FileSystem) (d : Place) : FileSystem :=
  { (fs.insert d (.regular fs.nextFile)).write fs.nextFile [] with nextFile := fs.nextFile + 1 }

/-- `open` with `O_WRONLY | O_CREAT`, and with `O_TRUNC`: the file and the file system. -/
def openWrite (truncate : Bool) (path : List UInt8) : Except Errno (ℕ × FileSystem) := do
  let d ← resolve sys fs .follow path
  match fs.entry d with
  | some (.regular file) => .ok (file, if truncate then fs.write file [] else fs)
  | some .directory => .error .EISDIR
  | some (.link _) => .error .ELOOP
  | none => .ok (fs.nextFile, fs.create d)

section Calls

variable {sys fs} {path : List UInt8} {d : Place} {e : Entry}

theorem lstat_eq (h : resolve sys fs .noFollow path = .ok d) (hentry : fs.entry d = some e) :
    lstat sys fs path = .ok e := by
  show (resolve sys fs .noFollow path >>= fun d => _) = _
  rw [h]
  show (match fs.entry d with
    | some e => Except.ok e
    | none => Except.error Errno.ENOENT) = _
  rw [hentry]

theorem opendir_eq (h : resolve sys fs .directory path = .ok d) :
    opendir sys fs path = .ok (sys.readdir fs d) := by
  show (resolve sys fs .directory path >>= fun d => _) = _
  rw [h]
  rfl

theorem unlink_eq (h : resolve sys fs .noFollow path = .ok d) (hentry : fs.entry d = some e)
    (he : e ≠ .directory) : unlink sys fs path = .ok (fs.erase d) := by
  show (resolve sys fs .noFollow path >>= fun d => _) = _
  rw [h]
  show (match fs.entry d with
    | some .directory => Except.error Errno.EISDIR
    | some _ => Except.ok (fs.erase d)
    | none => Except.error Errno.ENOENT) = _
  rw [hentry]
  cases e with
  | directory => exact absurd rfl he
  | regular file => rfl
  | link target => rfl

theorem rmdir_eq (h : follow sys fs .noFollow path (bareComponents path) = .ok d)
    (hentry : fs.entry d = some .directory) (hd : d ≠ [])
    (hdot : (bareComponents path).getLast? ≠ some [46]) (hempty : fs.IsEmpty d) :
    rmdir sys fs path = .ok (fs.erase d) := by
  show (follow sys fs .noFollow path (bareComponents path) >>= fun d => _) = _
  rw [h]
  show (match fs.entry d with
    | some .directory =>
      if d = [] then Except.error Errno.EBUSY
      else if (bareComponents path).getLast? = some [46] then Except.error Errno.EINVAL
      else if ¬fs.IsEmpty d then Except.error Errno.ENOTEMPTY
      else Except.ok (fs.erase d)
    | some _ => Except.error Errno.ENOTDIR
    | none => Except.error Errno.ENOENT) = _
  rw [hentry]
  show (if d = [] then _ else _) = _
  rw [if_neg hd, if_neg hdot, if_neg (not_not_intro hempty)]

end Calls

/-! ### What a way depends on -/

section Walk

variable {sys fs} {final : Final} {links m : ℕ} {d q : Place} {c : Name} {cs ds : List Name}

/-- Behind a link. -/
def jump (sys : System) (fs : FileSystem) (final : Final) :
    ℕ → Place → List Name → Except Errno (Place × ℕ)
  | 0 => fun _ _ => .error .ELOOP
  | links + 1 => walk sys fs final links

theorem walk_eq (links : ℕ) :
    walk sys fs final links = walkWith sys fs final (jump sys fs final links) links := by
  cases links <;> rfl

theorem walk_nil : walk sys fs final links d [] = .ok (d, links) := by
  rw [walk_eq]
  rfl

theorem walk_stays (h : Stays c) :
    walk sys fs final links d (c :: cs) = walk sys fs final links d cs := by
  rw [walk_eq]
  exact if_pos h

theorem walk_up : walk sys fs final links d ([46, 46] :: cs) =
    walk sys fs final links d.dropLast cs := by
  rw [walk_eq]
  rfl

/-- One name. -/
theorem walk_name (hstays : ¬Stays c) (hup : c ≠ [46, 46]) :
    walk sys fs final links d (c :: cs) =
      if sys.nameMax < c.length then .error .ENAMETOOLONG
      else
        match fs.entry (d ++ [c]) with
        | none => if cs = [] ∧ final ≠ .directory then .ok (d ++ [c], links) else .error .ENOENT
        | some .directory => walk sys fs final links (d ++ [c]) cs
        | some (.regular _) =>
          if cs = [] ∧ final ≠ .directory then .ok (d ++ [c], links) else .error .ENOTDIR
        | some (.link target) =>
          if cs = [] ∧ final = .noFollow then .ok (d ++ [c], links)
          else jump sys fs final links (start target d) (components target ++ cs) := by
  rw [walk_eq]
  show (if Stays c then _ else if c = [46, 46] then _ else _) = _
  rw [if_neg hstays, if_neg hup]

/-- What a name may be for a way to go on or to end there. -/
inductive Passes (sys : System) (fs : FileSystem) (final : Final) (links : ℕ) (d : Place) (c : Name)
    (cs : List Name) (r : Place × ℕ) : Prop
  /-- the name of a directory -/
  | directory (h : fs.entry (d ++ [c]) = some .directory)
      (hr : walk sys fs final links (d ++ [c]) cs = .ok r)
  /-- the last name: there is no directory and no link -/
  | last (hcs : cs = []) (hfinal : final ≠ .directory)
      (h : ∀ e, fs.entry (d ++ [c]) = some e → ∃ file, e = .regular file) (hr : r = (d ++ [c], links))
  /-- the last name: a link that is not followed -/
  | here (target : List UInt8) (hcs : cs = []) (hfinal : final = .noFollow)
      (h : fs.entry (d ++ [c]) = some (.link target)) (hr : r = (d ++ [c], links))
  /-- a link -/
  | link (target : List UInt8) (n : ℕ) (hcs : ¬(cs = [] ∧ final = .noFollow))
      (h : fs.entry (d ++ [c]) = some (.link target)) (hlinks : links = n + 1)
      (hr : walk sys fs final n (start target d) (components target ++ cs) = .ok r)

theorem walk_eq_ok {r : Place × ℕ} (hstays : ¬Stays c) (hup : c ≠ [46, 46]) :
    walk sys fs final links d (c :: cs) = .ok r ↔
      c.length ≤ sys.nameMax ∧ Passes sys fs final links d c cs r := by
  rw [walk_name hstays hup]
  by_cases hlong : sys.nameMax < c.length
  · rw [if_pos hlong]
    exact ⟨nofun, fun h => absurd hlong (Nat.not_lt.mpr h.1)⟩
  · rw [if_neg hlong]
    constructor
    · intro h
      refine ⟨Nat.not_lt.mp hlong, ?_⟩
      split at h
      · next hc =>
        split at h
        · next hlast =>
          cases h
          exact .last hlast.1 hlast.2 (fun e he => by rw [hc] at he; cases he) rfl
        · cases h
      · next hc => exact .directory hc h
      · next file hc =>
        split at h
        · next hlast =>
          cases h
          exact .last hlast.1 hlast.2 (fun e he => ⟨file, by rw [hc] at he; cases he; rfl⟩) rfl
        · cases h
      · next target hc =>
        split at h
        · next hlast =>
          cases h
          exact .here target hlast.1 hlast.2 hc rfl
        · next hlast =>
          cases links with
          | zero => cases h
          | succ n => exact .link target n hlast hc rfl h
    · rintro ⟨-, h⟩
      cases h with
      | directory hc hr => rwa [hc]
      | last hcs hfinal hc hr =>
        subst hcs hr
        rcases he : fs.entry (d ++ [c]) with _ | e
        · exact if_pos ⟨rfl, hfinal⟩
        · obtain ⟨file, rfl⟩ := hc e he
          exact if_pos ⟨rfl, hfinal⟩
      | here target hcs hfinal hc hr =>
        subst hcs hfinal hr
        rw [hc]
        rfl
      | link target n hcs hc hlinks hr =>
        subst hlinks
        rw [hc]
        show (if cs = [] ∧ final = .noFollow then _ else _) = _
        rw [if_neg hcs]
        exact hr

/-- **Induction along a way**: a way ends, stays, goes up, or goes on with a name; behind a link the
number of links left is smaller. -/
theorem walk_induction {motive : ℕ → Place → List Name → Prop}
    (hnil : ∀ links d, motive links d [])
    (hstays : ∀ links d c cs, Stays c → motive links d cs → motive links d (c :: cs))
    (hup : ∀ links d cs, motive links d.dropLast cs → motive links d ([46, 46] :: cs))
    (hname : ∀ links d c cs, ¬Stays c → c ≠ [46, 46] → motive links (d ++ [c]) cs →
      (∀ n, links = n + 1 → ∀ d cs, motive n d cs) → motive links d (c :: cs))
    (links : ℕ) (d : Place) (cs : List Name) : motive links d cs := by
  induction links using Nat.strong_induction_on generalizing d cs with
  | _ links ih =>
    induction cs generalizing d with
    | nil => exact hnil links d
    | cons c cs ihcs =>
      by_cases hs : Stays c
      · exact hstays links d c cs hs (ihcs d)
      · by_cases hu : c = [46, 46]
        · subst hu
          exact hup links d cs (ihcs d.dropLast)
        · refine hname links d c cs hs hu (ihcs (d ++ [c])) fun n hn => ih n ?_
          omega

/-- A way to a directory goes on with what follows. -/
theorem walk_append (h : walk sys fs .directory links d cs = .ok (q, m)) (hds : ds ≠ []) :
    walk sys fs final links d (cs ++ ds) = walk sys fs final m q ds := by
  induction links, d, cs using walk_induction with
  | hnil links d =>
    rw [walk_nil] at h
    cases h
    rfl
  | hstays links d c cs hs ih =>
    rw [walk_stays hs] at h
    rw [List.cons_append, walk_stays hs]
    exact ih h
  | hup links d cs ih =>
    rw [walk_up] at h
    rw [List.cons_append, walk_up]
    exact ih h
  | hname links d c cs hs hu ih ihjump =>
    obtain ⟨hfits, hpass⟩ := (walk_eq_ok hs hu).mp h
    rw [List.cons_append, walk_name hs hu, if_neg (Nat.not_lt.mpr hfits)]
    cases hpass with
    | directory hc hr =>
      rw [hc]
      exact ih hr
    | last _ hfinal => exact absurd rfl hfinal
    | here _ _ hfinal => cases hfinal
    | link target n hcs hc hlinks hr =>
      subst hlinks
      have hne : ¬(cs ++ ds = [] ∧ final = .noFollow) :=
        fun h => hds (List.append_eq_nil_iff.mp h.1).2
      rw [hc]
      show (if cs ++ ds = [] ∧ final = .noFollow then _ else _) = _
      rw [if_neg hne, ← List.append_assoc]
      exact ihjump n rfl _ _ hr

/-- A way that ends at a directory, and not at a link to it, is the same for every call; one that
ends at no link is the same with and without following links. -/
theorem walk_of_noFollow (h : walk sys fs .noFollow links d cs = .ok (q, m))
    (hq : fs.entry q = some .directory ∨
      final ≠ .directory ∧ ∀ target, fs.entry q ≠ some (.link target)) :
    walk sys fs final links d cs = .ok (q, m) := by
  induction links, d, cs using walk_induction with
  | hnil links d => rwa [walk_nil] at h ⊢
  | hstays links d c cs hs ih =>
    rw [walk_stays hs] at h ⊢
    exact ih h
  | hup links d cs ih =>
    rw [walk_up] at h ⊢
    exact ih h
  | hname links d c cs hs hu ih ihjump =>
    obtain ⟨hfits, hpass⟩ := (walk_eq_ok hs hu).mp h
    refine (walk_eq_ok hs hu).mpr ⟨hfits, ?_⟩
    cases hpass with
    | directory hc hr => exact .directory hc (ih hr)
    | last hcs _ hc hr =>
      cases hr
      rcases hq with hq | hq
      · obtain ⟨file, hfile⟩ := hc _ hq
        cases hfile
      · exact .last hcs hq.1 hc rfl
    | here target _ _ hc hr =>
      cases hr
      rcases hq with hq | hq
      · rw [hc] at hq
        cases hq
      · exact absurd hc (hq.2 target)
    | link target n hcs hc hlinks hr =>
      have hne : cs ≠ [] := fun h => hcs ⟨h, rfl⟩
      exact .link target n (fun h => hne h.1) hc hlinks (ihjump n hlinks _ _ hr)

/-- Empty components at the end of a way to a directory do not matter. -/
theorem walk_append_empty (h : walk sys fs .noFollow links d cs = .ok (q, m))
    (hq : fs.entry q = some .directory) (k : ℕ) :
    walk sys fs final links d (cs ++ List.replicate k []) = .ok (q, m) := by
  cases k with
  | zero =>
    rw [List.replicate_zero, List.append_nil]
    exact walk_of_noFollow h (Or.inl hq)
  | succ k =>
    rw [walk_append (walk_of_noFollow h (Or.inl hq)) (by rw [List.replicate_succ]; exact List.cons_ne_nil _ _)]
    generalize k + 1 = k
    induction k with
    | zero => exact walk_nil
    | succ k ih => rwa [List.replicate_succ, walk_stays (Or.inl rfl)]

/-- A name behind a way to a directory. -/
theorem walk_append_name (h : walk sys fs .noFollow links d cs = .ok (q, m))
    (hq : fs.entry q = some .directory) (k : ℕ) (c : Name) :
    walk sys fs final links d (cs ++ List.replicate k [] ++ [c]) = walk sys fs final m q [c] :=
  walk_append (walk_append_empty h hq k) (List.cons_ne_nil _ _)

/-- The last name of a path stands for its entry. -/
theorem walk_name_noFollow (hc : EntryName c) (hfits : c.length ≤ sys.nameMax) :
    walk sys fs .noFollow links d [c] = .ok (d ++ [c], links) := by
  refine (walk_eq_ok hc.stays hc.up).mpr ⟨hfits, ?_⟩
  rcases h : fs.entry (d ++ [c]) with _ | _ | file | target
  · exact .last rfl (by decide) (fun e he => by rw [h] at he; cases he) rfl
  · exact .directory h walk_nil
  · exact .last rfl (by decide) (fun e he => ⟨file, by rw [h] at he; cases he; rfl⟩) rfl
  · exact .here target rfl rfl h rfl

end Walk

end Posix
