/-
# Moving a symbolic link

`FileIO::moveLink`, with `createLink` and `readLink` (`Tools/src/FileIO.cpp`).  A link is moved by making
another one, of the text that `readLink` tells, and removing the first.  For a relative text `readLink`
puts the directory part of the path in front, in place, in a buffer that it never leaves; it is called
the absolute path of the entry, but it is relative where the path is.  So the new link, which is read
from its own directory, leads to another place, or to none; so does one that is put where the source is
or that it has to lead over.

A move goes well exactly when the source is still found at its path beside the new link, and the text,
read from the directory of the new link, leads to the file of the source without either link.
-/
import CatraLibraries.FileIO.CopyFile
import CatraLibraries.FileIO.RemoveDirectory
import CatraLibraries.Lib.Memory
import CatraLibraries.Lib.NewLinks
import Mathlib.Algebra.Group.Int.Defs
import Mathlib.Algebra.Group.Nat.Defs

namespace CatraLibraries

open Posix Effects
open Paths (Name components Stays components_append)
open Memory (Cells Fault writeAt store load memmove memcpy)

namespace FileIO

variable (sys : System)

/-! ### The buffer of `readLink` -/

/-- An `int`. -/
def iCount (n : ℕ) : ℤ := (n : ℤ).bmod (2 ^ 32)

/-- An `int` as an `unsigned long`. -/
def ulCount (i : ℤ) : ℕ := (i % 2 ^ 64).toNat

/-- `readLink` into a buffer. -/
def readLinkInto (fs : FileSystem) (pLinkPathName : List UInt8) (pRealPathName : Cells UInt8) :
    Except Fault (Except FileIOError Unit × Cells UInt8) :=
  let ulRealPathNameLength := pRealPathName.length
  match readlink sys fs pLinkPathName ulRealPathNameLength with
  | .error errno => .ok (.error (.readlinkFailed errno), pRealPathName)
  | .ok bytes => do
    let pRealPathName ← writeAt pRealPathName 0 (bytes.map some)
    let iCharsCount := iCount bytes.length
    if iCharsCount = -1 then .ok (.error (.readlinkFailed sys.indeterminate), pRealPathName)
    else if ulRealPathNameLength ≤ ulCount iCharsCount then .ok (.error .bufferTooSmall, pRealPathName)
    else do
      let pRealPathName ← store pRealPathName iCharsCount.toNat 0
      let c ← load pRealPathName 0
      if c ≠ 47 then
        match pLinkPathName.rdropWhile (· ≠ 47) with
        | [] => .ok (.ok (), pRealPathName)
        | b :: pDirectory => do
          let ulCharsNumberToAdd := (b :: pDirectory).length
          if ulRealPathNameLength ≤ (ulCount iCharsCount + ulCharsNumberToAdd) % 2 ^ 64 then
            .ok (.error .bufferTooSmall, pRealPathName)
          else do
            let pRealPathName ← memmove pRealPathName ulCharsNumberToAdd 0 (iCharsCount.toNat + 1)
            let pRealPathName ← memcpy pRealPathName 0 (pLinkPathName.map some) ulCharsNumberToAdd
            .ok (.ok (), pRealPathName)
      else .ok (.ok (), pRealPathName)

/-! ### `createLink` and `moveLink` -/

/-- `symlink` in `createLink`. -/
def symlinkAt (pOriPathName pLinkPathName : List UInt8) : Method Unit :=
  change fun fs =>
    match symlink sys fs pOriPathName pLinkPathName with
    | .ok fs' => .ok fs'
    | .error errno => .error (.symlinkFailed errno)

/-- `createLink`, without making directories. -/
def createLink (pOriPathName pLinkPathName : List UInt8) (bReplaceItIfExist : Bool) : Method Unit :=
  fun fs =>
    match symlinkAt sys pOriPathName pLinkPathName fs with
    | .ok _ fs' => .ok () fs'
    | .error e fs' =>
      if bReplaceItIfExist ∧ e = .symlinkFailed .EEXIST then
        (do
          remove sys pLinkPathName
          symlinkAt sys pOriPathName pLinkPathName) fs'
      else .error e fs'

/-- `moveLink`. -/
def moveLink (pSrcPathName pDestPathName : List UInt8) : Method Unit := do
  let detDirectoryEntryType ← look fun fs => getDirectoryEntryType sys fs pSrcPathName
  if detDirectoryEntryType ≠ .linkFile then throw .activationWrong
  match ← look fun fs => .ok (getDirectoryEntryType sys fs pDestPathName) with
  | .error _ => do
    let pRealPathName ← look fun fs => readLink sys fs pSrcPathName 512
    createLink sys pRealPathName pDestPathName false
  | .ok .directory => do
    let bDestPathName := slashed pDestPathName ++ (behindLastSlash pSrcPathName).getD pSrcPathName
    let pRealPathName ← look fun fs => readLink sys fs pSrcPathName 512
    createLink sys pRealPathName bDestPathName false
  | .ok _ => do
    let pRealPathName ← look fun fs => readLink sys fs pSrcPathName 512
    createLink sys pRealPathName pDestPathName true
  remove sys pSrcPathName

variable {sys} {fs fs' : FileSystem} {src dest : List UInt8} {target : List UInt8} {sp dp : Place}

/-! ### What a move promises -/

/-- Where `moveLink` makes the link. -/
def linkDestination (sys : System) (fs : FileSystem) (src dest : List UInt8) : List UInt8 :=
  if getDirectoryEntryType sys fs dest = .ok .directory then
    slashed dest ++ (behindLastSlash src).getD src
  else dest

/-- The text of the link that is made. -/
def linkText (src target : List UInt8) : List UInt8 :=
  if target.head? = some 47 then target else src.rdropWhile (· ≠ 47) ++ target

/-- A link has been moved: the one at the destination leads to the file that the source led to, and the
source is gone. -/
structure Moved (sys : System) (fs fs' : FileSystem) (sp dp : Place) : Prop where
  leads : ∀ file, linkedFile sys fs sp = some file → linkedFile sys fs' dp = some file
  gone : fs'.entry sp = none

/-- The source is found beside the new link, and without either of them the text leads from the directory
of the new link to the file of the source. -/
structure LinkMovable (sys : System) (fs : FileSystem) (src target : List UInt8)
    (sp dp : Place) : Prop where
  found : resolve sys (fs.insert dp (.link (linkText src target))) .noFollow src = .ok sp
  leads : ∀ file, linkedFile sys fs sp = some file → dp ≠ sp ∧
    ∃ q m, jump sys ((fs.erase dp).erase sp) .follow sys.linkMax (start (linkText src target) dp.dropLast)
      (components (linkText src target)) = .ok (q, m) ∧ ((fs.erase dp).erase sp).fileAt q = some file

/-! ### `readLink` stays in its buffer -/

theorem length_readlink_le {n : ℕ} {bytes : List UInt8} (h : readlink sys fs src n = .ok bytes) :
    bytes.length ≤ n := by
  obtain ⟨d, -, h⟩ := Memory.bind_eq_ok.mp h
  rcases hentry : fs.entry d with _ | _ | file | text
  all_goals
    rw [hentry] at h
    cases h
  exact List.length_take_le n text

theorem iCount_of_lt {n : ℕ} (h : n < 2 ^ 31) : iCount n = n := by
  unfold iCount
  rw [Int.bmod_def, Int.emod_eq_of_lt (Int.natCast_nonneg n) (by omega)]
  omega

theorem ulCount_natCast {n : ℕ} (h : n < 2 ^ 63) : ulCount n = n := by
  unfold ulCount
  omega

/-- An `int` that is less than a length, as `unsigned long`, is not negative. -/
theorem toNat_of_ulCount_lt {i : ℤ} {n : ℕ} (hi : -2 ^ 31 ≤ i ∧ i < 2 ^ 31) (hn : n < 2 ^ 63)
    (h : ulCount i < n) : ulCount i = i.toNat ∧ 0 ≤ i := by
  unfold ulCount at h ⊢
  omega

theorem iCount_range (n : ℕ) : -2 ^ 31 ≤ iCount n ∧ iCount n < 2 ^ 31 := by
  unfold iCount
  rw [Int.bmod_def]
  omega

theorem iCount_zero_of_nil {bytes : List UInt8} (h : bytes = []) : (iCount bytes.length).toNat = 0 := by
  rw [h]
  rfl

/-- The first cell is written: by the text, or by the `'\0'`. -/
theorem load_first {bytes : List UInt8} {rest : Cells UInt8} {i : ℕ} (hi : bytes = [] → i = 0)
    (hlong : i < (bytes.map some ++ rest).length) :
    ∃ c, load ((bytes.map some ++ rest).set i (some 0)) 0 = .ok c := by
  rcases i with _ | i
  · refine ⟨0, ?_⟩
    unfold load
    rw [List.getElem?_set_self hlong]
  · rcases bytes with _ | ⟨b, bytes⟩
    · exact absurd (hi rfl) (Nat.succ_ne_zero i)
    · exact ⟨b, rfl⟩

/-- A text is moved up, and the directory put in front. -/
theorem moved_up {cells : Cells UInt8} {k n : ℕ} (hroom : k + n ≤ cells.length) (hk : k ≤ src.length) :
    (do
      let cells ← memmove cells k 0 n
      memcpy cells 0 (src.map some) k) =
    .ok ((src.take k).map some ++ (cells.take n ++ cells.drop (k + n))) := by
  have hcut : (cells.take k).length = k := List.length_take_of_le (by omega)
  have hshort : k ≤ (src.map some).length := by rwa [List.length_map]
  have hwrite : 0 + ((src.map some).take k).length ≤
      (cells.take k ++ (cells.drop 0).take n ++ cells.drop (k + n)).length := by
    rw [List.length_take_of_le hshort, List.append_assoc, List.length_append, hcut]
    omega
  rw [Memory.memmove_ok (by omega) hroom, Memory.ok_bind, Memory.memcpy_eq_writeAt hshort, writeAt,
    if_pos hwrite, List.length_take_of_le hshort, List.take_zero, List.nil_append, Nat.zero_add,
    List.append_assoc, List.drop_left' hcut, List.map_take]
  rfl

theorem length_moved_up {cells : Cells UInt8} {k n : ℕ} (hroom : k + n ≤ cells.length)
    (hk : k ≤ src.length) :
    ((src.take k).map some ++ (cells.take n ++ cells.drop (k + n))).length = cells.length := by
  rw [List.length_append, List.length_append, List.length_map, List.length_take_of_le hk,
    List.length_take, List.length_drop]
  omega

/-- What the buffer of a call holds, and what the call returns. -/
def Told (text : Except FileIOError (List UInt8)) (result : Except FileIOError Unit)
    (block : Cells UInt8) :
    Prop :=
  match text with
  | .ok pRealPathName => result = .ok () ∧ (pRealPathName ++ [0]).map some <+: block
  | .error e => result = .error e

theorem readLink_eq {n : ℕ} {bytes : List UInt8} (hread : readlink sys fs src n = .ok bytes)
    (hlong : ¬n ≤ bytes.length) :
    readLink sys fs src n =
      if bytes.head? = some 47 then .ok bytes
      else if src.rdropWhile (· ≠ 47) ≠ [] ∧ n ≤ bytes.length + (src.rdropWhile (· ≠ 47)).length then
        .error .bufferTooSmall
      else .ok (src.rdropWhile (· ≠ 47) ++ bytes) := by
  unfold readLink
  rw [hread]
  dsimp only
  rw [if_neg hlong]

/-- What is written of a text that fits: the text and the `'\0'`, whose first byte tells whether the
text is absolute. -/
theorem written_text {bytes : List UInt8} {rest : Cells UInt8} {c : UInt8} (hrest : rest ≠ [])
    (hc : load ((bytes.map some ++ rest).set bytes.length (some 0)) 0 = .ok c) :
    (∃ rest', (bytes.map some ++ rest).set bytes.length (some 0) = (bytes ++ [0]).map some ++ rest') ∧
      (bytes.head? = some 47 ↔ c = 47) := by
  obtain ⟨r, rest', rfl⟩ := List.exists_cons_of_ne_nil hrest
  have hset : (bytes.map some ++ r :: rest').set bytes.length (some 0) =
      (bytes ++ [0]).map some ++ rest' := by
    rw [List.set_append_right _ _ (by rw [List.length_map]), List.length_map, Nat.sub_self,
      List.set_cons_zero, List.map_append, List.append_assoc]
    rfl
  refine ⟨⟨rest', hset⟩, ?_⟩
  rw [hset] at hc
  rcases bytes with _ | ⟨b, bytes⟩
  · cases hc
    decide
  · cases hc
    exact ⟨fun h => Option.some.inj h, congrArg some⟩

/-- **`readLink` stays in its buffer**, for every text and every length, and tells in it what it read. -/
theorem readLinkInto_fits {block : Cells UInt8} (hsrc : src.length < 2 ^ 63)
    (hblock : block.length < 2 ^ 63) :
    ∃ result block', readLinkInto sys fs src block = .ok (result, block') ∧
      block'.length = block.length ∧
      (block.length < 2 ^ 31 → Told (readLink sys fs src block.length) result block') := by
  unfold readLinkInto
  dsimp only
  rcases hread : readlink sys fs src block.length with errno | bytes
  · refine ⟨_, block, rfl, rfl, fun _ => ?_⟩
    unfold readLink
    rw [hread]
    rfl
  · have hbytes := length_readlink_le hread
    have hwrite : writeAt block 0 (bytes.map some) =
        .ok (bytes.map some ++ block.drop bytes.length) := by
      rw [writeAt, if_pos (by rwa [List.length_map, Nat.zero_add]), List.length_map, Nat.zero_add]
      rfl
    have hlength : (bytes.map some ++ block.drop bytes.length).length = block.length := by
      rw [List.length_append, List.length_map, List.length_drop]
      omega
    have hcounts : block.length < 2 ^ 31 → iCount bytes.length = bytes.length :=
      fun h => iCount_of_lt (Nat.lt_of_le_of_lt hbytes h)
    dsimp only
    rw [hwrite, Memory.ok_bind]
    by_cases hminus : iCount bytes.length = -1
    · rw [if_pos hminus]
      refine ⟨_, _, rfl, hlength, fun h => ?_⟩
      have hcount := hcounts h
      omega
    rw [if_neg hminus]
    by_cases hsmall : block.length ≤ ulCount (iCount bytes.length)
    · rw [if_pos hsmall]
      refine ⟨_, _, rfl, hlength, fun h => ?_⟩
      rw [hcounts h, ulCount_natCast (Nat.lt_of_le_of_lt hbytes hblock)] at hsmall
      unfold readLink
      rw [hread]
      dsimp only
      rw [if_pos hsmall]
      rfl
    rw [if_neg hsmall]
    obtain ⟨hcount, -⟩ := toNat_of_ulCount_lt (iCount_range _) hblock (Nat.not_le.mp hsmall)
    generalize hi : (iCount bytes.length).toNat = i at hcount
    rw [hcount] at hsmall ⊢
    have hfits : i < (bytes.map some ++ block.drop bytes.length).length := by
      rw [hlength]
      exact Nat.not_le.mp hsmall
    obtain ⟨c, hc⟩ := load_first (fun hnil => by rw [← hi, iCount_zero_of_nil hnil]) hfits
    -- a text that was not cut is followed by a '\0'
    have htold : block.length < 2 ^ 31 → i = bytes.length ∧
        (∃ rest, (bytes.map some ++ block.drop bytes.length).set i (some 0) = (bytes ++ [0]).map some ++ rest) ∧
          (bytes.head? = some 47 ↔ c = 47) := by
      intro h
      have hwhole : i = bytes.length := by
        rw [← hi, hcounts h]
        exact Int.toNat_natCast _
      rw [hwhole] at hc hsmall ⊢
      refine ⟨rfl, written_text ?_ hc⟩
      exact List.ne_nil_of_length_pos (by rw [List.length_drop]; omega)
    rw [Memory.store_ok _ hfits, Memory.ok_bind, hc, Memory.ok_bind]
    have hcells : ((bytes.map some ++ block.drop bytes.length).set i (some 0)).length =
        block.length := by
      rw [List.length_set, hlength]
    generalize (bytes.map some ++ block.drop bytes.length).set i (some 0) = cells at htold hcells
    by_cases hslash : c ≠ 47
    · rw [if_pos hslash]
      rcases hdir : src.rdropWhile (· ≠ 47) with _ | ⟨b, pDirectory⟩
      · rw [hdir]
        refine ⟨_, _, rfl, hcells, fun h => ?_⟩
        obtain ⟨rfl, ⟨rest, rfl⟩, hhead⟩ := htold h
        rw [readLink_eq hread hsmall, if_neg (mt hhead.mp hslash), hdir, if_neg (fun h => h.1 rfl)]
        exact ⟨rfl, List.prefix_append _ _⟩
      · have hcut : b :: pDirectory = src.take (b :: pDirectory).length :=
          List.prefix_iff_eq_take.mp (hdir ▸ List.rdropWhile_prefix _ src)
        have hshort : (b :: pDirectory).length ≤ src.length := by
          rw [← hdir]
          exact (List.rdropWhile_prefix _ src).length_le
        rw [hdir]
        dsimp only
        have hsum : (i + (b :: pDirectory).length) % 2 ^ 64 = i + (b :: pDirectory).length :=
          Nat.mod_eq_of_lt (by omega)
        rw [hsum]
        by_cases hlarge : block.length ≤ i + (b :: pDirectory).length
        · rw [if_pos hlarge]
          refine ⟨_, _, rfl, hcells, fun h => ?_⟩
          obtain ⟨rfl, -, hhead⟩ := htold h
          rw [readLink_eq hread hsmall, if_neg (mt hhead.mp hslash), hdir,
            if_pos ⟨List.cons_ne_nil _ _, hlarge⟩]
          rfl
        · rw [if_neg hlarge]
          have hroom : (b :: pDirectory).length + (i + 1) ≤ cells.length := by
            rw [hcells]
            omega
          obtain ⟨cells', hmove, hcopy⟩ := Memory.bind_eq_ok.mp (moved_up hroom hshort)
          rw [hmove, Memory.ok_bind, hcopy, Memory.ok_bind]
          refine ⟨_, _, rfl, (length_moved_up hroom hshort).trans hcells, fun h => ?_⟩
          obtain ⟨rfl, ⟨rest, rfl⟩, hhead⟩ := htold h
          rw [readLink_eq hread hsmall, if_neg (mt hhead.mp hslash), hdir, if_neg (fun h => hlarge h.2)]
          refine ⟨rfl, ?_⟩
          rw [← hcut, List.take_left' (by rw [List.length_map, List.length_append]; rfl),
            ← List.append_assoc, ← List.map_append, ← List.append_assoc]
          exact List.prefix_append _ _
    · rw [if_neg hslash]
      refine ⟨_, _, rfl, hcells, fun h => ?_⟩
      obtain ⟨rfl, ⟨rest, rfl⟩, hhead⟩ := htold h
      rw [readLink_eq hread hsmall, if_pos (hhead.mpr (not_not.mp hslash))]
      exact ⟨rfl, List.prefix_append _ _⟩

/-! ### What the steps do -/

theorem symlinkAt_eq_ok (h : symlinkAt sys target dest fs = .ok () fs') :
    ∃ d, resolve sys fs .noFollow dest = .ok d ∧ fs.entry d = none ∧
      fs' = fs.insert d (.link target) := by
  have hlink := change_eq_ok.mp h
  rcases hrun : symlink sys fs target dest with e | fs₁
  · rw [hrun] at hlink
    cases hlink
  · rw [hrun] at hlink
    cases hlink
    exact symlink_eq_ok hrun

theorem remove_eq_ok (h : remove sys src fs = .ok () fs') :
    ∃ d, resolve sys fs .noFollow src = .ok d ∧ (fs.entry d).isSome ∧ fs' = fs.erase d := by
  have hunlink := change_eq_ok.mp h
  rcases hrun : unlink sys fs src with e | fs₁
  · rw [hrun] at hunlink
    cases hunlink
  · rw [hrun] at hunlink
    cases hunlink
    exact unlink_eq_ok hrun

/-- **A link that is made replaces what was there.** -/
theorem createLink_eq_ok {flag : Bool} (h : createLink sys target dest flag fs = .ok () fs') :
    ∃ d, resolve sys fs .noFollow dest = .ok d ∧ fs' = fs.insert d (.link target) := by
  unfold createLink at h
  rcases hlink : symlinkAt sys target dest fs with ⟨u, fs₁⟩ | ⟨e, fs₁⟩
  · rw [hlink] at h
    cases h
    obtain ⟨d, hd, -, rfl⟩ := symlinkAt_eq_ok hlink
    exact ⟨d, hd, rfl⟩
  · have hsame : fs₁ = fs := by
      unfold symlinkAt change at hlink
      split at hlink
      · cases hlink
      · cases hlink
        rfl
    subst hsame
    rw [hlink] at h
    dsimp only at h
    split at h
    · obtain ⟨u, fs₂, hremove, hagain⟩ := bind_eq_ok.mp h
      obtain ⟨d, hd, -, rfl⟩ := remove_eq_ok hremove
      obtain ⟨d', hd', -, rfl⟩ := symlinkAt_eq_ok hagain
      -- the path leads to the same place without the entry
      have hback := resolve_beside (beside_erase fs₁ d) hd'
      rw [hd] at hback
      cases hback
      exact ⟨d, hd, insert_erase fs₁ d _⟩
    · cases h

theorem readLink_eq_ok {n : ℕ} {pRealPathName : List UInt8}
    (hsrc : resolve sys fs .noFollow src = .ok sp)
    (hlink : fs.entry sp = some (.link target)) (h : readLink sys fs src n = .ok pRealPathName) :
    pRealPathName = linkText src target := by
  have hread : readlink sys fs src n = .ok (target.take n) := by
    unfold readlink
    rw [hsrc]
    dsimp only [bind, Except.bind]
    rw [hlink]
  unfold readLink at h
  rw [hread] at h
  dsimp only at h
  split at h
  · cases h
  · next hlong =>
    have hall : target.take n = target := by
      refine List.take_of_length_le ?_
      rw [List.length_take] at hlong
      omega
    rw [hall] at h
    unfold linkText
    split at h
    · next habs =>
      rw [if_pos habs]
      exact (Except.ok.inj h).symm
    · next hrel =>
      rw [if_neg hrel]
      split at h
      · cases h
      · exact (Except.ok.inj h).symm

/-- **What a move that ends well does.** -/
theorem moveLink_eq_ok (hsrc : resolve sys fs .noFollow src = .ok sp)
    (hlink : fs.entry sp = some (.link target)) (h : moveLink sys src dest fs = .ok () fs') :
    ∃ dp p, resolve sys fs .noFollow (linkDestination sys fs src dest) = .ok dp ∧
      resolve sys (fs.insert dp (.link (linkText src target))) .noFollow src = .ok p ∧
      fs' = (fs.insert dp (.link (linkText src target))).erase p := by
  have htype : getDirectoryEntryType sys fs src = .ok .linkFile := by
    unfold getDirectoryEntryType
    rw [lstat_eq hsrc hlink]
    rfl
  have hmade : ∀ (path : List UInt8) (flag : Bool), path = linkDestination sys fs src dest →
      (do
        let pRealPathName ← look fun fs => readLink sys fs src 512
        createLink sys pRealPathName path flag
        remove sys src) fs = .ok () fs' →
      ∃ dp p, resolve sys fs .noFollow (linkDestination sys fs src dest) = .ok dp ∧
        resolve sys (fs.insert dp (.link (linkText src target))) .noFollow src = .ok p ∧
        fs' = (fs.insert dp (.link (linkText src target))).erase p := by
    rintro path flag rfl hrun
    obtain ⟨text, fs₁, hread, hrun⟩ := bind_eq_ok.mp hrun
    obtain ⟨hreal, rfl⟩ := look_eq_ok.mp hread
    obtain ⟨u, fs₂, hcreate, hremove⟩ := bind_eq_ok.mp hrun
    rw [readLink_eq_ok hsrc hlink hreal] at hcreate
    obtain ⟨dp, hdp, rfl⟩ := createLink_eq_ok hcreate
    obtain ⟨p, hp, -, rfl⟩ := remove_eq_ok hremove
    exact ⟨dp, p, hdp, hp, rfl⟩
  obtain ⟨detDirectoryEntryType, fs₁, hlook, h⟩ := bind_eq_ok.mp h
  obtain ⟨hlook, hsame⟩ := look_eq_ok.mp hlook
  rw [htype] at hlook
  cases hlook
  rw [hsame, if_neg (not_not_intro rfl)] at h
  obtain ⟨found, fs₂, hlook, h⟩ := bind_eq_ok.mp h
  obtain ⟨hlook, hsame⟩ := look_eq_ok.mp hlook
  rw [hsame] at h
  cases hlook
  rcases hdest : getDirectoryEntryType sys fs dest with e | _ | _ | _
  all_goals rw [hdest] at h
  · exact hmade _ _ (if_neg (by rw [hdest]; nofun)).symm h
  · exact hmade _ _ (if_neg (by rw [hdest]; nofun)).symm h
  · exact hmade _ _ (if_pos hdest).symm h
  · exact hmade _ _ (if_neg (by rw [hdest]; nofun)).symm h

/-! ### When the link has been moved -/

theorem moved_iff_movable (hsrc : resolve sys fs .noFollow src = .ok sp)
    (hlink : fs.entry sp = some (.link target)) (h : moveLink sys src dest fs = .ok () fs') :
    ∃ dp, resolve sys fs .noFollow (linkDestination sys fs src dest) = .ok dp ∧
      (Moved sys fs fs' sp dp ↔ LinkMovable sys fs src target sp dp) := by
  obtain ⟨dp, p, hdp, hp, rfl⟩ := moveLink_eq_ok hsrc hlink h
  refine ⟨dp, hdp, ?_⟩
  generalize htext : linkText src target = text at hp
  have hnew : (fs.insert dp (.link text)).entry dp = some (.link text) := fs.entry_insert_self
  have hgone : ((fs.insert dp (.link text)).erase p).entry sp = none ↔ p = sp := by
    constructor
    · intro hnone
      by_contra hne
      rw [FileSystem.entry_erase_of_ne _ (Ne.symm hne)] at hnone
      by_cases hsame : sp = dp
      · rw [hsame, hnew] at hnone
        cases hnone
      · rw [FileSystem.entry_insert_of_ne _ hsame, hlink] at hnone
        cases hnone
    · rintro rfl
      exact FileSystem.entry_erase_self _
  have hfound : resolve sys (fs.insert dp (.link text)) .noFollow src = .ok sp ↔ p = sp := by
    rw [hp]
    exact ⟨fun h => Except.ok.inj h, fun h => congrArg Except.ok h⟩
  have hleads : ∀ file, linkedFile sys ((fs.insert dp (.link text)).erase sp) dp = some file ↔
      dp ≠ sp ∧ ∃ q m, jump sys ((fs.erase dp).erase sp) .follow sys.linkMax (start text dp.dropLast)
        (components text) = .ok (q, m) ∧ ((fs.erase dp).erase sp).fileAt q = some file := by
    intro file
    by_cases hne : dp = sp
    · subst hne
      rw [linkedFile_of_none (FileSystem.entry_erase_self _)]
      exact ⟨nofun, fun h => absurd rfl h.1⟩
    · have hlinked : ((fs.insert dp (.link text)).erase sp).entry dp = some (.link text) := by
        rw [FileSystem.entry_erase_of_ne _ hne, hnew]
      have hbeside : Beside ((fs.insert dp (.link text)).erase sp) ((fs.erase dp).erase sp) dp := by
        refine ⟨?_, fun q hq => ?_⟩
        · rw [FileSystem.entry_erase_of_ne _ hne, FileSystem.entry_erase_self]
        · by_cases hqs : q = sp
          · rw [hqs, FileSystem.entry_erase_self, FileSystem.entry_erase_self]
          · rw [FileSystem.entry_erase_of_ne _ hqs, FileSystem.entry_erase_of_ne _ hqs,
              FileSystem.entry_insert_of_ne _ hq, FileSystem.entry_erase_of_ne _ hq]
      rw [linkedFile_beside hbeside hlinked]
      exact ⟨fun h => ⟨hne, h⟩, fun h => h.2⟩
  constructor
  · intro hmoved
    have hsame := hgone.mp hmoved.gone
    subst hsame
    refine ⟨by rw [htext]; exact hp, fun file hfile => ?_⟩
    rw [htext]
    exact (hleads file).mp (hmoved.leads file hfile)
  · intro hmovable
    have hsame : p = sp := by
      refine hfound.mp ?_
      rw [← htext]
      exact hmovable.found
    subst hsame
    refine ⟨fun file hfile => (hleads file).mpr ?_, FileSystem.entry_erase_self _⟩
    rw [← htext]
    exact hmovable.leads file hfile

/-- **Moving a link**: when `moveLink` ends well, the link has been moved exactly when the source is found
beside the new link and its text leads to the file without either of them.  `readLink` never leaves its
buffer. -/
theorem moveLink_right_iff (sys : System) (fs : FileSystem) :
    (∀ src dest target sp fs', resolve sys fs .noFollow src = .ok sp →
      fs.entry sp = some (.link target) →
      moveLink sys src dest fs = .ok () fs' →
      ∃ dp, resolve sys fs .noFollow (linkDestination sys fs src dest) = .ok dp ∧
        (Moved sys fs fs' sp dp ↔ LinkMovable sys fs src target sp dp)) ∧
    ∀ (src : List UInt8) (block : Cells UInt8), src.length < 2 ^ 63 → block.length < 2 ^ 63 →
      ∃ result block', readLinkInto sys fs src block = .ok (result, block') ∧
        block'.length = block.length ∧
        (block.length < 2 ^ 31 → Told (readLink sys fs src block.length) result block') :=
  ⟨fun _ _ _ _ _ hsrc hlink h => moved_iff_movable hsrc hlink h,
    fun _ _ hsrc hblock => readLinkInto_fits hsrc hblock⟩

/-- The directories "/a" and "/b", the file "/a/f", and the links "/a/l" to "f" and "/a/m" to "/a/f". -/
def linkedDirectory : FileSystem where
  entries := [⟨[], .directory⟩, ⟨[[97]], .directory⟩, ⟨[[98]], .directory⟩, ⟨[[97], [102]], .regular 0⟩,
    ⟨[[97], [108]], .link [102]⟩, ⟨[[97], [109]], .link [47, 97, 47, 102]⟩].toAList
  content _ := []
  nextFile := 1

theorem ok_of_isNone {r : EStateM.Result FileIOError FileSystem Unit} (h : (error? r).isNone = true) :
    r = .ok () (after r) := by
  rcases r with ⟨u, fs⟩ | ⟨e, fs⟩
  · rfl
  · cases h

/-- "/a/m" is moved to "/b", and its path is read into sixteen bytes. -/
theorem moveLink_right_iff_absolute :
    (∃ dp, resolve linux linkedDirectory .noFollow
        (linkDestination linux linkedDirectory [47, 97, 47, 109] [47, 98]) = .ok dp ∧
      (Moved linux linkedDirectory (after (moveLink linux [47, 97, 47, 109] [47, 98] linkedDirectory))
          [[97], [109]] dp ↔
        LinkMovable linux linkedDirectory [47, 97, 47, 109] [47, 97, 47, 102] [[97], [109]] dp)) ∧
    ∃ result block', readLinkInto linux linkedDirectory [47, 97, 47, 109] (List.replicate 16 none) =
      .ok (result, block') ∧ block'.length = 16 ∧
        (16 < 2 ^ 31 → Told (readLink linux linkedDirectory [47, 97, 47, 109] 16) result block') :=
  ⟨(moveLink_right_iff linux linkedDirectory).1 _ _ _ _ _ (by decide +kernel) (by decide +kernel)
      (ok_of_isNone (by decide +kernel)),
    (moveLink_right_iff linux linkedDirectory).2 [47, 97, 47, 109] (List.replicate 16 none) (by decide)
      (by decide)⟩

/-- "a/l" is moved to "b", and the link there, of the text "a/f", leads to no file. -/
theorem not_moved_relative :
    resolve linux linkedDirectory .noFollow [97, 47, 108] = .ok [[97], [108]] ∧
      linkedDirectory.entry [[97], [108]] = some (.link [102]) ∧
      resolve linux linkedDirectory .noFollow
        (linkDestination linux linkedDirectory [97, 47, 108] [98]) =
        .ok [[98], [108]] ∧
      moveLink linux [97, 47, 108] [98] linkedDirectory =
        .ok () (after (moveLink linux [97, 47, 108] [98] linkedDirectory)) ∧
      ¬Moved linux linkedDirectory (after (moveLink linux [97, 47, 108] [98] linkedDirectory))
        [[97], [108]] [[98], [108]] := by
  refine ⟨by decide +kernel, by decide +kernel, by decide +kernel,
    ok_of_isNone (by decide +kernel), fun h => ?_⟩
  have hleads := h.leads (.inl 0) (by decide +kernel)
  have hnowhere : linkedFile linux (after (moveLink linux [97, 47, 108] [98] linkedDirectory))
      [[98], [108]] = none := by decide +kernel
  rw [hnowhere] at hleads
  cases hleads

end FileIO

end CatraLibraries
