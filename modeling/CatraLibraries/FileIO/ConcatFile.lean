/-
# Concatenating two files

`FileIO::concatFile` (`Tools/src/FileIO.cpp`).  The bytes of the source are read block by block and
written behind those of the destination; then the source may be removed.  How many bytes there are to
read is what one `lstat` tells, and only the number of the bytes read is checked: neither whether a
stream opened, nor what became of a `write`.  The buffer is deleted before the removal, and again by
the `catch` when that fails.

So the destination gets all bytes, when the method ends well, exactly when the `lstat` told the length
of the file, which for a link to it is chance, and the destination stream takes them all.
-/
import CatraLibraries.FileIO.CopySafety
import CatraLibraries.FileIO.RemoveDirectory

namespace CatraLibraries

open Posix Effects
open Paths (Name components Stays components_append)

namespace FileIO

/-- What becomes of the streams: whether they open, how many bytes the source delivers before a read
fails, and how many the destination takes before a write, or the flush that puts it through, fails.
`none` is for all.  Removing the source may fail too. -/
structure Streams where
  openSrc : Bool
  delivers : Option ℕ
  openDest : Bool
  takes : Option ℕ
  removeSrc : Option Errno
  deriving DecidableEq, Repr

/-- What the `runtime_error` is about. -/
inductive ConcatFileError
  | fileDoesNotExist (pathName : List UInt8)
  | readingSource (srcFileSize totalRead bytesToBeRead currentRead : ℕ)
  | failed (e : FileIOError)
  deriving DecidableEq, Repr

/-- The statements of `concatFile`, which throw. -/
abbrev ConcatMethod := EStateM ConcatFileError FileSystem

/-- What `buffer` points to when an exception is caught. -/
inductive BufferPointer
  | null
  | allocated
  | deleted
  deriving DecidableEq, Repr

/-- How `concatFile` ends otherwise than well: it throws, or a block is deleted twice. -/
inductive ConcatEnd
  | throws (e : ConcatFileError)
  | deletedTwice
  deriving DecidableEq, Repr

/-- Statements under the `catch`, which deletes the buffer if there is one, and throws again. -/
def caught {α : Type} (buffer : BufferPointer) (x : ConcatMethod α) :
    EStateM ConcatEnd FileSystem α := fun fs =>
  match x fs with
  | .ok a fs' => .ok a fs'
  | .error e fs' =>
    match buffer with
    | .null | .allocated => .error (.throws e) fs'
    | .deleted => .error .deletedTwice fs'

/-- A method whose error is thrown. -/
def thrown {α : Type} (x : Method α) : ConcatMethod α := fun fs =>
  match x fs with
  | .ok a fs' => .ok a fs'
  | .error e fs' => .error (.failed e) fs'

/-- The first bytes of a list. -/
def upTo (most : Option ℕ) (bytes : List UInt8) : List UInt8 :=
  match most with
  | none => bytes
  | some n => bytes.take n

/-- How many of a number of bytes the source delivers. -/
def Streams.reads (streams : Streams) (length : ℕ) : ℕ :=
  if streams.openSrc then streams.delivers.elim length (min · length) else 0

/-- How many of a number of bytes the destination takes. -/
def Streams.writes (streams : Streams) (length : ℕ) : ℕ :=
  if streams.openDest then streams.takes.elim length (min · length) else 0

variable (sys : System) (streams : Streams)

/-- `fileExisting`: an error is taken for `false`. -/
def fileExisting (fs : FileSystem) (pathName : List UInt8) : Bool :=
  match isFileExisting sys fs pathName with
  | .ok bExist => bExist
  | .error _ => false

/-- The constructor of the `ifstream`: the open file, and `none` in a bad stream. -/
def ifstream (fs : FileSystem) (srcPathName : List UInt8) : Option ℕ :=
  if streams.openSrc then (openRead sys fs srcPathName).toOption else none

/-- The constructor of the `ofstream`, with `app`. -/
def ofstream (destPathName : List UInt8) : ConcatMethod (Option ℕ) := fun fs =>
  if streams.openDest then
    match openWrite sys fs false destPathName with
    | .ok (file, fs') => .ok (some file) fs'
    | .error _ => .ok none fs
  else .ok none fs

/-- The bytes that the source stream has. -/
def delivered (fs : FileSystem) (isSrcStream : Option ℕ) : List UInt8 :=
  match isSrcStream with
  | none => []
  | some file => upTo streams.delivers (fs.content file)

/-- `write`, with `totalRead` bytes before; a stream that did not take all is bad. -/
def writeStream (osDestStream : Option ℕ) (totalRead : ℕ) (bytes : List UInt8) :
    ConcatMethod (Option ℕ) := fun fs =>
  match osDestStream with
  | none => .ok none fs
  | some file =>
    let taken := upTo (streams.takes.map (· - totalRead)) bytes
    .ok (if taken.length = bytes.length then some file else none)
      (fs.write file (fs.content file ++ taken))

/-- The loop. -/
def concatBytes (isSrcStream : Option ℕ) (srcFileSize ulSize : ℕ) :
    ℕ → ℕ → Option ℕ → ConcatMethod Unit
  | 0, _, _ => pure ()
  | rounds + 1, totalRead, osDestStream =>
    if totalRead < srcFileSize then do
      let bytesToBeRead :=
        if ulSize ≤ srcFileSize - totalRead then ulSize else srcFileSize - totalRead
      let buffer ← look fun fs => .ok
        (((delivered streams fs isSrcStream).drop totalRead).take bytesToBeRead)
      if buffer.length ≠ bytesToBeRead then
        throw (.readingSource srcFileSize totalRead bytesToBeRead buffer.length)
      else do
        let osDestStream ← writeStream streams osDestStream totalRead buffer
        concatBytes isSrcStream srcFileSize ulSize rounds (totalRead + buffer.length) osDestStream
    else pure ()

/-- What comes before the buffer is allocated. -/
def sizeToConcat (destPathName srcPathName : List UInt8) : ConcatMethod ℕ := do
  if ¬(← look fun fs => .ok (fileExisting sys fs destPathName)) then
    throw (.fileDoesNotExist destPathName)
  if ¬(← look fun fs => .ok (fileExisting sys fs srcPathName)) then
    throw (.fileDoesNotExist srcPathName)
  thrown (look fun fs => getFileSizeInBytes sys fs srcPathName)

/-- `concatFile`. -/
def concatFile (destPathName srcPathName : List UInt8) (removeSrcFileAfterConcat : Bool)
    (ulBufferSizeToBeUsed : ℕ) : EStateM ConcatEnd FileSystem Unit := do
  let srcFileSize ← caught .null (sizeToConcat sys destPathName srcPathName)
  let ulSize :=
    if ulBufferSizeToBeUsed = 0 then
      if 5 * 1000 * 1024 ≤ srcFileSize then 5 * 1000 * 1024
      else if srcFileSize = 0 then 8
      else srcFileSize
    else ulBufferSizeToBeUsed
  caught .allocated do
    let isSrcStream ← look fun fs => .ok (ifstream sys streams fs srcPathName)
    let osDestStream ← ofstream sys streams destPathName
    concatBytes streams isSrcStream srcFileSize ulSize srcFileSize 0 osDestStream
  if removeSrcFileAfterConcat then
    caught .deleted (thrown (removeOr sys streams.removeSrc srcPathName))
  else pure ()

/-! ### What the streams do -/

variable {sys streams} {fs : FileSystem} {src dest : List UInt8} {sp : Place} {f g : ℕ}

theorem upTo_prefix (most : Option ℕ) (bytes : List UInt8) : upTo most bytes <+: bytes := by
  cases most with
  | none => exact List.prefix_rfl
  | some n => exact List.take_prefix n bytes

theorem length_upTo (most : Option ℕ) (bytes : List UInt8) :
    (upTo most bytes).length = most.elim bytes.length (min · bytes.length) := by
  cases most with
  | none => rfl
  | some n => exact List.length_take

/-- What the destination takes of the bytes that it is given. -/
def written (streams : Streams) (bytes : List UInt8) : List UInt8 :=
  if streams.openDest then upTo streams.takes bytes else []

theorem prefix_written (streams : Streams) (bytes : List UInt8) : written streams bytes <+: bytes := by
  unfold written
  split
  · exact upTo_prefix _ bytes
  · exact List.nil_prefix

theorem length_written (streams : Streams) (bytes : List UInt8) :
    (written streams bytes).length = streams.writes bytes.length := by
  unfold written Streams.writes
  split
  · exact length_upTo _ bytes
  · rfl

/-- All bytes are written just when the stream takes so many. -/
theorem written_eq_iff (streams : Streams) (bytes : List UInt8) :
    written streams bytes = bytes ↔ streams.writes bytes.length = bytes.length := by
  rw [← length_written]
  exact ⟨fun h => congrArg List.length h, (prefix_written streams bytes).eq_of_length⟩

theorem prefix_delivered (hsrc : openRead sys fs src = .ok f) :
    delivered streams fs (ifstream sys streams fs src) <+: fs.content f := by
  unfold ifstream
  split
  · rw [hsrc]
    exact upTo_prefix _ _
  · exact List.nil_prefix

theorem length_delivered (streams : Streams) (hsrc : openRead sys fs src = .ok f) :
    (delivered streams fs (ifstream sys streams fs src)).length =
      streams.reads (fs.content f).length := by
  unfold ifstream Streams.reads
  split
  · rw [hsrc]
    exact length_upTo _ _
  · rfl

/-- The source stream has the same bytes when another file is written. -/
theorem delivered_write (hsrc : openRead sys fs src = .ok f) (hne : f ≠ g) (bytes : List UInt8) :
    delivered streams (fs.write g bytes) (ifstream sys streams fs src) =
      delivered streams fs (ifstream sys streams fs src) := by
  unfold ifstream
  split
  · rw [hsrc]
    show upTo _ _ = upTo _ _
    rw [FileSystem.content_write_of_ne fs hne]
  · rfl

/-- The destination stream after a number of bytes. -/
def destStream (streams : Streams) (g total : ℕ) : Option ℕ :=
  if streams.openDest ∧ ∀ k ∈ streams.takes, total ≤ k then some g else none

/-- **One write**: the file has what the stream took of all bytes so far. -/
theorem writeStream_eq (old bytes : List UInt8) {total n : ℕ} (h : total + n ≤ bytes.length) :
    writeStream streams (destStream streams g total) total ((bytes.drop total).take n)
        (fs.write g (old ++ written streams (bytes.take total))) =
      .ok (destStream streams g (total + n))
        (fs.write g (old ++ written streams (bytes.take (total + n)))) := by
  have hchunk : ((bytes.drop total).take n).length = n := by
    rw [List.length_take, List.length_drop]
    omega
  have htaken : (bytes.take total).length = total := List.length_take_of_le (by omega)
  have hall : bytes.take total ++ (bytes.drop total).take n = bytes.take (total + n) :=
    List.take_add.symm
  by_cases hopen : streams.openDest = true
  · rcases htakes : streams.takes with _ | k
    · -- the stream takes all
      have hgood : ∀ total, destStream streams g total = some g := by
        intro total
        refine if_pos ⟨hopen, ?_⟩
        rw [htakes]
        nofun
      have hwritten : ∀ bytes, written streams bytes = bytes := by
        intro bytes
        unfold written
        rw [if_pos hopen, htakes]
        rfl
      rw [hgood, hgood, hwritten, hwritten]
      unfold writeStream
      simp only [htakes, Option.map_none, upTo, if_true, FileSystem.content_write_self,
        FileSystem.write_write, List.append_assoc, hall]
    · have hwritten : ∀ bytes, written streams bytes = bytes.take k := by
        intro bytes
        unfold written
        rw [if_pos hopen, htakes]
        rfl
      have hstream : ∀ total, destStream streams g total = if total ≤ k then some g else none := by
        intro total
        unfold destStream
        simp only [htakes, hopen, Option.mem_some_iff, forall_eq', true_and]
      rw [hstream, hstream, hwritten, hwritten]
      by_cases hk : total ≤ k
      · have hput : (bytes.take total).take k ++ ((bytes.drop total).take n).take (k - total) =
            (bytes.take (total + n)).take k := by
          rw [← hall, List.take_append, htaken]
        have hlength : (((bytes.drop total).take n).take (k - total)).length =
            ((bytes.drop total).take n).length ↔ total + n ≤ k := by
          rw [List.length_take, hchunk]
          omega
        rw [if_pos hk]
        unfold writeStream
        simp only [htakes, Option.map_some, upTo, hlength, FileSystem.content_write_self,
          FileSystem.write_write, List.append_assoc, hput]
      · -- the stream is bad already
        have hsame : (bytes.take (total + n)).take k = (bytes.take total).take k := by
          rw [List.take_take, List.take_take, min_eq_left (by omega), min_eq_left (by omega)]
        rw [if_neg hk, if_neg (by omega), hsame]
        rfl
  · have hbad : ∀ total, destStream streams g total = none := fun total => if_neg fun h => hopen h.1
    have hnothing : ∀ bytes, written streams bytes = [] := fun bytes => if_neg hopen
    rw [hbad, hbad, hnothing, hnothing]
    rfl

/-- The `ofstream` of a file that is there. -/
theorem ofstream_eq (hdest : openRead sys fs dest = .ok g) :
    ofstream sys streams dest fs = .ok (destStream streams g 0) fs := by
  obtain ⟨q, hq, hentry⟩ := openRead_eq_ok.mp hdest
  have hwrite : openWrite sys fs false dest = .ok (g, fs) :=
    openWrite_eq_ok.mpr ⟨q, hq, Or.inl ⟨hentry, rfl⟩⟩
  unfold ofstream destStream
  rw [hwrite]
  by_cases hopen : streams.openDest = true
  · rw [if_pos hopen, if_pos ⟨hopen, fun k _ => Nat.zero_le k⟩]
  · rw [if_neg hopen, if_neg fun h => hopen h.1]

/-! ### The loop -/

/-- **The loop** writes as many bytes as the `lstat` told, or throws where the source has not so
many. -/
theorem concatBytes_spec (streams : Streams) {isSrcStream : Option ℕ} (srcFileSize : ℕ)
    {ulSize : ℕ} (hsize : 0 < ulSize)
    (old bytes : List UInt8)
    (hbytes : ∀ written, delivered streams (fs.write g written) isSrcStream = bytes)
    (rounds total : ℕ) (hrounds : srcFileSize ≤ total + rounds) (htotal : total ≤ srcFileSize)
    (hread : total ≤ bytes.length) :
    srcFileSize ≤ bytes.length ∧
        concatBytes streams isSrcStream srcFileSize ulSize rounds total
            (destStream streams g total) (fs.write g (old ++ written streams (bytes.take total))) =
          .ok () (fs.write g (old ++ written streams (bytes.take srcFileSize))) ∨
      bytes.length < srcFileSize ∧ ∃ e all,
        concatBytes streams isSrcStream srcFileSize ulSize rounds total
            (destStream streams g total) (fs.write g (old ++ written streams (bytes.take total))) =
          .error e (fs.write g all) := by
  induction rounds generalizing total with
  | zero =>
    have hend : total = srcFileSize := by omega
    subst hend
    exact Or.inl ⟨hread, rfl⟩
  | succ rounds ih =>
    by_cases hmore : total < srcFileSize
    · unfold concatBytes
      rw [if_pos hmore]
      generalize hblock :
        (if ulSize ≤ srcFileSize - total then ulSize else srcFileSize - total) = bytesToBeRead
      have hpositive : 0 < bytesToBeRead ∧ total + bytesToBeRead ≤ srcFileSize := by
        rw [← hblock]
        split <;> omega
      obtain ⟨hpos, hfits⟩ := hpositive
      have hlook : ∀ s : FileSystem, delivered streams s isSrcStream = bytes →
          (look fun fs => .ok (((delivered streams fs isSrcStream).drop total).take bytesToBeRead) :
            ConcatMethod (List UInt8)) s = .ok ((bytes.drop total).take bytesToBeRead) s := by
        intro s hs
        refine look_ok ?_
        rw [hs]
      have hlength : ((bytes.drop total).take bytesToBeRead).length =
          min bytesToBeRead (bytes.length - total) := by
        rw [List.length_take, List.length_drop]
      rw [bind_ok (hlook _ (hbytes _))]
      by_cases hshort : total + bytesToBeRead ≤ bytes.length
      · have hfull : ((bytes.drop total).take bytesToBeRead).length = bytesToBeRead := by
          rw [hlength]
          omega
        rw [if_neg (not_not_intro hfull), bind_ok (writeStream_eq old bytes hshort), hfull]
        exact ih (total + bytesToBeRead) (by omega) hfits hshort
      · have hless : ((bytes.drop total).take bytesToBeRead).length ≠ bytesToBeRead := by
          rw [hlength]
          omega
        rw [if_pos hless]
        exact Or.inr ⟨by omega, _, _, rfl⟩
    · have hend : total = srcFileSize := by omega
      subst hend
      refine Or.inl ⟨hread, ?_⟩
      unfold concatBytes
      rw [if_neg hmore]
      rfl

/-! ### What the source is kept for -/

/-- **What a concatenation promises**: it ends well or throws, when it ends well the destination has
its bytes and behind them those of the source, and the name of the source goes only then. -/
structure Concatenated (sys : System) (fs : FileSystem) (dest : List UInt8) (sp : Place) (f g : ℕ)
    (r : EStateM.Result ConcatEnd FileSystem Unit) : Prop where
  defined : error? r ≠ some .deletedTwice
  holds : error? r = none → contentAt sys (after r) dest = some (fs.content g ++ fs.content f)
  removed : (after r).entry sp = none →
    error? r = none ∧ contentAt sys (after r) dest = some (fs.content g ++ fs.content f)

theorem caught_ok {α : Type} {x : ConcatMethod α} {a : α} (h : x fs = .ok a fs')
    (buffer : BufferPointer) : caught buffer x fs = .ok a fs' := by
  unfold caught
  rw [h]

theorem caught_throws {α : Type} {x : ConcatMethod α} {e : ConcatFileError} (h : x fs = .error e fs') :
    caught .allocated x fs = .error (.throws e) fs' := by
  unfold caught
  rw [h]

/-- The end of `concatFile`. -/
theorem removal_spec (streams : Streams) (hsp : resolve sys fs .noFollow src = .ok sp)
    (hsrc : openRead sys fs src = .ok f) (all : List UInt8) (flag : Bool)
    (r : EStateM.Result ConcatEnd FileSystem Unit)
    (hr : (if flag then caught .deleted (thrown (removeOr sys streams.removeSrc src)) else pure () :
      EStateM ConcatEnd FileSystem Unit) (fs.write g all) = r) :
    if flag = true ∧ streams.removeSrc ≠ none then r = .error .deletedTwice (fs.write g all)
    else r = .ok () (if flag then (fs.write g all).erase sp else fs.write g all) := by
  subst hr
  cases flag with
  | false => rfl
  | true =>
    by_cases hfault : streams.removeSrc = none
    · rw [if_neg fun h => h.2 hfault]
      obtain ⟨q, hq, hentry⟩ := openRead_eq_ok.mp hsrc
      have hthere : ∃ e, fs.entry sp = some e ∧ e ≠ .directory := by
        by_cases hlink : ∃ target, fs.entry sp = some (.link target)
        · obtain ⟨target, htarget⟩ := hlink
          exact ⟨_, htarget, nofun⟩
        · have hfollow := resolve_follow_of_noFollow hsp fun target ht => hlink ⟨target, ht⟩
          rw [hq] at hfollow
          cases hfollow
          exact ⟨_, hentry, nofun⟩
      obtain ⟨e, he, hdirectory⟩ := hthere
      have hsp' : resolve sys (fs.write g all) .noFollow src = .ok sp :=
        resolve_sameWays (sameWays_write _ g all) hsp
      have hremove : removeOr sys none src (fs.write g all) = .ok () ((fs.write g all).erase sp) :=
        removeOr_none hsp' he hdirectory
      refine caught_ok ?_ .deleted
      unfold thrown
      rw [hfault, hremove]
      rfl
    · rw [if_pos ⟨rfl, hfault⟩]
      obtain ⟨e, he⟩ := removeOr_fault sys src hfault (fs.write g all)
      show caught .deleted (thrown (removeOr sys streams.removeSrc src)) (fs.write g all) = _
      unfold caught thrown
      rw [he]

/-- The name of the source may go: the destination keeps its bytes. -/
theorem contentAt_erase_source (hs : fs.Sound sys) (hsp : resolve sys fs .noFollow src = .ok sp)
    (hsrc : openRead sys fs src = .ok f) (hdest : openRead sys fs dest = .ok g) (hne : f ≠ g)
    (all : List UInt8) (flag : Bool) :
    contentAt sys (if flag then (fs.write g all).erase sp else fs.write g all) dest = some all := by
  obtain ⟨q, hq, hqentry⟩ := openRead_eq_ok.mp hsrc
  obtain ⟨d, hd, hdentry⟩ := openRead_eq_ok.mp hdest
  have hways : SameWays (fs.write g all) fs := sameWays_write _ g all
  cases flag with
  | false =>
    show contentAt sys (fs.write g all) dest = _
    rw [contentAt_eq (resolve_sameWays hways hd) hdentry, FileSystem.content_write_self]
  | true =>
    have hdq : d ≠ q := by
      rintro rfl
      rw [hdentry] at hqentry
      cases hqentry
      exact hne rfl
    have hdsp : d ≠ sp := by
      -- the name of the source stands for its file, or for a link to it
      rintro rfl
      have hfollow := resolve_follow_of_noFollow hsp fun target ht => by rw [hdentry] at ht; cases ht
      rw [hq] at hfollow
      cases hfollow
      exact hdq rfl
    have hnot : fs.entry q ≠ some .directory := by
      rw [hqentry]
      nofun
    have hpath : resolve sys ((fs.write g all).erase sp) .follow dest = .ok d :=
      resolve_sameWays (hways.erase sp) (resolve_erase_other hs hsp hq hnot hd hdq)
    have hentry : ((fs.write g all).erase sp).entry d = some (.regular g) := by
      rw [FileSystem.entry_erase_of_ne _ hdsp]
      exact hdentry
    show contentAt sys ((fs.write g all).erase sp) dest = _
    rw [contentAt_eq hpath hentry, FileSystem.content_erase, FileSystem.content_write_self]

/-- `concatFile` up to the loop. -/
theorem concatFile_eq (streams : Streams) (hdestExists : fileExisting sys fs dest = true)
    (hsrcExists : fileExisting sys fs src = true) {srcFileSize : ℕ}
    (hsize : getFileSizeInBytes sys fs src = .ok srcFileSize)
    (hdest : openRead sys fs dest = .ok g) (flag : Bool) (ulBufferSizeToBeUsed : ℕ) :
    ∃ ulSize, 0 < ulSize ∧
      concatFile sys streams dest src flag ulBufferSizeToBeUsed fs =
        (caught .allocated (concatBytes streams (ifstream sys streams fs src) srcFileSize ulSize
            srcFileSize 0 (destStream streams g 0)) >>= fun _ =>
          if flag then caught .deleted (thrown (removeOr sys streams.removeSrc src)) else pure ()) fs := by
  have hthrown : thrown (look fun fs => getFileSizeInBytes sys fs src) fs = .ok srcFileSize fs := by
    unfold thrown
    have hlook : look (fun fs => getFileSizeInBytes sys fs src) fs = .ok srcFileSize fs :=
      look_ok hsize
    rw [hlook]
  have hlook : ∀ {α : Type} (x : System → FileSystem → List UInt8 → α) (path : List UInt8) (a : α),
      x sys fs path = a →
      (look fun fs => .ok (x sys fs path) : ConcatMethod α) fs = .ok a fs := by
    rintro α x path a rfl
    exact look_ok (g := fun fs => Except.ok (x sys fs path)) rfl
  refine ⟨if ulBufferSizeToBeUsed = 0 then
      if 5 * 1000 * 1024 ≤ srcFileSize then 5 * 1000 * 1024
      else if srcFileSize = 0 then 8
      else srcFileSize
    else ulBufferSizeToBeUsed, ?_, ?_⟩
  · split
    · split
      · omega
      · split <;> omega
    · omega
  · have hbefore : sizeToConcat sys dest src fs = .ok srcFileSize fs := by
      unfold sizeToConcat
      refine (bind_ok (hlook fileExisting dest true hdestExists)).trans ?_
      refine (bind_ok (hlook fileExisting src true hsrcExists)).trans ?_
      exact hthrown
    unfold concatFile
    refine (bind_ok (caught_ok hbefore .null)).trans ?_
    have hstreams : ∀ ulSize, (do
        let isSrcStream ← look fun fs => .ok (ifstream sys streams fs src)
        let osDestStream ← ofstream sys streams dest
        concatBytes streams isSrcStream srcFileSize ulSize srcFileSize 0 osDestStream :
          ConcatMethod Unit) fs =
        concatBytes streams (ifstream sys streams fs src) srcFileSize ulSize srcFileSize 0
          (destStream streams g 0) fs := by
      intro ulSize
      refine (bind_ok (hlook (fun sys => ifstream sys streams) src _ rfl)).trans ?_
      exact bind_ok (ofstream_eq hdest)
    have hcaught : ∀ ulSize, caught .allocated (do
        let isSrcStream ← look fun fs => .ok (ifstream sys streams fs src)
        let osDestStream ← ofstream sys streams dest
        concatBytes streams isSrcStream srcFileSize ulSize srcFileSize 0 osDestStream) fs =
        caught .allocated (concatBytes streams (ifstream sys streams fs src) srcFileSize ulSize
          srcFileSize 0 (destStream streams g 0)) fs := by
      intro ulSize
      unfold caught
      rw [hstreams]
    show EStateM.bind _ _ fs = EStateM.bind _ _ fs
    unfold EStateM.bind
    rw [hcaught]

/-- **The destination gets all bytes of the source just when the `lstat` told their number and the
stream takes them**, and the removal does not fail; or the method throws, as the source does not have
so many bytes, and the source stays. -/
theorem concatFile_right_iff (hs : fs.Sound sys) (hdestExists : fileExisting sys fs dest = true)
    (hsrcExists : fileExisting sys fs src = true) {srcFileSize : ℕ}
    (hsize : getFileSizeInBytes sys fs src = .ok srcFileSize)
    (hsp : resolve sys fs .noFollow src = .ok sp) (hsrc : openRead sys fs src = .ok f)
    (hdest : openRead sys fs dest = .ok g) (hne : f ≠ g) (streams : Streams) (flag : Bool)
    (ulBufferSizeToBeUsed : ℕ) :
    Concatenated sys fs dest sp f g
        (concatFile sys streams dest src flag ulBufferSizeToBeUsed fs) ↔
      streams.reads (fs.content f).length < srcFileSize ∨
        ¬(flag = true ∧ streams.removeSrc ≠ none) ∧
          srcFileSize = (fs.content f).length ∧
          streams.writes (fs.content f).length = (fs.content f).length := by
  obtain ⟨ulSize, hpos, hrun⟩ := concatFile_eq streams hdestExists hsrcExists hsize
    hdest flag ulBufferSizeToBeUsed
  have hstays : ∀ all, (fs.write g all).entry sp ≠ none := by
    -- the source is there
    intro all hnone
    obtain ⟨q, hq, hentry⟩ := openRead_eq_ok.mp hsrc
    have habsent : fs.entry sp = none := hnone
    have hfollow := resolve_follow_of_noFollow hsp fun target ht => by rw [habsent] at ht; cases ht
    rw [hq] at hfollow
    cases hfollow
    rw [habsent] at hentry
    cases hentry
  have hthrows : ∀ e all, Concatenated sys fs dest sp f g (.error (.throws e) (fs.write g all)) :=
    fun e all => ⟨nofun, nofun, fun hnone => absurd hnone (hstays all)⟩
  have hreads := length_delivered streams hsrc
  generalize hall : delivered streams fs (ifstream sys streams fs src) = bytes at hreads
  have hprefix : bytes <+: fs.content f := hall ▸ prefix_delivered hsrc
  have hstart : fs.write g (fs.content g ++ written streams (bytes.take 0)) = fs := by
    have hnil : written streams [] = [] := List.prefix_nil.mp (prefix_written streams [])
    rw [List.take_zero, hnil, List.append_nil, FileSystem.write_content]
  rw [hrun, ← hreads]
  rcases concatBytes_spec streams srcFileSize hpos (fs.content g) bytes
    (fun all => (delivered_write hsrc hne all).trans hall) srcFileSize 0 (by omega) (Nat.zero_le _)
    (Nat.zero_le _) with ⟨hlong, hloop⟩ | ⟨hshort, e, all, hloop⟩
  · rw [hstart] at hloop
    rw [bind_ok (caught_ok hloop .allocated)]
    generalize hw : written streams (bytes.take srcFileSize) = w
    have hend := removal_spec streams (g := g) hsp hsrc (fs.content g ++ w) flag _ rfl
    by_cases hfault : flag = true ∧ streams.removeSrc ≠ none
    · rw [if_pos hfault] at hend
      rw [hend]
      exact iff_of_false (fun h => h.defined rfl) (not_or.mpr ⟨by omega, fun h => h.1 hfault⟩)
    · rw [if_neg hfault] at hend
      rw [hend]
      have hcontent := contentAt_erase_source hs hsp hsrc hdest hne (fs.content g ++ w) flag
      have hsame : bytes.take srcFileSize <+: fs.content f := (List.take_prefix _ _).trans hprefix
      have hwritten : w = fs.content f ↔ srcFileSize = (fs.content f).length ∧
          streams.writes (fs.content f).length = (fs.content f).length := by
        constructor
        · intro hfull
          have hpart : w <+: bytes.take srcFileSize := hw ▸ prefix_written streams _
          have heq : bytes.take srcFileSize = fs.content f :=
            hsame.eq_of_length_le (hfull ▸ hpart.length_le)
          rw [heq, hfull] at hw
          have hlength := congrArg List.length heq
          rw [List.length_take_of_le hlong] at hlength
          exact ⟨hlength, (written_eq_iff streams _).mp hw⟩
        · rintro ⟨hlength, htakes⟩
          have heq : bytes.take srcFileSize = fs.content f := by
            refine hsame.eq_of_length ?_
            rw [List.length_take_of_le hlong, hlength]
          rw [← hw, heq]
          exact (written_eq_iff streams _).mpr htakes
      rw [← hwritten]
      constructor
      · intro h
        have hsame' : some (fs.content g ++ w) = some (fs.content g ++ fs.content f) :=
          hcontent.symm.trans (h.holds rfl)
        exact Or.inr ⟨hfault, List.append_cancel_left (Option.some.inj hsame')⟩
      · rintro (hless | ⟨-, hfull⟩)
        · omega
        · have hdone : contentAt sys
              (if flag = true then (fs.write g (fs.content g ++ w)).erase sp
                else fs.write g (fs.content g ++ w)) dest =
              some (fs.content g ++ fs.content f) := by rw [hcontent, hfull]
          exact ⟨nofun, fun _ => hdone, fun _ => ⟨rfl, hdone⟩⟩
  · rw [hstart] at hloop
    rw [bind_error (caught_throws hloop)]
    exact iff_of_true (hthrows e all) (Or.inl hshort)

/-- The files "/d" and "/s", and the link "/l" to "s". -/
def linkedSource : FileSystem where
  entries := [⟨[], .directory⟩, ⟨[[100]], .regular 0⟩, ⟨[[115]], .regular 1⟩,
    ⟨[[108]], .link [115]⟩].toAList
  content file := if file = 0 then [1] else if file = 1 then [7, 8] else []
  nextFile := 2

theorem linkedSource_sound : linkedSource.Sound linux :=
  FileSystem.sound_of_keys (FileSystem.tree_of_keys (by decide +kernel)) (by decide +kernel)
    (by decide +kernel)

/-- Nothing fails. -/
def Streams.sound : Streams := ⟨true, none, true, none, none⟩

/-- "/s" is put behind "/d". -/
theorem concatFile_right_iff_file :
    Concatenated linux linkedSource [47, 100] [[115]] 1 0
        (concatFile linux .sound [47, 100] [47, 115] true 1 linkedSource) ↔
      Streams.sound.reads (linkedSource.content 1).length < 2 ∨
        ¬(true = true ∧ Streams.sound.removeSrc ≠ none) ∧
          2 = (linkedSource.content 1).length ∧
          Streams.sound.writes (linkedSource.content 1).length = (linkedSource.content 1).length :=
  concatFile_right_iff linkedSource_sound (by decide +kernel) (by decide +kernel) (by decide +kernel)
    (by decide +kernel) (by decide +kernel) (by decide +kernel) (by decide) .sound true 1

/-- Of "/l" only one byte is put behind "/d", as its text is so long, and the link is removed. -/
theorem not_concatenated_link :
    linkedSource.Sound linux ∧ fileExisting linux linkedSource [47, 100] = true ∧
      fileExisting linux linkedSource [47, 108] = true ∧
      resolve linux linkedSource .noFollow [47, 108] = .ok [[108]] ∧
      openRead linux linkedSource [47, 108] = .ok 1 ∧
      openRead linux linkedSource [47, 100] = .ok 0 ∧
      ¬Concatenated linux linkedSource [47, 100] [[108]] 1 0
        (concatFile linux .sound [47, 100] [47, 108] true 0 linkedSource) := by
  refine ⟨linkedSource_sound, by decide +kernel, by decide +kernel, by decide +kernel,
    by decide +kernel, by decide +kernel, fun h => ?_⟩
  have hends : (error? (concatFile linux .sound [47, 100] [47, 108] true 0 linkedSource)).isNone =
      true := by decide +kernel
  have hcontent : contentAt linux
      (after (concatFile linux .sound [47, 100] [47, 108] true 0 linkedSource)) [47, 100] =
      some [1, 7] := by decide +kernel
  have hholds := h.holds (Option.isNone_iff_eq_none.mp hends)
  rw [hcontent] at hholds
  exact absurd hholds (by decide)

end FileIO

end CatraLibraries
