/-
# A refill that fails

The reads of `FileReader` where the disk may fail.  `refreshCacheIfNecessary` records the offset as
that of the cache before it reads the bytes there.  When `FileIO::readBytes` then fails, the call
does too, but the cache has a window with bytes that are not those of the file, and later reads
inside the window are answered from it.

A run in which no read is answered from such a window, before another refill has gone well, reads
the bytes of the file.
-/
import CatraLibraries.Tools.FileReaderReads
import CatraLibraries.Tools.FileReaderRun

namespace CatraLibraries

open Memory

/-- What happens when a call seeks and reads in the file: it goes well, the seek fails, or the read
does, after it may have written some of its bytes. -/
inductive Disk
  | reads
  | seekFails
  | readFails (written : List UInt8)
  deriving DecidableEq

/-- `FileIO::readBytes` where the read fails: of the bytes that there are, some may have been written
before, whatever they are. -/
def FileDescriptor.failToRead (fd : FileDescriptor) (pucValue : Cells UInt8)
    (ullBytesNumber : Nat) (written : List UInt8) : Except Fault (Cells UInt8) :=
  writeAt pucValue 0 ((written.take (fd.available ullBytesNumber).length).map some)

namespace FileReader

variable {r r' : FileReader} {spoiled : Bool}

/-! ### The code, with a disk that may fail -/

/-- `refreshCacheIfNecessary`. -/
def refreshOn (disk : Disk) (ullBytesToRead : Nat) (r : FileReader) :
    Except Fault (Outcome Unit) :=
  if NeedsRefresh ullBytesToRead r then
    if ullBytesToRead > r.ulCacheSize then .ok (.error .fileReaderCacheSizeTooLow, r)
    else
      match disk with
      | .reads => r.refreshCacheIfNecessary ullBytesToRead
      | .seekFails => .ok (.error .fileIOSeekFailed, r)
      | .readFails written => do
        let pucCache ← (r.iFileDescriptor.seek r.ullCurrentFileOffset).failToRead
          r.pucCache r.bytesToReadForCache written
        return (.error .fileIOReadBytesFailed, { r with
          iFileDescriptor := r.iFileDescriptor.seek r.ullCurrentFileOffset
          pucCache := pucCache
          ullCacheFileOffset := r.ullCurrentFileOffset })
  else .ok (.ok (), r)

/-- `readMoreThanCache`; what a failing read has written is in the buffer of the caller. -/
def readMoreThanCacheOn (disk : Disk) (pucBuffer : Cells UInt8) (ullBytesToRead : Nat)
    (r : FileReader) : Except Fault (Outcome (Cells UInt8)) :=
  match disk with
  | .reads => r.readMoreThanCache pucBuffer ullBytesToRead
  | .seekFails => .ok (.error .fileIOSeekFailed, r)
  | .readFails _ => .ok (.error .fileIOReadBytesFailed, { r with
      iFileDescriptor := r.iFileDescriptor.seek r.ullCurrentFileOffset })

/-- `readChars` and `readBytes`. -/
def readBlockOn (disk : Disk) (pBuffer : Cells UInt8) (n : Nat)
    (bErrorIfAllBytesNotAvailable : Bool) (r : FileReader) :
    Except Fault (Outcome (Nat × Cells UInt8)) :=
  if r.frFileReaderStatus ≠ .initialized then .ok (.error .operationNotAllowed, r)
  else
    match r.bytesRead n bErrorIfAllBytesNotAvailable with
    | .error err => .ok (.error err, r)
    | .ok count =>
      if count > r.ulCacheSize then do
        match ← r.readMoreThanCacheOn disk pBuffer count with
        | (.error _, r) => return (.error .fileReaderReadMoreThanCacheFailed, r)
        | (.ok pBuffer, r) => return (.ok (count, pBuffer), r.advance count)
      else do
        match ← r.refreshOn disk count with
        | (.error err, r) => return (.error err, r)
        | (.ok (), r) =>
          let pBuffer ← r.copyFromCache pBuffer count
          return (.ok (count, pBuffer), r.advance count)

/-- The `readNetUnsignedInt*`. -/
def readNetUnsignedIntOn (disk : Disk) (shifts : List Nat) (r : FileReader) :
    Except Fault (Outcome Nat) :=
  if r.frFileReaderStatus ≠ .initialized then .ok (.error .operationNotAllowed, r)
  else if ull (r.ullCurrentFileOffset + shifts.length) > r.ullFileSize then
    .ok (.error .activationWrong, r)
  else do
    match ← r.refreshOn disk shifts.length with
    | (.error err, r) => return (.error err, r)
    | (.ok (), r) =>
      let pucValue ← r.copyFromCache (List.replicate shifts.length none) shifts.length
      let value ← orShifted shifts pucValue
      return (.ok (value.signExtend 64).toNat, r.advance shifts.length)

/-- Perform one call. -/
def execOn (disk : Disk) : Call → FileReader → Except Fault (Outcome Answer)
  | .seek llBytes iWhence, r => answering .position (r.seek llBytes iWhence)
  | .readChars pBuffer n all, r =>
    answering (fun a => .block a.1 a.2) (r.readBlockOn disk pBuffer n all)
  | .readBytes pucValue n all, r =>
    answering (fun a => .block a.1 a.2) (r.readBlockOn disk pucValue n all)
  | .readNetUnsignedInt8Bit, r => answering .value (r.readNetUnsignedIntOn disk [0])
  | .readNetUnsignedInt16Bit, r => answering .value (r.readNetUnsignedIntOn disk [8, 0])
  | .readNetUnsignedInt24Bit, r => answering .value (r.readNetUnsignedIntOn disk [16, 8, 0])
  | .readNetUnsignedInt32Bit, r => answering .value (r.readNetUnsignedIntOn disk [24, 16, 8, 0])
  | .readNetUnsignedInt64Bit, r =>
    answering .value (r.readNetUnsignedIntOn disk [56, 48, 40, 32, 24, 16, 8, 0])

/-- What a call of a run has answered, and the offset before and after it. -/
structure Entry where
  before : Nat
  answer : Except ToolsError Answer
  after : Nat
  deriving DecidableEq

/-- Perform the calls one after the other, each with its disk. -/
def runOn : List (Call × Disk) → FileReader → Except Fault (List Entry × FileReader)
  | [], r => .ok ([], r)
  | (c, disk) :: steps, r => do
    let (a, r') ← r.execOn disk c
    let (entries, r'') ← runOn steps r'
    return (⟨r.ullCurrentFileOffset, a, r'.ullCurrentFileOffset⟩ :: entries, r'')

/-! ### A disk that goes well -/

theorem refreshOn_reads (n : Nat) (r : FileReader) :
    r.refreshOn .reads n = r.refreshCacheIfNecessary n := by
  rw [refreshOn, refreshCacheIfNecessary]
  split_ifs <;> rfl

/-! ### The window of a failed refill -/

/-- How many bytes the call asks of the cache, where it reads through it. -/
def cacheRead (r : FileReader) : Call → Option Nat
  | .seek _ _ => none
  | .readChars _ n all | .readBytes _ n all =>
    match r.bytesRead n all with
    | .ok count => if count > r.ulCacheSize then none else some count
    | .error _ => none
  | .readNetUnsignedInt8Bit => valueRead 1
  | .readNetUnsignedInt16Bit => valueRead 2
  | .readNetUnsignedInt24Bit => valueRead 3
  | .readNetUnsignedInt32Bit => valueRead 4
  | .readNetUnsignedInt64Bit => valueRead 8
where
  valueRead (n : Nat) : Option Nat :=
    if ull (r.ullCurrentFileOffset + n) > r.ullFileSize then none else some n

/-- Whether the window is that of a failed refill after a read of `n` bytes through the cache. -/
def spoiledBy (disk : Disk) (n : Nat) (r : FileReader) (spoiled : Bool) : Bool :=
  if NeedsRefresh n r then
    match disk with
    | .reads => false
    | .seekFails => spoiled
    | .readFails _ => true
  else spoiled

/-- And after a call. -/
def spoiledAfter (disk : Disk) (c : Call) (r : FileReader) (spoiled : Bool) : Bool :=
  match r.cacheRead c with
  | none => spoiled
  | some n => spoiledBy disk n r spoiled

/-- The reader would be in order with other bytes in its cache. -/
structure Spoiled (r : FileReader) : Prop where
  capacity : r.pucCache.length = r.ulCacheSize % 2 ^ 32
  windowed : ∃ cache, Windowed { r with pucCache := cache }

/-- **The invariant** of runs with a disk that may fail: the reader is in order, up to the bytes in
its cache where the last refill has failed. -/
structure Sound (spoiled : Bool) (r : FileReader) : Prop where
  upToCache : Spoiled r
  windowed : spoiled = false → Windowed r

theorem Windowed.sound (h : Windowed r) : Sound spoiled r :=
  ⟨⟨h.capacity, r.pucCache, h⟩, fun _ => h⟩

theorem Spoiled.sound (h : Spoiled r) : Sound true r := ⟨h, nofun⟩

/-- What does not depend on the cache. -/
theorem Spoiled.status (h : Spoiled r) : r.frFileReaderStatus = .initialized :=
  let ⟨_, h⟩ := h.windowed
  h.status

theorem Spoiled.fileSize (h : Spoiled r) : r.ullFileSize = r.contents.length :=
  let ⟨_, h⟩ := h.windowed
  h.fileSize

theorem Spoiled.offset_le (h : Spoiled r) : r.ullCurrentFileOffset ≤ r.contents.length :=
  let ⟨_, h⟩ := h.windowed
  h.offset_le

theorem Spoiled.bytesRead (h : Spoiled r) {n : Nat}
    (hwrap : ull (r.ullCurrentFileOffset + n) ≤ r.contents.length →
      r.ullCurrentFileOffset + n ≤ r.contents.length) (all : Bool) :
    r.bytesRead n all = specCount r.contents.length r.ullCurrentFileOffset n all :=
  let ⟨_, h⟩ := h.windowed
  h.bytesRead hwrap all

theorem Spoiled.available_refill (h : Spoiled r) :
    (r.iFileDescriptor.seek r.ullCurrentFileOffset).available r.bytesToReadForCache
      = slice r.contents r.ullCurrentFileOffset r.ulCacheSize :=
  let ⟨_, h⟩ := h.windowed
  h.available_refill

theorem Spoiled.move (h : Spoiled r) {offset : Nat} (hle : offset ≤ r.contents.length) :
    Spoiled { r with ullCurrentFileOffset := offset } :=
  let ⟨cache, hcache⟩ := h.windowed
  ⟨h.capacity, cache, hcache.move hle⟩

/-- The position of the descriptor does not matter. -/
theorem Windowed.position (h : Windowed r) (position : Nat) :
    Windowed { r with iFileDescriptor := { r.iFileDescriptor with position := position } } :=
  ⟨h.status, h.fileSize, h.offset_le, h.cacheSize_le, h.cacheSize_large, h.capacity, h.window⟩

theorem Sound.position (h : Sound spoiled r) (position : Nat) :
    Sound spoiled
      { r with iFileDescriptor := { r.iFileDescriptor with position := position } } :=
  let ⟨cache, hcache⟩ := h.upToCache.windowed
  ⟨⟨h.upToCache.capacity, cache, hcache.position position⟩, fun hs =>
    (h.windowed hs).position position⟩

theorem Sound.move (h : Sound spoiled r) {offset : Nat} (hle : offset ≤ r.contents.length) :
    Sound spoiled { r with ullCurrentFileOffset := offset } :=
  ⟨h.upToCache.move hle, fun hs => (h.windowed hs).move hle⟩

theorem Sound.advance (h : Sound spoiled r) {n : Nat}
    (hfits : r.ullCurrentFileOffset + n ≤ r.contents.length) :
    Sound spoiled (r.advance n) ∧
      (r.advance n).ullCurrentFileOffset = r.ullCurrentFileOffset + n := by
  have hlt := r.length_contents_lt
  have heq : ull (r.ullCurrentFileOffset + n) = r.ullCurrentFileOffset + n := by
    rw [ull_of_lt (by omega) (by omega)]
    omega
  exact ⟨h.move (heq.trans_le hfits), heq⟩

/-! ### A refill -/

/-- **A refill** that goes well puts the cache in order, whatever it had. -/
theorem Spoiled.refilled (h : Spoiled r) (hroom : min r.ulCacheSize
    (r.ullFileSize - r.ullCurrentFileOffset) ≤ r.ulCacheSize % 2 ^ 32) : Windowed r.refilled := by
  obtain ⟨cache, h'⟩ := h.windowed
  refine ⟨h'.status, h'.fileSize, h'.offset_le, h'.cacheSize_le, h'.cacheSize_large, ?_,
    Or.inr ⟨h'.offset_le, _, rfl⟩⟩
  rw [h.fileSize] at hroom
  simp only [FileReader.refilled, List.length_append, List.length_map, List.length_drop,
    slice, List.length_take, h.capacity]
  omega

theorem Spoiled.refresh_reads (h : Spoiled r) {n : Nat} (hneeds : NeedsRefresh n r)
    (hn : n ≤ r.ulCacheSize) (hroom : RefillFits n r) :
    r.refreshCacheIfNecessary n = .ok (.ok (), r.refilled) := by
  have hspace := hroom hn hneeds
  have hread : (r.iFileDescriptor.seek r.ullCurrentFileOffset).readBytes r.pucCache
      r.bytesToReadForCache = .ok (r.refilled.pucCache, r.refilled.iFileDescriptor) := by
    rw [readBytes_ok] <;> rw [h.available_refill]
    · rfl
    · rw [h.fileSize] at hspace
      rw [h.capacity, slice, List.length_take, List.length_drop]
      exact hspace
  rw [refreshCacheIfNecessary, if_pos hneeds, if_neg (Nat.not_lt.mpr hn), hread]
  rfl

/-- A refill whose read fails leaves a window with other bytes. -/
theorem Spoiled.refresh_readFails (h : Spoiled r) {n : Nat} (hneeds : NeedsRefresh n r)
    (hn : n ≤ r.ulCacheSize) (hroom : RefillFits n r) (written : List UInt8) :
    ∃ r', r.refreshOn (.readFails written) n = .ok (.error .fileIOReadBytesFailed, r') ∧
      Spoiled r' ∧ r'.contents = r.contents ∧
      r'.ullCurrentFileOffset = r.ullCurrentFileOffset := by
  have hspace := hroom hn hneeds
  have hwindowed := h.refilled hspace
  have hcells : (written.take ((r.iFileDescriptor.seek r.ullCurrentFileOffset).available
      r.bytesToReadForCache).length).length ≤ r.pucCache.length := by
    rw [h.fileSize] at hspace
    rw [h.available_refill, List.length_take, slice, List.length_take, List.length_drop,
      h.capacity]
    omega
  obtain ⟨m, hwrite, hm⟩ : ∃ m, (r.iFileDescriptor.seek r.ullCurrentFileOffset).failToRead
      r.pucCache r.bytesToReadForCache written = .ok m ∧ m.length = r.pucCache.length := by
    refine ⟨_, by rw [FileDescriptor.failToRead, writeAt,
      if_pos (by rwa [List.length_map, Nat.zero_add])], ?_⟩
    rw [List.take_zero, List.nil_append, Nat.zero_add, List.length_append, List.length_drop,
      List.length_map]
    omega
  refine ⟨{ r with
    iFileDescriptor := r.iFileDescriptor.seek r.ullCurrentFileOffset
    pucCache := m
    ullCacheFileOffset := r.ullCurrentFileOffset }, ?_, ⟨hm.trans h.capacity, r.refilled.pucCache,
      hwindowed.status, hwindowed.fileSize, hwindowed.offset_le, hwindowed.cacheSize_le,
      hwindowed.cacheSize_large, hwindowed.capacity, hwindowed.window⟩, rfl, rfl⟩
  unfold refreshOn
  rw [if_pos hneeds, if_neg (Nat.not_lt.mpr hn)]
  simp only [hwrite, ok_bind]
  rfl

/-- **Refreshing the cache**, with any disk: the call fails, or leaves a window that covers the read
and is in order. -/
theorem Sound.refreshOn (h : Sound spoiled r) {n : Nat} (hn : n ≤ r.ulCacheSize)
    (hfits : r.ullCurrentFileOffset + n ≤ r.contents.length) (hroom : RefillFits n r)
    (hserved : spoiled = true → NeedsRefresh n r) (disk : Disk) :
    ∃ a r', r.refreshOn disk n = .ok (a, r') ∧ r'.contents = r.contents ∧
      r'.ullCurrentFileOffset = r.ullCurrentFileOffset ∧
      Sound (r.spoiledBy disk n spoiled) r' ∧ (a = .ok () → Windowed r' ∧ Covers n r') := by
  by_cases hneeds : NeedsRefresh n r
  · unfold spoiledBy
    rw [if_pos hneeds]
    cases disk with
    | reads =>
      have hwindowed := h.upToCache.refilled (hroom hn hneeds)
      refine ⟨.ok (), r.refilled, ?_, rfl, rfl, hwindowed.sound, fun _ => ⟨hwindowed, le_rfl, ?_⟩⟩
      · rw [refreshOn_reads, h.upToCache.refresh_reads hneeds hn hroom]
      · show r.ullCurrentFileOffset + n ≤ r.ullCurrentFileOffset + r.ulCacheSize
        omega
    | seekFails =>
      refine ⟨.error .fileIOSeekFailed, r, ?_, rfl, rfl, h, nofun⟩
      unfold FileReader.refreshOn
      rw [if_pos hneeds, if_neg (Nat.not_lt.mpr hn)]
    | readFails written =>
      obtain ⟨r₁, hcall, h₁, hcontents, hoffset⟩ :=
        h.upToCache.refresh_readFails hneeds hn hroom written
      exact ⟨_, r₁, hcall, hcontents, hoffset, h₁.sound, nofun⟩
  · -- the window is that of a refill that went well
    have hgood : spoiled = false := Bool.eq_false_of_not_eq_true fun hs => hneeds (hserved hs)
    have hwindowed := h.windowed hgood
    refine ⟨.ok (), r, ?_, rfl, rfl, hwindowed.sound, fun _ =>
      ⟨hwindowed, hwindowed.covers_of_not_needsRefresh hfits hneeds⟩⟩
    unfold FileReader.refreshOn
    rw [if_neg hneeds]

/-! ### One call -/

/-- What a call owes: it keeps the invariant, and delivers the bytes of the file if it succeeds. -/
def Honest (o : Except Fault (Outcome Answer)) (spoiled : Bool) (r : FileReader) : Prop :=
  ∃ a r', o = .ok (a, r') ∧ r'.contents = r.contents ∧ Sound spoiled r' ∧
    ∀ answer, a = .ok answer →
      Delivers r.contents r.ullCurrentFileOffset answer r'.ullCurrentFileOffset

theorem Sound.honest_error (h : Sound spoiled r) (err : ToolsError) :
    Honest (.ok (.error err, r)) spoiled r :=
  ⟨.error err, r, rfl, rfl, h, nofun⟩

theorem Sound.seek (h : Sound spoiled r) {llBytes : Int64} {iWhence : Whence}
    (hmin : r.contents ≠ [] → iWhence = .seekEnd → llBytes.toInt ≠ -2 ^ 63) :
    Honest (answering .position (r.seek llBytes iWhence)) spoiled r := by
  have hle := h.upToCache.offset_le
  rw [seek_eq h.upToCache.status h.upToCache.fileSize hle hmin]
  refine ⟨_, _, rfl, rfl, h.move (seekTarget_le hle llBytes iWhence), ?_⟩
  rintro answer hanswer
  obtain rfl := Except.ok.inj hanswer
  exact rfl

theorem delivers_block {contents : List UInt8} {offset count : Nat}
    (hfits : offset + count ≤ contents.length) (pBuffer : Cells UInt8) :
    Delivers contents offset
      (.block count ((slice contents offset count).map some ++ pBuffer.drop count))
      (offset + count) :=
  ⟨hfits, List.take_left' (by rw [List.length_map, length_slice hfits]), rfl⟩

/-- **Reading a block.** -/
theorem Sound.readBlock (h : Sound spoiled r) {pBuffer : Cells UInt8} {n : Nat} {all : Bool}
    (hmeets : BlockMeets pBuffer n all r) (disk : Disk)
    (hserved : spoiled = true → ∀ k, r.cacheRead (.readBytes pBuffer n all) = some k →
      NeedsRefresh k r) :
    Honest (answering (fun a => .block a.1 a.2) (r.readBlockOn disk pBuffer n all))
      (r.spoiledAfter disk (.readBytes pBuffer n all) spoiled) r := by
  obtain ⟨hwrap, hroom⟩ := hmeets
  have hbytes := h.upToCache.bytesRead hwrap all
  have hread : r.cacheRead (.readBytes pBuffer n all)
      = match specCount r.contents.length r.ullCurrentFileOffset n all with
        | .ok count => if count > r.ulCacheSize then none else some count
        | .error _ => none := by
    rw [cacheRead, hbytes]
  rw [spoiledAfter]
  rw [hread] at hserved ⊢
  rw [readBlockOn, if_neg (by simp [h.upToCache.status]), hbytes]
  cases hcount : specCount r.contents.length r.ullCurrentFileOffset n all with
  | error err => exact h.honest_error err
  | ok count =>
    have hfits := specCount_le h.upToCache.offset_le hcount
    obtain ⟨hdst, hrefill⟩ := hroom count hcount
    simp only [hcount] at hserved
    by_cases hmore : count > r.ulCacheSize
    · simp only [if_pos hmore]
      cases disk with
      | reads =>
        obtain ⟨h₂, hoffset⟩ := (h.position (r.ullCurrentFileOffset + count)).advance hfits
        rw [readMoreThanCacheOn, readMoreThanCache_eq hfits hdst, ok_bind]
        refine ⟨_, _, rfl, rfl, h₂, ?_⟩
        intro answer hanswer
        obtain rfl := Except.ok.inj hanswer
        rw [hoffset]
        exact delivers_block hfits pBuffer
      | seekFails => exact h.honest_error _
      | readFails written => exact ⟨_, _, rfl, rfl, h.position _, nofun⟩
    · simp only [if_neg hmore] at hserved ⊢
      obtain ⟨a, r₁, hcall, hcontents, hoffset, h₁, hcovers⟩ :=
        h.refreshOn (Nat.le_of_not_lt hmore) hfits hrefill (fun hs => hserved hs count rfl) disk
      rw [hcall, ok_bind]
      cases a with
      | error err => exact ⟨.error err, r₁, rfl, hcontents, h₁, nofun⟩
      | ok u =>
        obtain ⟨hwindowed, hcover⟩ := hcovers rfl
        rw [← hcontents, ← hoffset] at hfits
        have hcopy := hwindowed.copyFromCache pBuffer hcover hfits hdst
        obtain ⟨h₂, hoffset₂⟩ := h₁.advance hfits
        refine ⟨_, r₁.advance count, by simp only [hcopy, ok_bind]; rfl, hcontents, h₂, ?_⟩
        intro answer hanswer
        obtain rfl := Except.ok.inj hanswer
        rw [hoffset₂, ← hcontents, ← hoffset]
        exact delivers_block hfits pBuffer

/-- **Reading an integer** of up to four bytes. -/
theorem Sound.readNetUnsignedInt (h : Sound spoiled r) {n : Nat} (hpos : 0 < n) (hn : n ≤ 4)
    (hmeets : ValueMeets n r) (disk : Disk)
    (hserved : spoiled = true → ∀ k, cacheRead.valueRead r n = some k → NeedsRefresh k r) :
    Honest (answering .value (r.readNetUnsignedIntOn disk (netShifts n)))
      (match cacheRead.valueRead r n with
        | none => spoiled
        | some k => r.spoiledBy disk k spoiled) r := by
  have hlt := r.length_contents_lt
  have hle := h.upToCache.offset_le
  have hsum : ull (r.ullCurrentFileOffset + n) = r.ullCurrentFileOffset + n := by
    rw [ull_of_lt (by omega) (by omega)]
    omega
  unfold cacheRead.valueRead at hserved ⊢
  rw [readNetUnsignedIntOn, if_neg (by simp [h.upToCache.status]), length_netShifts]
  rw [hsum, h.upToCache.fileSize] at hserved ⊢
  rcases lt_or_ge r.contents.length (r.ullCurrentFileOffset + n) with hmore | hfits
  · simp only [if_pos hmore]
    exact h.honest_error _
  · simp only [if_neg (Nat.not_lt.mpr hfits)] at hserved ⊢
    obtain ⟨hrefill, hvalue⟩ := hmeets hfits
    obtain ⟨cache, hcache⟩ := h.upToCache.windowed
    have hcached : n ≤ r.ulCacheSize := hcache.le_cacheSize (hn.trans (by decide)) hfits
    obtain ⟨a, r₁, hcall, hcontents, hoffset, h₁, hcovers⟩ :=
      h.refreshOn hcached hfits hrefill (fun hs => hserved hs n rfl) disk
    rw [hcall, ok_bind]
    cases a with
    | error err => exact ⟨.error err, r₁, rfl, hcontents, h₁, nofun⟩
    | ok u =>
      obtain ⟨hwindowed, hcover⟩ := hcovers rfl
      rw [← hcontents, ← hoffset] at hfits hvalue
      have hcopy := hwindowed.copyFromCache (List.replicate n none) hcover hfits (by simp)
      have hlen := length_slice hfits
      have hint := orShifted_netShifts (slice r₁.contents r₁.ullCurrentFileOffset n) (by omega)
      rw [hlen] at hint
      obtain ⟨h₂, hoffset₂⟩ := h₁.advance hfits
      refine ⟨.ok (.value (bigEndian (slice r₁.contents r₁.ullCurrentFileOffset n))),
        r₁.advance n, ?_, hcontents, h₂, ?_⟩
      · simp only [hcopy, ok_bind, List.drop_replicate, Nat.sub_self, List.replicate_zero,
          List.append_nil, hint, signExtend_ofNat hvalue]
        rfl
      · intro answer hanswer
        obtain rfl := Except.ok.inj hanswer
        rw [hoffset₂, ← hcontents, ← hoffset]
        exact ⟨n, hpos, hfits, rfl, rfl⟩

/-- **Every call** keeps the invariant and is honest, unless it is answered from the window of a
failed refill. -/
theorem Sound.execOn (h : Sound spoiled r) {c : Call} (hmeets : Meets r c) (disk : Disk)
    (hserved : spoiled = true → ∀ k, r.cacheRead c = some k → NeedsRefresh k r) :
    Honest (r.execOn disk c) (r.spoiledAfter disk c spoiled) r := by
  cases c with
  | seek llBytes iWhence => exact h.seek hmeets
  | readChars pBuffer n all => exact h.readBlock hmeets disk hserved
  | readBytes pucValue n all => exact h.readBlock hmeets disk hserved
  | readNetUnsignedInt8Bit =>
    exact h.readNetUnsignedInt (n := 1) (by decide) (by decide)
      (valueMeets_of_le_three (by decide) hmeets) disk hserved
  | readNetUnsignedInt16Bit =>
    exact h.readNetUnsignedInt (n := 2) (by decide) (by decide)
      (valueMeets_of_le_three (by decide) hmeets) disk hserved
  | readNetUnsignedInt24Bit =>
    exact h.readNetUnsignedInt (n := 3) (by decide) (by decide)
      (valueMeets_of_le_three (by decide) hmeets) disk hserved
  | readNetUnsignedInt32Bit =>
    exact h.readNetUnsignedInt (n := 4) (by decide) (by decide) hmeets disk hserved
  | readNetUnsignedInt64Bit =>
    -- the file does not have eight bytes more
    have hsum : ull (r.ullCurrentFileOffset + (8 : Nat)) > r.ullFileSize := by
      have hlt := r.length_contents_lt
      have hle := h.upToCache.offset_le
      have hmore : r.contents.length < r.ullCurrentFileOffset + 8 := hmeets
      rw [h.upToCache.fileSize, ull_of_lt (by omega) (by omega)]
      omega
    have hnone : r.cacheRead .readNetUnsignedInt64Bit = none := if_pos hsum
    have hrefused : r.readNetUnsignedIntOn disk [56, 48, 40, 32, 24, 16, 8, 0]
        = .ok (.error .activationWrong, r) := by
      rw [readNetUnsignedIntOn, if_neg (by simp [h.upToCache.status])]
      exact if_pos hsum
    rw [FileReader.execOn, hrefused, spoiledAfter, hnone]
    exact h.honest_error _

/-! ### Runs -/

/-- The condition on a run: every call meets its own, and none is answered from the window of a
failed refill. -/
def StepsMeet (spoiled : Bool) (r : FileReader) : List (Call × Disk) → Prop
  | [] => True
  | (c, disk) :: steps =>
    Meets r c ∧ (spoiled = true → ∀ n, r.cacheRead c = some n → NeedsRefresh n r) ∧
      ∀ a r', r.execOn disk c = .ok (a, r') → StepsMeet (r.spoiledAfter disk c spoiled) r' steps

theorem Sound.runOn (h : Sound spoiled r) {steps : List (Call × Disk)}
    (hmeets : StepsMeet spoiled r steps) :
    ∃ entries r', r.runOn steps = .ok (entries, r') ∧ ∀ e ∈ entries, ∀ answer,
      e.answer = .ok answer → Delivers r.contents e.before answer e.after := by
  induction steps generalizing r spoiled with
  | nil => exact ⟨[], r, rfl, by simp⟩
  | cons step steps ih =>
    obtain ⟨c, disk⟩ := step
    obtain ⟨hc, hserved, hrest⟩ := hmeets
    obtain ⟨a, r₁, hexec, hcontents, h₁, hdelivers⟩ := h.execOn hc disk hserved
    obtain ⟨entries, r₂, hrun, hentries⟩ := ih h₁ (hrest a r₁ hexec)
    refine ⟨⟨r.ullCurrentFileOffset, a, r₁.ullCurrentFileOffset⟩ :: entries, r₂, ?_, ?_⟩
    · rw [FileReader.runOn, hexec, ok_bind]
      simp only [hrun, ok_bind]
      rfl
    · rw [List.forall_mem_cons]
      exact ⟨hdelivers, hcontents ▸ hentries⟩

/-- **After a refill that fails**, in every run where no call is answered from its window, each call
fails or delivers the bytes of the file. -/
theorem honest_run {openFile : String → Except ToolsError FileDescriptor}
    {pFilePath : Option String} {ulMaxCacheSize : Nat} {r₀ : FileReader}
    (hinit : init openFile pFilePath ulMaxCacheSize r₀ = .ok (.ok (), r))
    {steps : List (Call × Disk)} (hmeets : StepsMeet false r steps) :
    ∃ entries r', r.runOn steps = .ok (entries, r') ∧ ∀ e ∈ entries, ∀ answer,
      e.answer = .ok answer → Delivers r.contents e.before answer e.after :=
  (init_windowed hinit).1.sound.runOn hmeets

/-! ### A small file -/

/-- A refill fails at the third byte, and the next read is at the first. -/
def failureAhead : List (Call × Disk) :=
  [(.seek 2 .seekSet, .reads), (.readBytes [none] 1 true, .readFails [7]),
    (.seek 0 .seekSet, .reads), (.readBytes [none] 1 true, .reads)]

theorem failureAhead_meet : StepsMeet false sixBytes failureAhead := by
  have hblock : ∀ r : FileReader, r.ulCacheSize = 6 →
      (ull (r.ullCurrentFileOffset + (1 : Nat)) ≤ r.contents.length →
        r.ullCurrentFileOffset + 1 ≤ r.contents.length) →
      BlockMeets [none] 1 true r := by
    intro r hsize hwrap
    refine ⟨hwrap, fun count hcount => ⟨?_, sixBytes_refillFits hsize⟩⟩
    unfold specCount at hcount
    split_ifs at hcount with hfits hall hend
    · exact (Except.ok.inj hcount).ge
    · exact absurd rfl hall
  refine ⟨fun _ => nofun, nofun, ?_⟩
  rintro a r₁ h₁
  obtain ⟨-, rfl⟩ := Prod.mk.inj (Except.ok.inj h₁)
  refine ⟨hblock _ rfl (by decide), nofun, ?_⟩
  rintro a r₂ h₂
  obtain ⟨-, rfl⟩ := Prod.mk.inj (Except.ok.inj h₂)
  refine ⟨fun _ => nofun, fun _ _ => nofun, ?_⟩
  rintro a r₃ h₃
  obtain ⟨-, rfl⟩ := Prod.mk.inj (Except.ok.inj h₃)
  refine ⟨hblock _ rfl (by decide), ?_, fun _ _ _ => trivial⟩
  intro _ n hn
  -- the offset is before the window
  exact Or.inr (Or.inl (by decide))

/-- The read at the first byte refills the cache, and delivers it. -/
theorem honest_run_sixBytes : ∃ entries r', sixBytes.runOn failureAhead = .ok (entries, r') ∧
    entries.map Entry.answer = [.ok (.position 2), .error .fileIOReadBytesFailed,
      .ok (.position 0), .ok (.block 1 [some 10])] ∧
    ∀ e ∈ entries, ∀ answer, e.answer = .ok answer →
      Delivers sixBytes.contents e.before answer e.after := by
  have hinit : init (opening [10, 20, 30, 40, 50, 60] (by decide)) (some "f") 1024 built
      = .ok (.ok (), sixBytes) := rfl
  obtain ⟨entries, r', hrun, hdelivers⟩ := honest_run hinit failureAhead_meet
  refine ⟨entries, r', hrun, ?_, hdelivers⟩
  obtain ⟨rfl, -⟩ := Prod.mk.inj (Except.ok.inj hrun)
  rfl

/-- The first byte is read where the cache has the bytes from the third one on. -/
def failureBehind : List (Call × Disk) :=
  [(.seek 2 .seekSet, .reads), (.readBytes [none] 1 true, .reads), (.seek 0 .seekSet, .reads),
    (.readBytes [none] 1 true, .readFails []), (.readBytes [none] 1 true, .reads)]

/-- **A refill that fails at the first byte**: the next read finds the third byte in the window, and
delivers it as the first. -/
theorem not_honest_run :
    ¬ ∀ (openFile : String → Except ToolsError FileDescriptor) (pFilePath : Option String)
      (ulMaxCacheSize : Nat) (r : FileReader),
      init openFile pFilePath ulMaxCacheSize built = .ok (.ok (), r) →
      ∀ steps entries r', r.runOn steps = .ok (entries, r') → ∀ e ∈ entries, ∀ answer,
        e.answer = .ok answer → Delivers r.contents e.before answer e.after := by
  intro h
  have hrun : sixBytes.runOn failureBehind = .ok ([⟨0, .ok (.position 2), 2⟩,
      ⟨2, .ok (.block 1 [some 30]), 3⟩, ⟨3, .ok (.position 0), 0⟩,
      ⟨0, .error .fileIOReadBytesFailed, 0⟩, ⟨0, .ok (.block 1 [some 30]), 1⟩], _) := rfl
  have hdelivers := h (opening [10, 20, 30, 40, 50, 60] (by decide)) (some "f") 1024 sixBytes rfl
    failureBehind _ _ hrun ⟨0, .ok (.block 1 [some 30]), 1⟩ (by simp) _ rfl
  obtain ⟨-, hbytes, -⟩ := hdelivers
  exact absurd hbytes (by decide)

end FileReader

end CatraLibraries
