/-
# The cache is transparent

Reading through the cache returns what reading the file directly returns.  The
invariant is `Windowed`: when the cache has been filled, its first bytes are the slice
of the file from `ullCacheFileOffset` on, of the nominal size or up to the end of the
file.  `refreshCacheIfNecessary` keeps it and leaves a window that covers the read;
the copy out of such a window is the slice of the file at the offset.

Three slips limit this.  `init` narrows the size of the cache to `unsigned int`, while
the refills go by the full `ulCacheSize`; a 32-bit integer is sign-extended; and a
64-bit one is put together from shifts of `int`, which have no defined value.  The sum
of the offset and a number of bytes may also wrap around.
-/
import CatraLibraries.Tools.FileReaderSpec

namespace CatraLibraries

open Memory

/-! ### Arithmetic of offsets -/

theorem ull_of_lt {z : Int} (h0 : 0 ≤ z) (h : z < 2 ^ 64) : ull z = z.toNat := by
  rw [ull, Int.emod_eq_of_lt h0 h]

theorem ull_neg_one : ull (-1) = 2 ^ 64 - 1 := rfl

namespace FileReader

variable {r r' : FileReader}

/-- The bytes of the open file. -/
abbrev contents (r : FileReader) : List UInt8 := r.iFileDescriptor.contents

/-- **The cache invariant.**  The cache was never filled, or it starts with the slice of
the file at `ullCacheFileOffset`. -/
structure Windowed (r : FileReader) : Prop where
  status : r.frFileReaderStatus = .initialized
  fileSize : r.ullFileSize = r.contents.length
  offset_le : r.ullCurrentFileOffset ≤ r.contents.length
  cacheSize_le : r.ulCacheSize ≤ r.contents.length
  cacheSize_large : r.ulCacheSize = r.contents.length ∨ minimumCacheSize < r.ulCacheSize
  capacity : r.pucCache.length = r.ulCacheSize % 2 ^ 32
  window : r.ullCacheFileOffset = ull (-1) ∨
    r.ullCacheFileOffset ≤ r.contents.length ∧
      ∃ rest, r.pucCache
        = (slice r.contents r.ullCacheFileOffset r.ulCacheSize).map some ++ rest

theorem length_contents_lt (r : FileReader) : r.contents.length < 2 ^ 63 :=
  r.iFileDescriptor.length_lt

theorem Windowed.ull_rest (h : Windowed r) :
    ull ((r.ullFileSize : Int) - r.ullCurrentFileOffset)
      = r.contents.length - r.ullCurrentFileOffset := by
  have hlt := r.length_contents_lt
  have hle := h.offset_le
  rw [h.fileSize, ull_of_lt (by omega) (by omega)]
  omega

/-- The window of the cache contains the next `n` bytes. -/
def Covers (n : Nat) (r : FileReader) : Prop :=
  r.ullCacheFileOffset ≤ r.ullCurrentFileOffset ∧
    r.ullCurrentFileOffset + n ≤ r.ullCacheFileOffset + r.ulCacheSize

/-- Should the cache be refilled for `n` bytes, it has room for what the refill reads. -/
def RefillFits (n : Nat) (r : FileReader) : Prop :=
  n ≤ r.ulCacheSize → NeedsRefresh n r →
    min r.ulCacheSize (r.ullFileSize - r.ullCurrentFileOffset) ≤ r.ulCacheSize % 2 ^ 32

/-- A cache below four GiB always has room. -/
theorem refillFits_of_lt {n : Nat} (h : r.ulCacheSize < 2 ^ 32) : RefillFits n r := by
  intro _ _
  rw [Nat.mod_eq_of_lt h]
  exact min_le_left _ _

/-! ### Refilling -/

/-- Without a refill the window covers the read. -/
theorem Windowed.covers_of_not_needsRefresh (h : Windowed r) {n : Nat}
    (hfits : r.ullCurrentFileOffset + n ≤ r.contents.length) (hn : ¬ NeedsRefresh n r) :
    Covers n r := by
  have hlt := r.length_contents_lt
  have hsize := h.cacheSize_le
  simp only [NeedsRefresh, not_or, Nat.not_lt] at hn
  obtain ⟨hsome, hle, hend, hover⟩ := hn
  have hoff : r.ullCacheFileOffset ≤ r.contents.length :=
    (h.window.resolve_left hsome).1
  rw [ull_of_lt (by omega) (by omega)] at hend hover
  constructor <;> omega

/-- Whichever way the refill counts its bytes, it reads the slice of the nominal size. -/
theorem Windowed.available_refill (h : Windowed r) :
    (r.iFileDescriptor.seek r.ullCurrentFileOffset).available r.bytesToReadForCache
      = slice r.contents r.ullCurrentFileOffset r.ulCacheSize := by
  have hle := h.cacheSize_le
  have hrest := h.ull_rest
  have hsize := h.fileSize
  have hcount : r.bytesToReadForCache = r.ulCacheSize ∨
      r.contents.length - r.ullCurrentFileOffset ≤ r.bytesToReadForCache ∧
        r.contents.length - r.ullCurrentFileOffset ≤ r.ulCacheSize := by
    unfold bytesToReadForCache
    rw [hrest, hsize]
    split_ifs <;> omega
  obtain hcount | ⟨hmore, hall⟩ := hcount
  · rw [hcount]
    rfl
  · -- both lengths reach the end of the file
    show (r.contents.drop r.ullCurrentFileOffset).take _ = (r.contents.drop _).take _
    rw [List.take_of_length_le (by simpa using hmore), List.take_of_length_le (by simpa using hall)]

/-- The reader after a refill. -/
def refilled (r : FileReader) : FileReader :=
  { r with
    iFileDescriptor :=
      { r.iFileDescriptor with
        position := r.ullCurrentFileOffset
          + (slice r.contents r.ullCurrentFileOffset r.ulCacheSize).length }
    pucCache := (slice r.contents r.ullCurrentFileOffset r.ulCacheSize).map some
      ++ r.pucCache.drop (slice r.contents r.ullCurrentFileOffset r.ulCacheSize).length
    ullCacheFileOffset := r.ullCurrentFileOffset }

/-- A read into a block with room for its bytes. -/
theorem readBytes_ok (fd : FileDescriptor) {n : Nat} {m : Cells UInt8}
    (h : (fd.available n).length ≤ m.length) :
    fd.readBytes m n = .ok ((fd.available n).map some ++ m.drop (fd.available n).length,
      { fd with position := fd.position + (fd.available n).length }) := by
  rw [FileDescriptor.readBytes, writeAt, if_pos (by simpa using h), ok_bind, List.take_zero,
    List.nil_append, List.length_map, Nat.zero_add]
  rfl

theorem Windowed.refilled (h : Windowed r)
    (hroom : min r.ulCacheSize (r.ullFileSize - r.ullCurrentFileOffset)
      ≤ r.ulCacheSize % 2 ^ 32) : Windowed r.refilled := by
  refine ⟨h.status, h.fileSize, h.offset_le, h.cacheSize_le, h.cacheSize_large, ?_, ?_⟩
  · rw [h.fileSize] at hroom
    simp only [FileReader.refilled, List.length_append, List.length_map, List.length_drop,
      slice, List.length_take, h.capacity]
    omega
  · exact Or.inr ⟨h.offset_le, _, rfl⟩

/-- **Refreshing the cache** keeps the invariant, moves nothing but the window, and
leaves one that covers the read. -/
theorem Windowed.refresh (h : Windowed r) {n : Nat} (hn : n ≤ r.ulCacheSize)
    (hfits : r.ullCurrentFileOffset + n ≤ r.contents.length) (hroom : RefillFits n r) :
    ∃ r', r.refreshCacheIfNecessary n = .ok (.ok (), r') ∧ Windowed r' ∧ Covers n r' ∧
      r'.ullCurrentFileOffset = r.ullCurrentFileOffset ∧ r'.contents = r.contents := by
  by_cases hneeds : NeedsRefresh n r
  · have hspace := hroom hn hneeds
    have hread : (r.iFileDescriptor.seek r.ullCurrentFileOffset).readBytes r.pucCache
        r.bytesToReadForCache = .ok (r.refilled.pucCache, r.refilled.iFileDescriptor) := by
      rw [readBytes_ok] <;> rw [h.available_refill]
      · rfl
      · rw [h.fileSize] at hspace
        rw [h.capacity, slice, List.length_take, List.length_drop]
        exact hspace
    refine ⟨r.refilled, ?_, h.refilled hspace, ⟨le_rfl, ?_⟩, rfl, rfl⟩
    · rw [refreshCacheIfNecessary, if_pos hneeds, if_neg (by omega), hread]
      rfl
    · show r.ullCurrentFileOffset + n ≤ r.ullCurrentFileOffset + r.ulCacheSize
      omega
  · refine ⟨r, ?_, h, h.covers_of_not_needsRefresh hfits hneeds, rfl, rfl⟩
    rw [refreshCacheIfNecessary, if_neg hneeds]

/-- **Copying out of the window**: the bytes of the file at the offset. -/
theorem Windowed.copyFromCache (h : Windowed r) {n : Nat} (dst : Cells UInt8)
    (hcovers : Covers n r) (hfits : r.ullCurrentFileOffset + n ≤ r.contents.length)
    (hdst : n ≤ dst.length) :
    r.copyFromCache dst n
      = .ok ((slice r.contents r.ullCurrentFileOffset n).map some ++ dst.drop n) := by
  obtain ⟨hle, hend⟩ := hcovers
  have hlt := r.length_contents_lt
  have hsize := h.cacheSize_le
  have hoff := h.offset_le
  have hwindow := h.window.resolve_left (by rw [ull_neg_one]; omega)
  obtain ⟨-, rest, hcache⟩ := hwindow
  obtain ⟨d, hd⟩ := Nat.exists_eq_add_of_le hle
  have hdrop : ull ((r.ullCurrentFileOffset : Int) - r.ullCacheFileOffset) = d := by
    rw [ull_of_lt (by omega) (by omega)]
    omega
  have hwin : d + n
      ≤ ((slice r.contents r.ullCacheFileOffset r.ulCacheSize).map some).length := by
    rw [List.length_map, slice, List.length_take, List.length_drop]
    omega
  -- the `n` cells at distance `d` lie inside the window
  have hcells : (r.pucCache.drop d).take n
      = (slice r.contents r.ullCurrentFileOffset n).map some := by
    rw [hcache, List.drop_append_of_le_length (by omega),
      List.take_append_of_le_length (by rw [List.length_drop]; omega), ← List.map_drop,
      ← List.map_take, slice_slice _ (by omega), hd]
  have hlen : (slice r.contents r.ullCurrentFileOffset n).length = n := length_slice hfits
  rw [FileReader.copyFromCache, hdrop, memcpy_eq_writeAt, hcells, writeAt, List.length_map, hlen,
    if_pos (by omega), List.take_zero, List.nil_append, Nat.zero_add]
  rw [hcache, List.length_drop, List.length_append]
  omega

/-! ### Integers in network order -/

/-- The shifts of an integer of `n` bytes. -/
def netShifts : Nat → List Nat
  | 0 => []
  | n + 1 => 8 * n :: netShifts n

theorem length_netShifts (n : Nat) : (netShifts n).length = n := by
  induction n with
  | zero => rfl
  | succ n ih => rw [netShifts, List.length_cons, ih]

/-- **Up to four bytes make the `int` of their value.** -/
theorem orShifted_netShifts (bytes : List UInt8) (h : bytes.length ≤ 4) :
    orShifted (netShifts bytes.length) (bytes.map some)
      = .ok (BitVec.ofNat 32 (bigEndian bytes)) := by
  induction bytes with
  | nil => rfl
  | cons b bytes ih =>
    rw [List.length_cons] at h
    have hlow := bigEndian_lt bytes
    have hpow : 2 ^ (8 * bytes.length) * 2 ^ 8 ≤ 2 ^ 32 := by
      rw [← Nat.pow_add]
      exact Nat.pow_le_pow_right (by decide) (by omega)
    have hbyte : b.toNat * 2 ^ (8 * bytes.length) < 2 ^ 32 := by
      have := Nat.mul_lt_mul_of_pos_right b.toNat_lt (Nat.two_pow_pos (8 * bytes.length))
      rw [Nat.mul_comm (2 ^ 8)] at this
      omega
    have hload : load ((b :: bytes).map some) 0 = .ok b := rfl
    rw [List.length_cons, netShifts, orShifted, hload, ok_bind, shiftInt, if_pos (by omega),
      ok_bind, List.map_cons, List.drop_one, List.tail_cons, ih (by omega), ok_bind]
    -- the shifted byte and the bytes below it have no bit in common
    refine congrArg Except.ok (BitVec.eq_of_toNat_eq ?_)
    rw [BitVec.toNat_or, BitVec.toNat_shiftLeft, BitVec.toNat_ofNat, BitVec.toNat_ofNat,
      BitVec.toNat_setWidth, UInt8.toNat_toBitVec, bigEndian_cons,
      Nat.mod_eq_of_lt (show b.toNat < 2 ^ 32 by have := b.toNat_lt; omega), Nat.shiftLeft_eq,
      Nat.mod_eq_of_lt hbyte, Nat.mod_eq_of_lt (show bigEndian bytes < 2 ^ 32 by omega),
      ← Nat.shiftLeft_eq, ← Nat.shiftLeft_add_eq_or_of_lt hlow, Nat.shiftLeft_eq,
      Nat.mod_eq_of_lt]
    have := Nat.mul_le_mul_right (2 ^ (8 * bytes.length)) (Nat.succ_le_of_lt b.toNat_lt)
    rw [Nat.succ_mul, Nat.mul_comm (2 ^ 8)] at this
    omega

/-- Below 2³¹ the conversion of an `int` keeps its value. -/
theorem signExtend_ofNat {v : Nat} (h : v < 2 ^ 31) :
    ((BitVec.ofNat 32 v).signExtend 64).toNat = v := by
  have hmsb : (BitVec.ofNat 32 v).msb = false := by
    rw [BitVec.msb_eq_false_iff_two_mul_lt, BitVec.toNat_ofNat]
    omega
  rw [BitVec.signExtend_eq_setWidth_of_msb_false hmsb, BitVec.toNat_setWidth, BitVec.toNat_ofNat]
  omega

/-! ### One call -/

/-- A call ends with the answer and the offset of its specification, and the invariant
holds after it. -/
def Agrees (o : Except Fault (Outcome Answer)) (contents : List UInt8)
    (spec : Except ToolsError Answer × Nat) : Prop :=
  ∃ r', o = .ok (spec.1, r') ∧ Windowed r' ∧ r'.contents = contents ∧
    r'.ullCurrentFileOffset = spec.2

theorem Windowed.agrees_error (h : Windowed r) (err : ToolsError) :
    Agrees (.ok (.error err, r)) r.contents (.error err, r.ullCurrentFileOffset) :=
  ⟨r, rfl, h, rfl, rfl⟩

/-- Moving the offset keeps the window. -/
theorem Windowed.move (h : Windowed r) {offset : Nat} (hle : offset ≤ r.contents.length) :
    Windowed { r with ullCurrentFileOffset := offset } :=
  ⟨h.status, h.fileSize, hle, h.cacheSize_le, h.cacheSize_large, h.capacity, h.window⟩

theorem Windowed.advance (h : Windowed r) {n : Nat}
    (hfits : r.ullCurrentFileOffset + n ≤ r.contents.length) :
    Windowed (r.advance n) ∧
      (r.advance n).ullCurrentFileOffset = r.ullCurrentFileOffset + n := by
  have hlt := r.length_contents_lt
  have heq : ull (r.ullCurrentFileOffset + n) = r.ullCurrentFileOffset + n := by
    rw [ull_of_lt (by omega) (by omega)]
    omega
  refine ⟨h.move ?_, heq⟩
  rw [heq]
  exact hfits

theorem seekOffset_eq {size offset : Nat} {llBytes : Int64} {iWhence : Whence}
    (hle : offset ≤ size) (hlt : size < 2 ^ 63)
    (hmin : iWhence = .seekEnd → llBytes.toInt ≠ -2 ^ 63) :
    seekOffset size offset llBytes iWhence = .ok (seekTarget size offset llBytes iWhence) := by
  have hlow := llBytes.le_toInt
  have hhigh := llBytes.toInt_lt
  cases iWhence with
  | seekSet =>
    rw [seekOffset, seekTarget]
    rcases lt_or_ge 0 llBytes.toInt with hpos | hneg
    · rw [if_neg (by omega), ull_of_lt (by omega) (by omega)]
      split_ifs <;> exact congrArg Except.ok (by omega)
    · rw [if_pos hneg]
      exact congrArg Except.ok (by omega)
  | seekCur =>
    rw [seekOffset, seekTarget]
    rcases lt_or_ge (offset + llBytes.toInt) 0 with hneg | hpos
    · -- a negative sum is a huge `unsigned long long`
      rw [if_pos (by rw [ull]; omega), if_neg (by omega)]
    · rw [ull_of_lt hpos (by omega)]
      split_ifs <;> first | rfl | omega
  | seekEnd =>
    have hmin := hmin rfl
    rw [seekOffset, seekTarget]
    rcases lt_or_ge llBytes.toInt 0 with hneg | hpos
    · rw [if_neg (by omega), if_neg hmin, ull_of_lt (by omega) (by omega)]
      split_ifs
      · exact congrArg Except.ok (by omega)
      · rw [ull_of_lt (by omega) (by omega)]
        exact congrArg Except.ok (by omega)
    · rw [if_pos hpos]
      exact congrArg Except.ok (by omega)
  | other => rfl

/-- The place that a seek gives is in the file. -/
theorem seekTarget_le {size offset : Nat} (hle : offset ≤ size) (llBytes : Int64)
    (iWhence : Whence) : seekTarget size offset llBytes iWhence ≤ size := by
  cases iWhence <;> simp only [seekTarget] <;> first | omega | (split_ifs <;> omega)

/-- **A seek** moves nothing but the offset. -/
theorem seek_eq (hstatus : r.frFileReaderStatus = .initialized)
    (hsize : r.ullFileSize = r.contents.length) (hle : r.ullCurrentFileOffset ≤ r.contents.length)
    {llBytes : Int64} {iWhence : Whence}
    (hmin : r.contents ≠ [] → iWhence = .seekEnd → llBytes.toInt ≠ -2 ^ 63) :
    let target := seekTarget r.contents.length r.ullCurrentFileOffset llBytes iWhence
    r.seek llBytes iWhence = .ok (.ok target, { r with ullCurrentFileOffset := target }) := by
  by_cases hempty : r.contents = []
  · have hzero : r.ullCurrentFileOffset = 0 := by simpa [hempty] using hle
    have htarget := Nat.le_zero.mp (seekTarget_le (hempty ▸ hle) llBytes iWhence)
    rw [FileReader.seek, if_neg (by simp [hstatus]), if_pos (by simp [hsize, hempty]), hempty,
      List.length_nil, htarget, ← hzero]
  · rw [FileReader.seek, if_neg (by simp [hstatus]), if_neg (by rw [hsize]; simpa using hempty),
      hsize, seekOffset_eq hle r.length_contents_lt (hmin hempty)]
    rfl

theorem Windowed.seek (h : Windowed r) {llBytes : Int64} {iWhence : Whence}
    (hmin : r.contents ≠ [] → iWhence = .seekEnd → llBytes.toInt ≠ -2 ^ 63) :
    Agrees (exec (.seek llBytes iWhence) r) r.contents
      (specExec r.contents r.ullCurrentFileOffset (.seek llBytes iWhence)) := by
  refine ⟨_, ?_, h.move (seekTarget_le h.offset_le llBytes iWhence), rfl, rfl⟩
  rw [exec, seek_eq h.status h.fileSize h.offset_le hmin]
  rfl

/-- The number of bytes is counted as it should be when the sum does not wrap around. -/
theorem Windowed.bytesRead (h : Windowed r) {n : Nat}
    (hwrap : ull (r.ullCurrentFileOffset + n) ≤ r.contents.length →
      r.ullCurrentFileOffset + n ≤ r.contents.length) (all : Bool) :
    r.bytesRead n all = specCount r.contents.length r.ullCurrentFileOffset n all := by
  have hlt := r.length_contents_lt
  have hle := h.offset_le
  have hsum : ull (r.ullCurrentFileOffset + n) ≤ r.contents.length ↔
      r.ullCurrentFileOffset + n ≤ r.contents.length := by
    refine ⟨hwrap, fun hfits => ?_⟩
    rw [ull_of_lt (by omega) (by omega)]
    omega
  rw [FileReader.bytesRead, specCount, h.ull_rest, h.fileSize]
  split_ifs <;> first | rfl | omega

/-- The condition under which a read of a block is right: the sum of offset and number
does not wrap around into the file, the caller's buffer has room, and so has the cache. -/
def BlockMeets (pBuffer : Cells UInt8) (n : Nat) (all : Bool) (r : FileReader) : Prop :=
  (ull (r.ullCurrentFileOffset + n) ≤ r.contents.length →
    r.ullCurrentFileOffset + n ≤ r.contents.length) ∧
  ∀ count, specCount r.contents.length r.ullCurrentFileOffset n all = .ok count →
    count ≤ pBuffer.length ∧ RefillFits count r

/-- A read past the cache delivers the slice of the file at the offset. -/
theorem readMoreThanCache_eq {count : Nat} {pBuffer : Cells UInt8}
    (hfits : r.ullCurrentFileOffset + count ≤ r.contents.length)
    (hdst : count ≤ pBuffer.length) :
    r.readMoreThanCache pBuffer count
      = .ok (.ok ((slice r.contents r.ullCurrentFileOffset count).map some ++ pBuffer.drop count),
          { r with iFileDescriptor :=
            { r.iFileDescriptor with position := r.ullCurrentFileOffset + count } }) := by
  have hlen : ((r.iFileDescriptor.seek r.ullCurrentFileOffset).available count).length = count :=
    length_slice hfits
  have hread := readBytes_ok (r.iFileDescriptor.seek r.ullCurrentFileOffset)
    (hlen.symm ▸ hdst : _ ≤ pBuffer.length)
  rw [hlen] at hread
  rw [FileReader.readMoreThanCache, hread]
  rfl

theorem Windowed.readMoreThanCache (h : Windowed r) {count : Nat} {pBuffer : Cells UInt8}
    (hfits : r.ullCurrentFileOffset + count ≤ r.contents.length)
    (hdst : count ≤ pBuffer.length) :
    ∃ r', r.readMoreThanCache pBuffer count
        = .ok (.ok ((slice r.contents r.ullCurrentFileOffset count).map some
            ++ pBuffer.drop count), r') ∧
      Windowed r' ∧ r'.contents = r.contents ∧
      r'.ullCurrentFileOffset = r.ullCurrentFileOffset :=
  ⟨_, readMoreThanCache_eq hfits hdst, ⟨h.status, h.fileSize, h.offset_le, h.cacheSize_le,
    h.cacheSize_large, h.capacity, h.window⟩, rfl, rfl⟩

/-- **Reading a block**, through the cache or past it. -/
theorem Windowed.readBlock (h : Windowed r) {pBuffer : Cells UInt8} {n : Nat} {all : Bool}
    (hmeets : BlockMeets pBuffer n all r) :
    Agrees (answering (fun a => .block a.1 a.2) (r.readBlock pBuffer n all)) r.contents
      (specBlock r.contents r.ullCurrentFileOffset pBuffer n all) := by
  obtain ⟨hwrap, hroom⟩ := hmeets
  have hstatus : ¬ r.frFileReaderStatus ≠ .initialized := by simp [h.status]
  rw [FileReader.readBlock, if_neg hstatus, h.bytesRead hwrap, specBlock]
  cases hcount : specCount r.contents.length r.ullCurrentFileOffset n all with
  | error err => exact h.agrees_error err
  | ok count =>
    have hfits := specCount_le h.offset_le hcount
    obtain ⟨hdst, hrefill⟩ := hroom count hcount
    rcases lt_or_ge r.ulCacheSize count with hmore | hcached
    · obtain ⟨r₁, hread, h₁, hcontents, hoffset⟩ := h.readMoreThanCache hfits hdst
      obtain ⟨h₂, hoffset₂⟩ := h₁.advance (hcontents.symm ▸ hoffset.symm ▸ hfits)
      refine ⟨r₁.advance count, ?_, h₂, hcontents, hoffset₂.trans (by rw [hoffset])⟩
      simp only [if_pos hmore, hread, ok_bind]
      rfl
    · obtain ⟨r₁, hrefresh, h₁, hcovers, hoffset, hcontents⟩ := h.refresh hcached hfits hrefill
      rw [← hoffset, ← hcontents] at hfits ⊢
      obtain ⟨h₂, hoffset₂⟩ := h₁.advance hfits
      refine ⟨r₁.advance count, ?_, h₂, rfl, hoffset₂⟩
      simp only [if_neg (Nat.not_lt.mpr hcached), hrefresh, ok_bind,
        h₁.copyFromCache pBuffer hcovers hfits hdst]
      rfl

/-- The condition under which a read of an integer of `n` bytes is right: the cache has
room, and the value is below 2³¹ so that its `int` is not negative. -/
def ValueMeets (n : Nat) (r : FileReader) : Prop :=
  r.ullCurrentFileOffset + n ≤ r.contents.length →
    RefillFits n r ∧ bigEndian (slice r.contents r.ullCurrentFileOffset n) < 2 ^ 31

/-- **Reading an integer** of up to four bytes. -/
theorem Windowed.readNetUnsignedInt (h : Windowed r) {n : Nat} (hn : n ≤ 4)
    (hmeets : ValueMeets n r) :
    Agrees (answering .value (r.readNetUnsignedInt (netShifts n))) r.contents
      (specValue r.contents r.ullCurrentFileOffset n) := by
  have hlt := r.length_contents_lt
  have hle := h.offset_le
  have hstatus : ¬ r.frFileReaderStatus ≠ .initialized := by simp [h.status]
  have hsum : ull (r.ullCurrentFileOffset + n) = r.ullCurrentFileOffset + n := by
    rw [ull_of_lt (by omega) (by omega)]
    omega
  rw [FileReader.readNetUnsignedInt, if_neg hstatus, length_netShifts, hsum, h.fileSize, specValue]
  rcases lt_or_ge r.contents.length (r.ullCurrentFileOffset + n) with hmore | hfits
  · rw [if_pos hmore, if_neg (by omega)]
    exact h.agrees_error _
  · obtain ⟨hrefill, hvalue⟩ := hmeets hfits
    -- a cache is larger than an integer, unless it is as large as the file
    have hcached : n ≤ r.ulCacheSize := by
      have : minimumCacheSize = 256 := rfl
      rcases h.cacheSize_large with hall | hlarge <;> omega
    obtain ⟨r₁, hrefresh, h₁, hcovers, hoffset, hcontents⟩ := h.refresh hcached hfits hrefill
    rw [if_neg (by omega), if_pos hfits, hrefresh, ok_bind]
    rw [← hoffset, ← hcontents] at hfits hvalue ⊢
    obtain ⟨h₂, hoffset₂⟩ := h₁.advance hfits
    have hcopy := h₁.copyFromCache (List.replicate n none) hcovers hfits (by simp)
    have hlen := length_slice hfits
    have hint := orShifted_netShifts (slice r₁.contents r₁.ullCurrentFileOffset n) (by omega)
    rw [hlen] at hint
    refine ⟨r₁.advance n, ?_, h₂, rfl, hoffset₂⟩
    simp only [hcopy, ok_bind, List.drop_replicate, Nat.sub_self, List.replicate_zero,
      List.append_nil, hint, signExtend_ofNat hvalue]
    rfl

end FileReader

end CatraLibraries
