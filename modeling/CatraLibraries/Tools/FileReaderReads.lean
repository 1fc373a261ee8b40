/-
# What a read does, exactly

A reader whose cache is in order reads the bytes of the file at the offset, and is in order
afterwards.  The one thing that can go wrong is that a refill reads more than the cache has room
for: `init` narrows the size of the cache to `unsigned int`.  Whether it does is decided by the two
sizes and the offset alone, `CacheHolds`, and where it does, the read writes past the end of the
cache.
-/
import CatraLibraries.Tools.FileReaderCache

namespace CatraLibraries

open Memory

namespace FileReader

variable {r r' : FileReader}

/-- The cache has room for what a refill at the offset reads: it is below four GiB, or the rest of
the file fits what is left of its size when that is narrowed. -/
def CacheHolds (r : FileReader) : Prop :=
  r.ulCacheSize < 2 ^ 32 ∨ r.ullFileSize - r.ullCurrentFileOffset ≤ r.ulCacheSize % 2 ^ 32

theorem CacheHolds.min_le (h : CacheHolds r) :
    min r.ulCacheSize (r.ullFileSize - r.ullCurrentFileOffset) ≤ r.ulCacheSize % 2 ^ 32 := by
  rcases h with hsmall | hrest
  · rw [Nat.mod_eq_of_lt hsmall]
    exact min_le_left _ _
  · exact (min_le_right _ _).trans hrest

theorem CacheHolds.refillFits (h : CacheHolds r) (n : Nat) : RefillFits n r := fun _ _ => h.min_le

theorem lt_min_of_not_cacheHolds (h : ¬ CacheHolds r) :
    r.ulCacheSize % 2 ^ 32 < min r.ulCacheSize (r.ullFileSize - r.ullCurrentFileOffset) := by
  rw [CacheHolds, not_or] at h
  have hmod := Nat.mod_lt r.ulCacheSize (show 0 < 2 ^ 32 by decide)
  exact lt_min (by omega) (Nat.lt_of_not_le h.2)

/-! ### The refill -/

/-- A window that covers the offset leaves no more of the file than the cache has room for. -/
theorem Windowed.needsRefresh_of_not_cacheHolds (h : Windowed r) {n : Nat}
    (hfits : r.ullCurrentFileOffset + n ≤ r.contents.length) (hc : ¬ CacheHolds r) :
    NeedsRefresh n r := by
  by_contra hneeds
  obtain ⟨hle, hend⟩ := h.covers_of_not_needsRefresh hfits hneeds
  have hmin := lt_min_of_not_cacheHolds hc
  have hlt := r.length_contents_lt
  have hoff := h.offset_le
  have hwindow := h.window.resolve_left (by rw [ull_neg_one]; omega)
  obtain ⟨-, rest, hcache⟩ := hwindow
  have hroom := congrArg List.length hcache
  rw [h.capacity, List.length_append, List.length_map, slice, List.length_take,
    List.length_drop] at hroom
  rw [h.fileSize] at hmin
  omega

/-- Without room for it the refill goes past the end of the cache. -/
theorem Windowed.refresh_outside (h : Windowed r) {n : Nat} (hn : n ≤ r.ulCacheSize)
    (hfits : r.ullCurrentFileOffset + n ≤ r.contents.length) (hc : ¬ CacheHolds r) :
    r.refreshCacheIfNecessary n = .error .outOfBounds := by
  have hmin := lt_min_of_not_cacheHolds hc
  rw [h.fileSize] at hmin
  have hwrite : (r.iFileDescriptor.seek r.ullCurrentFileOffset).readBytes r.pucCache
      r.bytesToReadForCache = .error .outOfBounds := by
    rw [FileDescriptor.readBytes, h.available_refill, writeAt, if_neg, error_bind]
    rw [List.length_map, slice, List.length_take, List.length_drop, h.capacity]
    omega
  rw [refreshCacheIfNecessary, if_pos (h.needsRefresh_of_not_cacheHolds hfits hc),
    if_neg (Nat.not_lt.mpr hn), hwrite, error_bind]

/-- The cache keeps its size. -/
theorem cacheSize_refresh {n : Nat} {a : Except ToolsError Unit}
    (h : r.refreshCacheIfNecessary n = .ok (a, r')) : r'.ulCacheSize = r.ulCacheSize := by
  unfold refreshCacheIfNecessary at h
  split_ifs at h with hneeds hlow
  · rw [← (Prod.mk.inj (Except.ok.inj h)).2]
  · obtain ⟨read, -, h⟩ := bind_eq_ok.mp h
    rw [← (Prod.mk.inj (Except.ok.inj h)).2]
  · rw [← (Prod.mk.inj (Except.ok.inj h)).2]

/-! ### Reading a block -/

/-- The reader `r'` is in order, and is `r` at a place `n` bytes further on. -/
structure Moved (r : FileReader) (n : Nat) (r' : FileReader) : Prop where
  windowed : Windowed r'
  contents : r'.contents = r.contents
  offset : r'.ullCurrentFileOffset = r.ullCurrentFileOffset + n
  cacheSize : r'.ulCacheSize = r.ulCacheSize

theorem Moved.fileSize {n : Nat} (h : Moved r n r') (hr : Windowed r) :
    r'.ullFileSize = r.ullFileSize := by
  rw [h.windowed.fileSize, h.contents, hr.fileSize]

/-- Further on there is less to read. -/
theorem Moved.cacheHolds {n : Nat} (h : Moved r n r') (hr : Windowed r) (hc : CacheHolds r) :
    CacheHolds r' := by
  rw [CacheHolds, h.cacheSize, h.fileSize hr, h.offset]
  exact hc.imp_right fun hrest => by omega

theorem Moved.trans {r'' : FileReader} {m n : Nat} (h : Moved r m r') (h' : Moved r' n r'') :
    Moved r (m + n) r'' :=
  ⟨h'.windowed, h'.contents.trans h.contents, by rw [h'.offset, h.offset, Nat.add_assoc],
    h'.cacheSize.trans h.cacheSize⟩

/-- The number of bytes is counted without a wrap. -/
theorem Windowed.bytesRead_eq (h : Windowed r) {n : Nat} (hword : n < 2 ^ 63) (all : Bool) :
    r.bytesRead n all = specCount r.contents.length r.ullCurrentFileOffset n all := by
  have hlt := r.length_contents_lt
  have hle := h.offset_le
  refine h.bytesRead (fun hsum => ?_) all
  rwa [ull_of_lt (by omega) (by omega), ← Nat.cast_add, Int.toNat_natCast] at hsum

/-- **A read** of a block delivers the bytes of the file. -/
theorem Windowed.readBlock_ok (h : Windowed r) (pBuffer : Cells UInt8) {n count : Nat} {all : Bool}
    (hword : n < 2 ^ 63)
    (hcount : specCount r.contents.length r.ullCurrentFileOffset n all = .ok count)
    (hdst : count ≤ pBuffer.length) (hc : count ≤ r.ulCacheSize → CacheHolds r) :
    ∃ r', r.readBlock pBuffer n all
        = .ok (.ok (count, (slice r.contents r.ullCurrentFileOffset count).map some
            ++ pBuffer.drop count), r') ∧ Moved r count r' := by
  have hfits := specCount_le h.offset_le hcount
  rw [FileReader.readBlock, if_neg (by simp [h.status]), h.bytesRead_eq hword, hcount]
  rcases lt_or_ge r.ulCacheSize count with hmore | hcached
  · obtain ⟨r₁, hread, h₁, hcontents, hoffset⟩ := h.readMoreThanCache hfits hdst
    obtain ⟨h₂, hoffset₂⟩ := h₁.advance (hcontents.symm ▸ hoffset.symm ▸ hfits)
    have hsize : r₁.ulCacheSize = r.ulCacheSize := by
      unfold FileReader.readMoreThanCache at hread
      obtain ⟨read, -, hread⟩ := bind_eq_ok.mp hread
      rw [← (Prod.mk.inj (Except.ok.inj hread)).2]
    refine ⟨r₁.advance count, ?_, h₂, hcontents, hoffset₂.trans (by rw [hoffset]), hsize⟩
    simp only [if_pos hmore, hread, ok_bind]
    rfl
  · obtain ⟨r₁, hrefresh, h₁, hcovers, hoffset, hcontents⟩ :=
      h.refresh hcached hfits ((hc hcached).refillFits count)
    have hsize := cacheSize_refresh hrefresh
    rw [← hoffset, ← hcontents] at hfits ⊢
    obtain ⟨h₂, hoffset₂⟩ := h₁.advance hfits
    refine ⟨r₁.advance count, ?_, h₂, hcontents, hoffset₂.trans (by rw [hoffset]), hsize⟩
    simp only [if_neg (Nat.not_lt.mpr hcached), hrefresh, ok_bind,
      h₁.copyFromCache pBuffer hcovers hfits hdst]
    rfl

/-- A read through a cache without room goes past its end. -/
theorem Windowed.readBlock_outside (h : Windowed r) (pBuffer : Cells UInt8) {n count : Nat}
    {all : Bool} (hword : n < 2 ^ 63)
    (hcount : specCount r.contents.length r.ullCurrentFileOffset n all = .ok count)
    (hcached : count ≤ r.ulCacheSize) (hc : ¬ CacheHolds r) :
    r.readBlock pBuffer n all = .error .outOfBounds := by
  have hfits := specCount_le h.offset_le hcount
  rw [FileReader.readBlock, if_neg (by simp [h.status]), h.bytesRead_eq hword, hcount]
  simp only [if_neg (Nat.not_lt.mpr hcached), h.refresh_outside hcached hfits hc, error_bind]

/-- A read that is refused leaves the reader as it is. -/
theorem Windowed.readBlock_refused (h : Windowed r) (pBuffer : Cells UInt8) {n : Nat}
    {all : Bool} {err : ToolsError} (hword : n < 2 ^ 63)
    (hcount : specCount r.contents.length r.ullCurrentFileOffset n all = .error err) :
    r.readBlock pBuffer n all = .ok (.error err, r) := by
  rw [FileReader.readBlock, if_neg (by simp [h.status]), h.bytesRead_eq hword, hcount]

/-! ### Reading an integer -/

/-- No file is longer than its cache and has one below nine bytes. -/
theorem Windowed.le_cacheSize (h : Windowed r) {n : Nat} (hn : n ≤ minimumCacheSize)
    (hfits : r.ullCurrentFileOffset + n ≤ r.contents.length) : n ≤ r.ulCacheSize := by
  rcases h.cacheSize_large with hall | hlarge <;> omega

/-- **A read of an integer** puts the bytes of the file together. -/
theorem Windowed.readNetUnsignedInt_eq (h : Windowed r) (shifts : List Nat)
    (hn : shifts.length ≤ minimumCacheSize)
    (hfits : r.ullCurrentFileOffset + shifts.length ≤ r.contents.length) (hc : CacheHolds r) :
    ∃ r', r.readNetUnsignedInt shifts
        = (orShifted shifts ((slice r.contents r.ullCurrentFileOffset shifts.length).map some)
            >>= fun value => .ok (.ok (value.signExtend 64).toNat, r')) ∧
      Moved r shifts.length r' := by
  have hlt := r.length_contents_lt
  have hcached := h.le_cacheSize hn hfits
  have hsum : ¬ ull (r.ullCurrentFileOffset + shifts.length) > r.ullFileSize := by
    rw [ull_of_lt (by omega) (by omega), h.fileSize]
    omega
  obtain ⟨r₁, hrefresh, h₁, hcovers, hoffset, hcontents⟩ :=
    h.refresh hcached hfits (hc.refillFits _)
  have hsize := cacheSize_refresh hrefresh
  rw [FileReader.readNetUnsignedInt, if_neg (by simp [h.status]), if_neg hsum, hrefresh, ok_bind]
  rw [← hoffset, ← hcontents] at hfits ⊢
  obtain ⟨h₂, hoffset₂⟩ := h₁.advance hfits
  have hcopy := h₁.copyFromCache (List.replicate shifts.length none) hcovers hfits (by simp)
  rw [List.drop_replicate, Nat.sub_self, List.replicate_zero, List.append_nil] at hcopy
  refine ⟨r₁.advance shifts.length, ?_, h₂, hcontents, hoffset₂.trans (by rw [hoffset]), hsize⟩
  simp only [hcopy, ok_bind]
  rfl

/-- An integer read through a cache without room. -/
theorem Windowed.readNetUnsignedInt_outside (h : Windowed r) (shifts : List Nat)
    (hn : shifts.length ≤ minimumCacheSize)
    (hfits : r.ullCurrentFileOffset + shifts.length ≤ r.contents.length) (hc : ¬ CacheHolds r) :
    r.readNetUnsignedInt shifts = .error .outOfBounds := by
  have hlt := r.length_contents_lt
  have hsum : ¬ ull (r.ullCurrentFileOffset + shifts.length) > r.ullFileSize := by
    rw [ull_of_lt (by omega) (by omega), h.fileSize]
    omega
  rw [FileReader.readNetUnsignedInt, if_neg (by simp [h.status]), if_neg hsum,
    h.refresh_outside (h.le_cacheSize hn hfits) hfits hc, error_bind]

end FileReader

end CatraLibraries
