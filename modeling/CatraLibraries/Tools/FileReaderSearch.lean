/-
# Searching a file

`FileReader::seekBySearch` looks for a pattern through a block of the caller's size, and goes back
by one byte less than the pattern after each block.  Nothing compares the two sizes.

The places where the blocks start are those of `BlockSearch`, so that a block as long as the pattern
finds the first occurrence, and a search with a shorter one goes round for ever unless the end of
the file is near.  A block of no bytes is read again and again.  Besides this the search depends on
the room in the cache, where a block is read through it.
-/
import CatraLibraries.Lib.BlockSearch
import CatraLibraries.Tools.FileReaderReads
import CatraLibraries.Tools.FileReaderRun

namespace CatraLibraries

open Memory Substring BlockSearch

namespace FileReader

variable {pat : List UInt8} {size : ℕ} {r r₁ : FileReader}

/-! ### The code -/

/-- `ulBufferToSearchLength - 1`, which wraps around for an empty pattern. -/
def overlapLength (ulBufferToSearchLength : ℕ) : ℕ :=
  if ulBufferToSearchLength = 0 then 2 ^ 64 - 1 else ulBufferToSearchLength - 1

/-- The `for` loop over a block from `ulBufferSizeIndex` on, of whose bytes `left` are left. -/
def scanBlock (pucBufferToSearch : List UInt8) (pucBuffer : Cells UInt8) :
    (left ulBufferSizeIndex : ℕ) → Except Fault (Option ℕ)
  | 0, _ => .ok none
  | left + 1, ulBufferSizeIndex =>
    if left + 1 ≥ pucBufferToSearch.length then do
      -- `memcmp`
      let chars ← loads pucBuffer ulBufferSizeIndex pucBufferToSearch.length
      if chars = pucBufferToSearch then return some ulBufferSizeIndex
      else scanBlock pucBufferToSearch pucBuffer left (ulBufferSizeIndex + 1)
    else scanBlock pucBufferToSearch pucBuffer left (ulBufferSizeIndex + 1)

/-- The `while` loop; where the pattern is found, how many bytes of the block come from there on. -/
def searchLoop (pucBufferToSearch : List UInt8) (ulBufferSizeToBeUsed : ℕ) :
    (fuel : ℕ) → Cells UInt8 → FileReader → Except Fault (Outcome (Option ℕ))
  | 0, _, _ => .error .outOfFuel
  | fuel + 1, pucBuffer, r => do
    match ← r.readBytes pucBuffer ulBufferSizeToBeUsed false with
    | (.error _, r) => return (.ok none, r) -- whatever the error is
    | (.ok (ullCharsRead, pucBuffer), r) =>
      match ← scanBlock pucBufferToSearch pucBuffer ullCharsRead 0 with
      | some ulBufferSizeIndex => return (.ok (some (ullCharsRead - ulBufferSizeIndex)), r)
      | none =>
        if r.ullCurrentFileOffset < r.ullFileSize ∧
            overlapLength pucBufferToSearch.length ≤ r.ullCurrentFileOffset then
          match ← r.seek (.ofInt (-overlapLength pucBufferToSearch.length)) .seekCur with
          | (.error _, r) => return (.error .fileReaderSeekFailed, r)
          | (.ok _, r) => searchLoop pucBufferToSearch ulBufferSizeToBeUsed fuel pucBuffer r
        else searchLoop pucBufferToSearch ulBufferSizeToBeUsed fuel pucBuffer r

/-- `seekBySearch`. -/
def seekBySearch (fuel : ℕ) (pucBufferToSearch : List UInt8) (ulBufferSizeToBeUsed : ℕ)
    (r : FileReader) : Except Fault (Outcome Unit) :=
  if r.frFileReaderStatus ≠ .initialized then .ok (.error .operationNotAllowed, r)
  else do
    match ← r.seek 0 .seekSet with
    | (.error _, r) => return (.error .fileReaderSeekFailed, r)
    | (.ok _, r) =>
      let pucBuffer ← alloc (2 ^ 63 - 1) ulBufferSizeToBeUsed
      match ← searchLoop pucBufferToSearch ulBufferSizeToBeUsed fuel pucBuffer r with
      | (.error err, r) => return (.error err, r)
      | (.ok none, r) => return (.error .fileReaderBufferNotFound, r)
      | (.ok (some back), r) =>
        match ← r.seek (.ofInt (-back)) .seekCur with
        | (.error _, r) => return (.error .fileReaderSeekFailed, r)
        | (.ok _, r) => return (.ok (), r)

/-! ### One block -/

/-- **The scan** of a block finds where the pattern occurs first. -/
theorem scanBlock_eq (front : List UInt8) {bytes : List UInt8} (rest : Cells UInt8)
    (hne : pat ≠ [] ∨ bytes ≠ []) :
    scanBlock pat (front.map some ++ (bytes.map some ++ rest)) bytes.length front.length
      = .ok ((findSub pat bytes).map (front.length + ·)) := by
  induction bytes generalizing front with
  | nil =>
    rw [findSub, if_neg (hne.resolve_right (by simp))]
    rfl
  | cons b bytes ih =>
    have hstep : ¬ pat <+: b :: bytes →
        scanBlock pat (front.map some ++ ((b :: bytes).map some ++ rest)) bytes.length
            (front.length + 1)
          = .ok ((findSub pat (b :: bytes)).map (front.length + ·)) := by
      intro hpre
      have hpat : pat ≠ [] := by
        rintro rfl
        exact hpre List.nil_prefix
      have hnext := ih (front ++ [b]) (Or.inl hpat)
      rw [List.map_append, List.append_assoc, List.length_append] at hnext
      rw [findSub, if_neg hpre, Option.map_map]
      refine hnext.trans (congrArg (fun f => Except.ok ((findSub pat bytes).map f)) ?_)
      funext i
      show front.length + 1 + i = front.length + (i + 1)
      omega
    rw [List.length_cons, scanBlock]
    by_cases hlen : bytes.length + 1 ≥ pat.length
    · -- there are as many bytes as the pattern has, and they are read
      have hcells : (b :: bytes).map some ++ rest
          = ((b :: bytes).take pat.length).map some
            ++ (((b :: bytes).drop pat.length).map some ++ rest) := by
        rw [← List.append_assoc, ← List.map_append, List.take_append_drop]
      have hloads : loads (front.map some ++ ((b :: bytes).map some ++ rest)) front.length pat.length
          = .ok ((b :: bytes).take pat.length) := by
        have h := loads_append (front.map some)
          (((b :: bytes).drop pat.length).map some ++ rest) ((b :: bytes).take pat.length)
        rwa [← hcells, List.length_map, List.length_take, List.length_cons, min_eq_left hlen] at h
      rw [if_pos hlen, hloads, ok_bind]
      by_cases hpre : pat <+: b :: bytes
      · rw [if_pos (List.prefix_iff_eq_take.mp hpre).symm, findSub, if_pos hpre]
        rfl
      · rw [if_neg fun h => hpre (List.prefix_iff_eq_take.mpr h.symm)]
        exact hstep hpre
    · rw [if_neg hlen]
      exact hstep fun hpre => hlen (hpre.length_le.trans_eq List.length_cons)

/-- The reader `r₁` is in order, and is `r` at the place `o`. -/
structure Placed (r : FileReader) (o : ℕ) (r₁ : FileReader) : Prop where
  windowed : Windowed r₁
  contents : r₁.contents = r.contents
  offset : r₁.ullCurrentFileOffset = o
  cacheSize : r₁.ulCacheSize = r.ulCacheSize

/-- A block of the size that starts at the place can be read: it is longer than the cache and read
past it, or the cache has room. -/
def Readable (r : FileReader) (size o : ℕ) : Prop :=
  o < r.contents.length → min size (r.contents.length - o) ≤ r.ulCacheSize →
    CacheHolds { r with ullCurrentFileOffset := o }

theorem Placed.fileSize {o : ℕ} (h : Placed r o r₁) : r₁.ullFileSize = r.contents.length := by
  rw [h.windowed.fileSize, h.contents]

theorem Placed.le {o : ℕ} (h : Placed r o r₁) : o ≤ r.contents.length := by
  rw [← h.offset, ← h.contents]
  exact h.windowed.offset_le

theorem Placed.cacheHolds_iff (hr : Windowed r) {o : ℕ} (h : Placed r o r₁) :
    CacheHolds r₁ ↔ CacheHolds { r with ullCurrentFileOffset := o } := by
  simp only [CacheHolds, h.cacheSize, h.fileSize, h.offset, hr.fileSize]

theorem Placed.moved {o n : ℕ} (h : Placed r o r₁) {r₂ : FileReader} (h₂ : Moved r₁ n r₂) :
    Placed r (o + n) r₂ :=
  ⟨h₂.windowed, h₂.contents.trans h.contents, by rw [h₂.offset, h.offset],
    h₂.cacheSize.trans h.cacheSize⟩

/-- How many bytes a read at a place delivers. -/
theorem Placed.specCount_eq {o : ℕ} (h : Placed r o r₁) (hmore : o < r.contents.length) :
    specCount r₁.contents.length r₁.ullCurrentFileOffset size false
      = .ok (min size (r.contents.length - o)) := by
  rw [h.contents, h.offset, specCount]
  split_ifs <;> first | (exact congrArg Except.ok (by omega)) | omega

/-- **A move back** inside the file. -/
theorem Placed.seekBack {o : ℕ} (h : Placed r o r₁) (back : ℕ) (hback : back ≤ o)
    (hmore : o - back < r.contents.length) :
    ∃ r₂, r₁.seek (.ofInt (-back)) .seekCur = .ok (.ok (o - back), r₂) ∧
      Placed r (o - back) r₂ := by
  have hlt := r.length_contents_lt
  have hle := h.le
  have hint : (Int64.ofInt (-back)).toInt = -back :=
    Int64.toInt_ofInt_of_le (by omega) (by omega)
  have htarget : seekTarget r.contents.length o (.ofInt (-back)) .seekCur = o - back := by
    simp only [seekTarget, hint]
    rw [if_pos (by omega)]
    omega
  refine ⟨{ r₁ with ullCurrentFileOffset := o - back }, ?_, ?_⟩
  · rw [FileReader.seek, if_neg (by simp [h.windowed.status]), if_neg (by rw [h.fileSize]; omega),
      h.fileSize, h.offset, seekOffset_eq hle hlt (by simp), htarget]
    rfl
  · exact ⟨h.windowed.move (by rw [h.contents]; omega), h.contents, rfl, h.cacheSize⟩

/-! ### One round -/

/-- At the end of the file the loop ends. -/
theorem searchLoop_end {o : ℕ} (h : Placed r o r₁) (hpos : 0 < size) (hword : size < 2 ^ 63)
    (hend : r.contents.length ≤ o) (fuel : ℕ) (pucBuffer : Cells UInt8) :
    searchLoop pat size (fuel + 1) pucBuffer r₁ = .ok (.ok none, r₁) := by
  have hle := h.le
  have hcount : specCount r₁.contents.length r₁.ullCurrentFileOffset size false
      = .error .fileReaderReachedEndOfFile := by
    rw [h.contents, h.offset, specCount, if_neg (by omega), if_neg (by decide), if_pos (by omega)]
  rw [searchLoop, FileReader.readBytes, h.windowed.readBlock_refused pucBuffer hword hcount]
  rfl

/-- Where the cache has no room for the block, its end is overwritten. -/
theorem searchLoop_outside (hr : Windowed r) {o : ℕ} (h : Placed r o r₁) (hword : size < 2 ^ 63)
    (hread : ¬ Readable r size o) (fuel : ℕ) (pucBuffer : Cells UInt8) :
    searchLoop pat size (fuel + 1) pucBuffer r₁ = .error .outOfBounds := by
  rw [Readable, Classical.not_imp, Classical.not_imp] at hread
  obtain ⟨hmore, hcached, hc⟩ := hread
  have hblock := h.windowed.readBlock_outside pucBuffer hword (h.specCount_eq hmore)
    (h.cacheSize ▸ hcached) (mt (h.cacheHolds_iff hr).mp hc)
  rw [searchLoop, FileReader.readBytes, hblock, error_bind]

/-- The read of a block, and the scan. -/
theorem searchLoop_read (pat : List UInt8) (hr : Windowed r) {o : ℕ} (h : Placed r o r₁) (hpos : 0 < size)
    (hword : size < 2 ^ 63) (hmore : o < r.contents.length) (hread : Readable r size o)
    {pucBuffer : Cells UInt8} (hbuffer : pucBuffer.length = size) :
    ∃ m r₂, r₁.readBytes pucBuffer size false
        = .ok (.ok (min size (r.contents.length - o), m), r₂) ∧
      Placed r (o + min size (r.contents.length - o)) r₂ ∧ m.length = size ∧
      scanBlock pat m (min size (r.contents.length - o)) 0
        = .ok (findSub pat (block r.contents size o)) := by
  have hlen : (block r.contents size o).length = min size (r.contents.length - o) := by
    rw [block, List.length_take, List.length_drop]
  have hslice : slice r₁.contents r₁.ullCurrentFileOffset (min size (r.contents.length - o))
      = block r.contents size o := by
    rw [h.contents, h.offset]
    exact List.take_eq_take_iff.mpr (by rw [List.length_drop]; omega)
  obtain ⟨r₂, hblock, hmoved⟩ := h.windowed.readBlock_ok pucBuffer hword
    (h.specCount_eq hmore) (by omega) fun hcached =>
      (h.cacheHolds_iff hr).mpr (hread hmore (h.cacheSize ▸ hcached))
  rw [hslice] at hblock
  refine ⟨_, r₂, hblock, h.moved hmoved, ?_, ?_⟩
  · rw [List.length_append, List.length_map, hlen, List.length_drop]
    omega
  · have hscan := scanBlock_eq [] (pucBuffer.drop (min size (r.contents.length - o)))
      (show pat ≠ [] ∨ block r.contents size o ≠ [] from
        Or.inr (List.ne_nil_of_length_pos (by omega)))
    rw [hlen] at hscan
    refine hscan.trans (congrArg Except.ok ?_)
    simp

/-- A round that finds the pattern. -/
theorem searchLoop_found (hr : Windowed r) {o : ℕ} (h : Placed r o r₁) (hpos : 0 < size)
    (hword : size < 2 ^ 63) (hmore : o < r.contents.length) (hread : Readable r size o)
    {pucBuffer : Cells UInt8} (hbuffer : pucBuffer.length = size) {i : ℕ}
    (hi : findSub pat (block r.contents size o) = some i) (fuel : ℕ) :
    ∃ r₂, searchLoop pat size (fuel + 1) pucBuffer r₁
        = .ok (.ok (some (min size (r.contents.length - o) - i)), r₂) ∧
      Placed r (o + min size (r.contents.length - o)) r₂ := by
  obtain ⟨m, r₂, hblock, h₂, -, hscan⟩ :=
    searchLoop_read pat hr h hpos hword hmore hread hbuffer
  refine ⟨r₂, ?_, h₂⟩
  rw [searchLoop, hblock, ok_bind]
  simp only [hscan, hi, ok_bind]
  rfl

/-- **A round that does not** goes on where the next block starts. -/
theorem searchLoop_next (hr : Windowed r) {o : ℕ} (h : Placed r o r₁) (hword : size < 2 ^ 63)
    (hpos : 0 < size) (hends : ¬ Ends pat r.contents size o) (hread : Readable r size o)
    {pucBuffer : Cells UInt8} (hbuffer : pucBuffer.length = size) :
    ∃ m r₂, m.length = size ∧
      Placed r (next r.contents.length size (overlapLength pat.length) o) r₂ ∧
      ∀ fuel, searchLoop pat size (fuel + 1) pucBuffer r₁ = searchLoop pat size fuel m r₂ := by
  rw [Ends, not_or, not_le, not_not] at hends
  obtain ⟨hmore, hnone⟩ := hends
  obtain ⟨m, r₂, hblock, h₂, hlen, hscan⟩ :=
    searchLoop_read pat hr h hpos hword hmore hread hbuffer
  have hround : ∀ fuel, searchLoop pat size (fuel + 1) pucBuffer r₁
      = if r₂.ullCurrentFileOffset < r₂.ullFileSize ∧
            overlapLength pat.length ≤ r₂.ullCurrentFileOffset then
          (r₂.seek (.ofInt (-overlapLength pat.length)) .seekCur >>= fun a =>
            match a with
            | (.error _, r) => .ok (.error .fileReaderSeekFailed, r)
            | (.ok _, r) => searchLoop pat size fuel m r)
        else searchLoop pat size fuel m r₂ := by
    intro fuel
    rw [searchLoop, hblock, ok_bind]
    simp only [hscan, hnone, ok_bind]
    rfl
  simp only [h₂.offset, h₂.fileSize] at hround
  unfold BlockSearch.next
  by_cases hback : o + min size (r.contents.length - o) < r.contents.length ∧
      overlapLength pat.length ≤ o + min size (r.contents.length - o)
  · obtain ⟨r₃, hseek, h₃⟩ := h₂.seekBack _ hback.2 (by omega)
    refine ⟨m, r₃, hlen, ?_, fun fuel => ?_⟩
    · simpa only [if_pos hback] using h₃
    · rw [hround, if_pos hback, hseek, ok_bind]
  · refine ⟨m, r₂, hlen, ?_, fun fuel => ?_⟩
    · simpa only [if_neg hback] using h₂
    · rw [hround, if_neg hback]

/-! ### The search -/

/-- Where the blocks of the search start. -/
abbrev start (r : FileReader) (pat : List UInt8) (size k : ℕ) : ℕ :=
  place r.contents.length size (overlapLength pat.length) k

/-- **Every block** up to the one where the search ends can be read. -/
def BlocksReadable (r : FileReader) (pat : List UInt8) (size : ℕ) : Prop :=
  ∀ k, (∀ j < k, ¬ Ends pat r.contents size (start r pat size j)) →
    Readable r size (start r pat size k)

theorem readable_of_lt (hcache : r.ulCacheSize < 2 ^ 32) (o : ℕ) : Readable r size o :=
  fun _ _ => Or.inl hcache

theorem blocksReadable_of_lt (hcache : r.ulCacheSize < 2 ^ 32) : BlocksReadable r pat size :=
  fun _ _ => readable_of_lt hcache _

/-- **The rounds before the search ends** lead to the places one after the other. -/
theorem searchLoop_start (hr : Windowed r) (h₁ : Placed r 0 r₁) (hpos : 0 < size)
    (hword : size < 2 ^ 63) {pucBuffer : Cells UInt8} (hbuffer : pucBuffer.length = size) {n : ℕ}
    (hends : ∀ k < n, ¬ Ends pat r.contents size (start r pat size k))
    (hread : ∀ k < n, Readable r size (start r pat size k)) :
    ∃ m r₂, m.length = size ∧ Placed r (start r pat size n) r₂ ∧
      ∀ fuel, searchLoop pat size (n + fuel) pucBuffer r₁ = searchLoop pat size fuel m r₂ := by
  induction n with
  | zero => exact ⟨pucBuffer, r₁, hbuffer, h₁, fun fuel => by rw [Nat.zero_add]⟩
  | succ n ih =>
    obtain ⟨m, r₂, hm, h₂, hloop⟩ :=
      ih (fun k hk => hends k (Nat.lt_succ_of_lt hk)) fun k hk => hread k (Nat.lt_succ_of_lt hk)
    obtain ⟨m', r₃, hm', h₃, hround⟩ := searchLoop_next hr h₂ hword hpos
      (hends n (Nat.lt_succ_self n)) (hread n (Nat.lt_succ_self n)) hm
    refine ⟨m', r₃, hm', by rwa [start, place_succ], fun fuel => ?_⟩
    rw [Nat.add_assoc, Nat.add_comm 1, hloop, hround]

/-- A loop that comes to an end has read every block. -/
theorem exists_ends_of_searchLoop_eq_ok (hr : Windowed r) (h₁ : Placed r 0 r₁) (hpos : 0 < size)
    (hword : size < 2 ^ 63) {pucBuffer : Cells UInt8} (hbuffer : pucBuffer.length = size)
    {fuel : ℕ} {a : Outcome (Option ℕ)} (h : searchLoop pat size fuel pucBuffer r₁ = .ok a) :
    (∃ n, Ends pat r.contents size (start r pat size n)) ∧ BlocksReadable r pat size := by
  -- the first place where the search ends or the block cannot be read
  have hstop : ∃ n, n < fuel ∧ (Ends pat r.contents size (start r pat size n) ∨
      ¬ Readable r size (start r pat size n)) := by
    by_contra hnever
    have hgoes : ∀ k < fuel, ¬ Ends pat r.contents size (start r pat size k) ∧
        Readable r size (start r pat size k) := fun k hk => by
      by_contra hk'
      exact hnever ⟨k, hk, Decidable.not_and_iff_not_or_not.mp hk' |>.imp_left not_not.mp⟩
    obtain ⟨m, r₂, -, -, hloop⟩ := searchLoop_start hr h₁ hpos hword hbuffer
      (fun k hk => (hgoes k hk).1) fun k hk => (hgoes k hk).2
    have hout := hloop 0
    rw [Nat.add_zero, h] at hout
    exact absurd hout (by simp [searchLoop])
  classical
  obtain ⟨hfuel, hlast⟩ := Nat.find_spec hstop
  have hbefore : ∀ k < Nat.find hstop, ¬ Ends pat r.contents size (start r pat size k) ∧
      Readable r size (start r pat size k) := fun k hk => by
    have := not_and.mp (Nat.find_min hstop hk) (hk.trans hfuel)
    rwa [not_or, not_not] at this
  obtain ⟨m, r₂, -, h₂, hloop⟩ := searchLoop_start hr h₁ hpos hword hbuffer
    (fun k hk => (hbefore k hk).1) fun k hk => (hbefore k hk).2
  have hread : Readable r size (start r pat size (Nat.find hstop)) := by
    by_contra hout
    obtain ⟨left, hleft⟩ := Nat.exists_eq_add_of_lt hfuel
    rw [hleft, Nat.add_assoc, hloop, searchLoop_outside hr h₂ hword hout] at h
    exact absurd h (by simp)
  have hends := hlast.resolve_right (not_not.mpr hread)
  refine ⟨⟨_, hends⟩, fun k hk => ?_⟩
  rcases lt_trichotomy k (Nat.find hstop) with hlt | heq | hgt
  · exact (hbefore k hlt).2
  · exact heq ▸ hread
  · exact absurd hends (hk _ hgt)

/-- In a block that is not empty an occurrence starts at one of its bytes. -/
theorem findSub_lt_length {bytes : List UInt8} (hne : bytes ≠ []) {i : ℕ}
    (hi : findSub pat bytes = some i) : i < bytes.length := by
  obtain ⟨hle, hocc, hmin⟩ := findSub_eq_some_iff.mp hi
  refine hle.lt_of_ne fun hlast => ?_
  rw [hlast, List.drop_length, List.prefix_nil] at hocc
  refine hmin 0 (hlast ▸ List.length_pos_iff.mpr hne) ?_
  rw [hocc]
  exact List.nil_prefix

/-- The search starts at the start of the file. -/
theorem Windowed.rewind (hr : Windowed r) :
    ∃ p r₁, r.seek 0 .seekSet = .ok (.ok p, r₁) ∧ Placed r 0 r₁ := by
  have hle := hr.offset_le
  by_cases hempty : r.ullFileSize = 0
  · rw [hr.fileSize] at hempty
    refine ⟨r.ullCurrentFileOffset, r, ?_, hr, rfl, by omega, rfl⟩
    rw [FileReader.seek, if_neg (by simp [hr.status]), if_pos (hr.fileSize.trans hempty)]
  · refine ⟨0, { r with ullCurrentFileOffset := 0 }, ?_, hr.move (Nat.zero_le _), rfl, rfl, rfl⟩
    rw [FileReader.seek, if_neg (by simp [hr.status]), if_neg hempty]
    rfl

/-- What comes after the loop. -/
theorem seekBySearch_eq (pat : List UInt8) (hr : Windowed r) (hword : size < 2 ^ 63) :
    ∃ r₁, Placed r 0 r₁ ∧ ∀ fuel, r.seekBySearch fuel pat size
      = (searchLoop pat size fuel (List.replicate size none) r₁ >>= fun a =>
          match a with
          | (.error err, r) => .ok (.error err, r)
          | (.ok none, r) => .ok (.error .fileReaderBufferNotFound, r)
          | (.ok (some back), r) =>
            r.seek (.ofInt (-back)) .seekCur >>= fun b =>
              match b with
              | (.error _, r) => .ok (.error .fileReaderSeekFailed, r)
              | (.ok _, r) => .ok (.ok (), r)) := by
  obtain ⟨p, r₁, hseek, h₁⟩ := hr.rewind
  refine ⟨r₁, h₁, fun fuel => ?_⟩
  rw [seekBySearch, if_neg (by simp [hr.status]), hseek, ok_bind]
  simp only [alloc_ok (show size ≤ 2 ^ 63 - 1 by omega), ok_bind]
  rfl

/-- Without the memory for a block there is no search. -/
theorem seekBySearch_badAlloc (hr : Windowed r) (hword : 2 ^ 63 ≤ size) (fuel : ℕ) :
    r.seekBySearch fuel pat size = .error .badAlloc := by
  obtain ⟨p, r₁, hseek, -⟩ := hr.rewind
  rw [seekBySearch, if_neg (by simp [hr.status]), hseek, ok_bind]
  simp only [alloc_badAlloc (show 2 ^ 63 - 1 < size by omega), error_bind]

/-- **A search that ends** does so at the first place where it may: at the end of the file with
the error, and otherwise at the occurrence in the block. -/
theorem seekBySearch_ends (hr : Windowed r) (hpos : 0 < size) (hword : size < 2 ^ 63)
    (hends : ∃ n, Ends pat r.contents size (start r pat size n))
    (hread : BlocksReadable r pat size) :
    ∃ n fuel a r', r.seekBySearch fuel pat size = .ok (a, r') ∧
      (∀ k < n, ¬ Ends pat r.contents size (start r pat size k)) ∧
      (r.contents.length ≤ start r pat size n ∧ a = .error .fileReaderBufferNotFound ∨
        start r pat size n ≤ r.contents.length ∧
          ∃ i, findSub pat (block r.contents size (start r pat size n)) = some i ∧
            a = .ok () ∧ r'.ullCurrentFileOffset = start r pat size n + i) := by
  classical
  have hbefore : ∀ k < Nat.find hends, ¬ Ends pat r.contents size (start r pat size k) :=
    fun k hk => Nat.find_min hends hk
  obtain ⟨r₁, h₁, hcall⟩ := seekBySearch_eq pat hr hword
  obtain ⟨m, r₂, hm, h₂, hloop⟩ := searchLoop_start hr h₁ hpos hword List.length_replicate hbefore
    fun k hk => hread k fun j hj => hbefore j (hj.trans hk)
  have hlast := hread _ hbefore
  refine ⟨Nat.find hends, Nat.find hends + (0 + 1), ?_⟩
  rw [hcall, hloop]
  by_cases hend : r.contents.length ≤ start r pat size (Nat.find hends)
  · rw [searchLoop_end h₂ hpos hword hend]
    exact ⟨_, r₂, rfl, hbefore, Or.inl ⟨hend, rfl⟩⟩
  · have hmore := Nat.lt_of_not_le hend
    obtain ⟨i, hi⟩ := Option.ne_none_iff_exists'.mp ((Nat.find_spec hends).resolve_left hend)
    obtain ⟨r₃, hfound, h₃⟩ := searchLoop_found hr h₂ hpos hword hmore hlast hm hi 0
    -- the last seek goes back over what the block has from the occurrence on
    have hlen : (block r.contents size (start r pat size (Nat.find hends))).length
        = min size (r.contents.length - start r pat size (Nat.find hends)) := by
      rw [block, List.length_take, List.length_drop]
    have hlt := findSub_lt_length (List.ne_nil_of_length_pos (by omega)) hi
    obtain ⟨r₄, hseek, h₄⟩ := h₃.seekBack
      (min size (r.contents.length - start r pat size (Nat.find hends)) - i) (by omega) (by omega)
    rw [hfound, ok_bind]
    refine ⟨.ok (), r₄, ?_, hbefore, Or.inr ⟨hmore.le, i, hi, rfl, ?_⟩⟩
    · simp only [hseek, ok_bind]
    · rw [h₄.offset]
      omega

/-- A search that returns has come to an end and read every block. -/
theorem exists_ends_of_seekBySearch_eq_ok (hr : Windowed r) (hpos : 0 < size)
    (hword : size < 2 ^ 63) {fuel : ℕ} {o : Outcome Unit}
    (h : r.seekBySearch fuel pat size = .ok o) :
    (∃ n, Ends pat r.contents size (start r pat size n)) ∧ BlocksReadable r pat size := by
  obtain ⟨r₁, h₁, hcall⟩ := seekBySearch_eq pat hr hword
  rw [hcall] at h
  obtain ⟨a, hloop, -⟩ := bind_eq_ok.mp h
  exact exists_ends_of_searchLoop_eq_ok hr h₁ hpos hword List.length_replicate hloop

/-! ### Finding the first occurrence -/

/-- The search finds the first occurrence of the pattern in the file, or says that there is none.
-/
def Finds (r : FileReader) (pat : List UInt8) (size : ℕ) : Prop :=
  ∃ fuel a r', r.seekBySearch fuel pat size = .ok (a, r') ∧
    match findSub pat r.contents with
    | some i => a = .ok () ∧ r'.ullCurrentFileOffset = i
    | none => a = .error .fileReaderBufferNotFound

/-- What a search must do to find anything. -/
theorem Finds.blocksReadable (hr : Windowed r) (hpos : 0 < size) (h : Finds r pat size) :
    size < 2 ^ 63 ∧ BlocksReadable r pat size := by
  obtain ⟨fuel, a, r', hcall, -⟩ := h
  have hword : size < 2 ^ 63 := by
    by_contra hlarge
    rw [seekBySearch_badAlloc hr (Nat.le_of_not_lt hlarge)] at hcall
    exact absurd hcall (by simp)
  exact ⟨hword, (exists_ends_of_seekBySearch_eq_ok hr hpos hword hcall).2⟩

/-- **When the first occurrence is found**: the block can be allocated and every block can be read.
-/
theorem finds_iff (hr : Windowed r) (hne : pat ≠ []) (hsize : pat.length ≤ size) :
    Finds r pat size ↔ size < 2 ^ 63 ∧ BlocksReadable r pat size := by
  have hlen : 0 < pat.length := List.length_pos_iff.mpr hne
  have hpos : 0 < size := by omega
  have hoverlap : overlapLength pat.length = pat.length - 1 := if_neg (by omega)
  refine ⟨fun h => h.blocksReadable hr hpos, ?_⟩
  rintro ⟨hword, hread⟩
  have hends : ∃ n, Ends pat r.contents size (start r pat size n) := by
    simp only [start, hoverlap]
    exact exists_ends hne hsize
  obtain ⟨n, fuel, a, r', hcall, hbefore, hend⟩ := seekBySearch_ends hr hpos hword hends hread
  simp only [start, hoverlap] at hbefore hend
  have hclear := clear_place hne hsize hbefore
  refine ⟨fuel, a, r', hcall, ?_⟩
  obtain ⟨hover, ha⟩ | ⟨hle, i, hi, ha, hoffset⟩ := hend
  · rw [hclear.findSub_eq_none hne hover]
    exact ha
  · rw [hclear.findSub_eq_some hle hi]
    exact ⟨ha, hoffset⟩

/-- Two bytes in the middle of the file, across two blocks. -/
theorem finds_sixBytes : Finds sixBytes [30, 40] 3 :=
  (finds_iff sixBytes_windowed (by decide) (by decide)).mpr
    ⟨by decide, blocksReadable_of_lt (by decide)⟩

/-- A file of four GiB, all of it zeros. -/
def zeros : List UInt8 := List.replicate (2 ^ 32) 0

theorem length_zeros : zeros.length = 2 ^ 32 := List.length_replicate

theorem length_zeros_lt : zeros.length < 2 ^ 63 := length_zeros.trans_lt (by decide)

/-- A reader on this file, just opened with a cache of four GiB: `new` is asked for the remainder
by 2³². -/
def fourGiB : FileReader :=
  { frFileReaderStatus := .initialized
    iFileDescriptor := ⟨zeros, 2 ^ 32, length_zeros_lt⟩
    pFilePath := some "f"
    pucCache := []
    ulCacheSize := 2 ^ 32
    ullCurrentFileOffset := 0
    ullCacheFileOffset := ull (-1)
    ullFileSize := 2 ^ 32 }

theorem init_fourGiB :
    init (opening zeros length_zeros_lt) (some "f") (2 ^ 32) built = .ok (.ok (), fourGiB) := by
  simp only [init, opening, built, FileDescriptor.seek, length_zeros, ne_eq, not_true_eq_false,
    if_false, gt_iff_lt, lt_irrefl, Nat.mod_self, alloc, Nat.zero_le, if_true, ok_bind]
  rfl

/-- **The cache of four GiB.**  The first byte is read into a cache of no bytes. -/
theorem not_finds_fourGiB :
    init (opening zeros length_zeros_lt) (some "f") (2 ^ 32) built = .ok (.ok (), fourGiB) ∧
      ¬ Finds fourGiB [0] 1 := by
  refine ⟨init_fourGiB, fun h => ?_⟩
  obtain ⟨hr, -⟩ := init_windowed init_fourGiB
  have hread := (h.blocksReadable hr (by decide)).2 0 nofun
  have hlen : fourGiB.contents.length = 2 ^ 32 := length_zeros
  have hholds : 2 ^ 32 < 2 ^ 32 ∨ 2 ^ 32 - 0 ≤ 2 ^ 32 % 2 ^ 32 :=
    hread (by rw [hlen]; decide) (by rw [hlen]; decide)
  exact absurd hholds (by decide)

/-! ### Coming to an end -/

/-- The search comes to an end: it returns, or `new` throws. -/
def Terminates (r : FileReader) (pat : List UInt8) (size : ℕ) : Prop :=
  (alloc (2 ^ 63 - 1) size : Except Fault (Cells UInt8)) = .error .badAlloc ∨
    ∃ fuel o, r.seekBySearch fuel pat size = .ok o

/-- A block of no bytes is read for ever. -/
theorem searchLoop_zero (h : Placed r 0 r₁) (fuel : ℕ) (pucBuffer : Cells UInt8)
    (a : Outcome (Option ℕ)) : searchLoop pat 0 fuel pucBuffer r₁ ≠ .ok a := by
  induction fuel generalizing r₁ pucBuffer with
  | zero => simp [searchLoop]
  | succ fuel ih =>
    have hcount : specCount r₁.contents.length r₁.ullCurrentFileOffset 0 false = .ok 0 := by
      rw [specCount, Nat.add_zero, if_pos h.windowed.offset_le]
    by_cases hc : CacheHolds r₁
    · obtain ⟨r₂, hblock, hmoved⟩ := h.windowed.readBlock_ok pucBuffer (by decide)
        hcount (Nat.zero_le _) fun _ => hc
      have h₂ : Placed r 0 r₂ := h.moved hmoved
      rw [searchLoop, FileReader.readBytes, hblock, ok_bind]
      simp only [scanBlock, ok_bind]
      split_ifs with hback
      · obtain ⟨hmore, hle⟩ := hback
        rw [h₂.offset] at hle
        rw [h₂.offset, h₂.fileSize] at hmore
        obtain ⟨r₃, hseek, h₃⟩ := h₂.seekBack _ hle (by omega)
        rw [hseek, ok_bind]
        rw [Nat.zero_sub] at h₃
        exact ih h₃ _
      · exact ih h₂ _
    · rw [searchLoop, FileReader.readBytes, h.windowed.readBlock_outside pucBuffer (by decide)
        hcount (Nat.zero_le _) hc, error_bind]
      simp

/-- The search ends at some place. -/
theorem exists_ends_iff (hpos : 0 < size) :
    (∃ n, Ends pat r.contents size (start r pat size n)) ↔
      pat = [] ∨ pat.length ≤ size ∨
        r.contents.length ≤ pat.length - 1 - Nat.gcd size (pat.length - 1) + size := by
  by_cases hnil : pat = []
  · refine iff_of_true ⟨0, Or.inr ?_⟩ (Or.inl hnil)
    rw [← Option.isSome_iff_ne_none, findSub_isSome_iff, hnil]
    exact List.nil_infix
  have hlen : 0 < pat.length := List.length_pos_iff.mpr hnil
  have hoverlap : overlapLength pat.length = pat.length - 1 := if_neg (by omega)
  simp only [or_iff_right hnil, start, hoverlap]
  rcases le_or_gt pat.length size with hle | hlt
  · exact iff_of_true (exists_ends hnil hle) (Or.inl hle)
  · simp only [ends_iff_of_lt hlt]
    rw [or_iff_right (Nat.not_le_of_lt hlt), exists_length_le_place_iff (by omega) hpos]

/-- **When the search comes to an end**: the block has a byte, the pattern is empty or not longer
than the block or the end of the file is near, and every block can be read. -/
theorem terminates_iff (hr : Windowed r) :
    Terminates r pat size ↔ 2 ^ 63 ≤ size ∨ 0 < size ∧
      (pat = [] ∨ pat.length ≤ size ∨
        r.contents.length ≤ pat.length - 1 - Nat.gcd size (pat.length - 1) + size) ∧
      BlocksReadable r pat size := by
  rcases le_or_gt (2 ^ 63) size with hlarge | hword
  · exact iff_of_true (Or.inl (alloc_badAlloc (by omega))) (Or.inl hlarge)
  rw [Terminates, alloc_ok (show size ≤ 2 ^ 63 - 1 by omega), or_iff_right (by simp),
    or_iff_right (Nat.not_le_of_lt hword)]
  rcases Nat.eq_zero_or_pos size with rfl | hpos
  · refine iff_of_false ?_ fun h => absurd h.1 (lt_irrefl 0)
    rintro ⟨fuel, o, hcall⟩
    obtain ⟨r₁, h₁, heq⟩ := seekBySearch_eq pat hr hword
    rw [heq] at hcall
    obtain ⟨a, hloop, -⟩ := bind_eq_ok.mp hcall
    exact searchLoop_zero h₁ fuel _ a hloop
  · rw [and_iff_right hpos, ← exists_ends_iff hpos]
    constructor
    · rintro ⟨fuel, o, hcall⟩
      exact exists_ends_of_seekBySearch_eq_ok hr hpos hword hcall
    · rintro ⟨hends, hread⟩
      obtain ⟨n, fuel, a, r', hcall, -, -⟩ := seekBySearch_ends hr hpos hword hends hread
      exact ⟨fuel, (a, r'), hcall⟩

/-- A pattern of two bytes and a block of four. -/
theorem terminates_sixBytes : Terminates sixBytes [30, 40] 4 :=
  (terminates_iff sixBytes_windowed).mpr
    (Or.inr ⟨by decide, Or.inr (Or.inl (by decide)), blocksReadable_of_lt (by decide)⟩)

/-- **A block shorter than the pattern.**  After each byte the reader goes back to it. -/
theorem not_terminates_twoBytes : ¬ Terminates sixBytes [20, 30] 1 := by
  rintro (hfull | ⟨fuel, o, hcall⟩)
  · rw [alloc_ok (by decide)] at hfull
    exact absurd hfull (by simp)
  · have hends := (exists_ends_of_seekBySearch_eq_ok sixBytes_windowed (by decide) (by decide)
      hcall).1
    rw [exists_ends_iff (by decide)] at hends
    revert hends
    decide

end FileReader

end CatraLibraries
