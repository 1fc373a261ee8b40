/-
# Runs of the cached file reader

Every call agrees with reading the file without a cache, so every sequence of calls
after `init` does: the same answers, the same errors and the same offset.  The
conditions are those of the single calls; `readNetUnsignedInt32Bit_negative` is the
read of four bytes `FF` whose value comes back with 64 bits set.
-/
import CatraLibraries.Tools.FileReaderCache

namespace CatraLibraries

open Memory

namespace FileReader

variable {r r' : FileReader}

/-! ### One call -/

/-- The condition under which a call is right. -/
def Meets (r : FileReader) : Call → Prop
  | .seek llBytes iWhence => r.contents ≠ [] → iWhence = .seekEnd → llBytes.toInt ≠ -2 ^ 63
  | .readChars pBuffer n all => BlockMeets pBuffer n all r
  | .readBytes pucValue n all => BlockMeets pucValue n all r
  | .readNetUnsignedInt8Bit => r.ullCurrentFileOffset + 1 ≤ r.contents.length → RefillFits 1 r
  | .readNetUnsignedInt16Bit => r.ullCurrentFileOffset + 2 ≤ r.contents.length → RefillFits 2 r
  | .readNetUnsignedInt24Bit => r.ullCurrentFileOffset + 3 ≤ r.contents.length → RefillFits 3 r
  | .readNetUnsignedInt32Bit =>
    r.ullCurrentFileOffset + 4 ≤ r.contents.length →
      RefillFits 4 r ∧ bigEndian (slice r.contents r.ullCurrentFileOffset 4) < 2 ^ 31
  | .readNetUnsignedInt64Bit => r.contents.length < r.ullCurrentFileOffset + 8

/-- Three bytes never reach the sign bit of an `int`. -/
theorem valueMeets_of_le_three {n : Nat} (hn : n ≤ 3)
    (h : r.ullCurrentFileOffset + n ≤ r.contents.length → RefillFits n r) : ValueMeets n r := by
  intro hfits
  refine ⟨h hfits, ?_⟩
  have hlt := bigEndian_lt (slice r.contents r.ullCurrentFileOffset n)
  rw [length_slice hfits] at hlt
  have : 2 ^ (8 * n) ≤ 2 ^ 24 := Nat.pow_le_pow_right (by decide) (by omega)
  omega

/-- A 64-bit integer that the file does not have room for is refused before the shifts. -/
theorem Windowed.readNetUnsignedInt64Bit (h : Windowed r)
    (hmore : r.contents.length < r.ullCurrentFileOffset + 8) :
    Agrees (exec .readNetUnsignedInt64Bit r) r.contents
      (specExec r.contents r.ullCurrentFileOffset .readNetUnsignedInt64Bit) := by
  have hlt := r.length_contents_lt
  have hle := h.offset_le
  have hsum : ull (r.ullCurrentFileOffset + (8 : Nat)) > r.ullFileSize := by
    rw [h.fileSize, ull_of_lt (by omega) (by omega)]
    omega
  have hrefused : r.readNetUnsignedInt64Bit = .ok (.error .activationWrong, r) := by
    rw [FileReader.readNetUnsignedInt64Bit, FileReader.readNetUnsignedInt,
      if_neg (by simp [h.status])]
    exact if_pos hsum
  rw [exec, hrefused, specExec, specValue, if_neg (by omega)]
  exact h.agrees_error _

/-- **Every call agrees with reading the file without a cache.** -/
theorem Windowed.exec (h : Windowed r) {c : Call} (hmeets : Meets r c) :
    Agrees (r.exec c) r.contents (specExec r.contents r.ullCurrentFileOffset c) := by
  cases c with
  | seek llBytes iWhence => exact h.seek hmeets
  | readChars pBuffer n all => exact h.readBlock hmeets
  | readBytes pucValue n all => exact h.readBlock hmeets
  | readNetUnsignedInt8Bit =>
    exact h.readNetUnsignedInt (n := 1) (by decide) (valueMeets_of_le_three (by decide) hmeets)
  | readNetUnsignedInt16Bit =>
    exact h.readNetUnsignedInt (n := 2) (by decide) (valueMeets_of_le_three (by decide) hmeets)
  | readNetUnsignedInt24Bit =>
    exact h.readNetUnsignedInt (n := 3) (by decide) (valueMeets_of_le_three (by decide) hmeets)
  | readNetUnsignedInt32Bit => exact h.readNetUnsignedInt (n := 4) (by decide) hmeets
  | readNetUnsignedInt64Bit => exact h.readNetUnsignedInt64Bit hmeets

/-! ### Sequences of calls -/

/-- Every call of the run meets its condition where it is made. -/
def RunMeets (r : FileReader) : List Call → Prop
  | [] => True
  | c :: calls => Meets r c ∧ ∀ a r', r.exec c = .ok (a, r') → RunMeets r' calls

theorem Windowed.run (h : Windowed r) (calls : List Call) (hmeets : RunMeets r calls) :
    ∃ answers r', run calls r = .ok (answers, r') ∧ Windowed r' ∧ r'.contents = r.contents ∧
      (answers, r'.ullCurrentFileOffset)
        = specRun r.contents r.ullCurrentFileOffset calls := by
  induction calls generalizing r with
  | nil => exact ⟨[], r, rfl, h, rfl, rfl⟩
  | cons c calls ih =>
    obtain ⟨hc, hrest⟩ := hmeets
    obtain ⟨r₁, hexec, h₁, hcontents, hoffset⟩ := h.exec hc
    obtain ⟨answers, r₂, hrun, h₂, hcontents₂, hspec⟩ := ih h₁ (hrest _ _ hexec)
    rw [hcontents, hoffset] at hspec
    refine ⟨(specExec r.contents r.ullCurrentFileOffset c).1 :: answers, r₂, ?_, h₂,
      hcontents₂.trans hcontents, ?_⟩
    · rw [FileReader.run, hexec, ok_bind]
      simp only [hrun, ok_bind]
      rfl
    · rw [specRun]
      simp only [← hspec]

/-- After a successful `init` the cache is empty and the offset at the start. -/
theorem init_windowed {openFile : String → Except ToolsError FileDescriptor}
    {pFilePath : Option String} {ulMaxCacheSize : Nat} {r₀ : FileReader}
    (h : init openFile pFilePath ulMaxCacheSize r₀ = .ok (.ok (), r)) :
    Windowed r ∧ r.ullCurrentFileOffset = 0 := by
  cases pFilePath with
  | none => simp [init] at h
  | some path =>
    rw [init] at h
    split_ifs at h with hmin hstatus
    · simp at h
    · simp at h
    · cases hopen : openFile path with
      | error err => simp [hopen] at h
      | ok fd =>
        have hsize := fd.length_lt
        simp only [hopen, FileDescriptor.seek] at h
        rw [alloc_ok (by omega), ok_bind] at h
        obtain rfl := (Prod.mk.inj (Except.ok.inj h)).2
        refine ⟨⟨rfl, rfl, Nat.zero_le _, ?_, ?_, List.length_replicate, Or.inl rfl⟩, rfl⟩
        · show (if ulMaxCacheSize > fd.contents.length then _ else _) ≤ fd.contents.length
          split_ifs <;> omega
        · show (if ulMaxCacheSize > fd.contents.length then _ else _) = fd.contents.length ∨
            minimumCacheSize < if ulMaxCacheSize > fd.contents.length then _ else _
          split_ifs <;> omega

/-- **The cache is transparent in every run.**  After `init`, a sequence of calls that
meet their conditions is answered as if the file were read without a cache, and a
further read returns exactly the bytes of the file from the offset on. -/
theorem cached_run {openFile : String → Except ToolsError FileDescriptor}
    {pFilePath : Option String} {ulMaxCacheSize : Nat} {r₀ : FileReader}
    (hinit : init openFile pFilePath ulMaxCacheSize r₀ = .ok (.ok (), r))
    (calls : List Call) (hmeets : RunMeets r calls) :
    ∃ answers r', run calls r = .ok (answers, r') ∧ r'.contents = r.contents ∧
      (answers, r'.ullCurrentFileOffset) = specRun r.contents 0 calls ∧
      ∀ c, Meets r' c → ∃ a r'', r'.exec c = .ok (a, r'') ∧
        (a, r''.ullCurrentFileOffset) = specExec r.contents r'.ullCurrentFileOffset c ∧
        ∀ answer, a = .ok answer →
          Delivers r.contents r'.ullCurrentFileOffset answer r''.ullCurrentFileOffset := by
  obtain ⟨h, hzero⟩ := init_windowed hinit
  obtain ⟨answers, r₁, hrun, h₁, hcontents, hspec⟩ := h.run calls hmeets
  rw [hzero] at hspec
  refine ⟨answers, r₁, hrun, hcontents, hspec, ?_⟩
  intro c hc
  obtain ⟨r₂, hexec, h₂, -, hoffset⟩ := h₁.exec hc
  rw [hcontents] at hexec hoffset
  refine ⟨_, r₂, hexec, by rw [hoffset], ?_⟩
  intro answer hanswer
  rw [hoffset]
  exact specExec_delivers (hcontents ▸ h₁.offset_le) hanswer

/-! ### Two small files -/

/-- `FileIO::open` on a file system whose only file has the given bytes. -/
def opening (contents : List UInt8) (h : contents.length < 2 ^ 63) :
    String → Except ToolsError FileDescriptor :=
  fun _ => .ok ⟨contents, 0, h⟩

/-- A reader on a file of six bytes, just opened. -/
def sixBytes : FileReader :=
  { frFileReaderStatus := .initialized
    iFileDescriptor := ⟨[10, 20, 30, 40, 50, 60], 6, by decide⟩
    pFilePath := some "f"
    pucCache := [none, none, none, none, none, none]
    ulCacheSize := 6
    ullCurrentFileOffset := 0
    ullCacheFileOffset := ull (-1)
    ullFileSize := 6 }

theorem sixBytes_windowed : Windowed sixBytes :=
  ⟨rfl, rfl, by decide, by decide, by decide, rfl, Or.inl rfl⟩

/-- A move, a read through the cache, and an integer. -/
def threeCalls : List Call :=
  [.seek 1 .seekSet, .readBytes [none, none] 2 true, .readNetUnsignedInt16Bit]

theorem sixBytes_refillFits {n : Nat} {r : FileReader} (h : r.ulCacheSize = 6) :
    RefillFits n r :=
  refillFits_of_lt (by omega)

theorem sixBytes_runMeets : RunMeets sixBytes threeCalls := by
  refine ⟨fun _ h => by simp at h, ?_⟩
  rintro a r₁ h₁
  obtain ⟨-, rfl⟩ := Prod.mk.inj (Except.ok.inj h₁)
  refine ⟨⟨by decide, fun count hcount => ⟨?_, sixBytes_refillFits rfl⟩⟩, ?_⟩
  · have : (2 : Nat) = count := Except.ok.inj hcount
    exact this ▸ le_rfl
  rintro a r₂ h₂
  obtain ⟨-, rfl⟩ := Prod.mk.inj (Except.ok.inj h₂)
  exact ⟨fun _ => sixBytes_refillFits rfl, fun _ _ _ => trivial⟩

theorem cached_run_sixBytes : ∃ answers r', run threeCalls sixBytes = .ok (answers, r') ∧
    (answers, r'.ullCurrentFileOffset)
      = ([.ok (.position 1), .ok (.block 2 [some 20, some 30]), .ok (.value 10290)], 5) := by
  have hinit : init (opening [10, 20, 30, 40, 50, 60] (by decide)) (some "f") 1024 built
      = .ok (.ok (), sixBytes) := rfl
  obtain ⟨answers, r', hrun, -, hspec, -⟩ := cached_run hinit threeCalls sixBytes_runMeets
  exact ⟨answers, r', hrun, hspec.trans rfl⟩

/-- A reader on a file of four bytes `FF`, just opened. -/
def fourFF : FileReader :=
  { frFileReaderStatus := .initialized
    iFileDescriptor := ⟨[255, 255, 255, 255], 4, by decide⟩
    pFilePath := some "f"
    pucCache := [none, none, none, none]
    ulCacheSize := 4
    ullCurrentFileOffset := 0
    ullCacheFileOffset := ull (-1)
    ullFileSize := 4 }

/-- **Four bytes `FF`.**  The `int` is −1, and its conversion to `unsigned long` is
2⁶⁴ − 1 and not 2³² − 1. -/
theorem readNetUnsignedInt32Bit_negative :
    ¬ ∀ (openFile : String → Except ToolsError FileDescriptor) (pFilePath : Option String)
      (ulMaxCacheSize : Nat) (r : FileReader),
      init openFile pFilePath ulMaxCacheSize built = .ok (.ok (), r) →
      ∀ c answer r', r.exec c = .ok (.ok answer, r') →
        Delivers r.contents r.ullCurrentFileOffset answer r'.ullCurrentFileOffset := by
  intro h
  have hexec : fourFF.exec .readNetUnsignedInt32Bit
      = .ok (.ok (.value (2 ^ 64 - 1)), fourFF.refilled.advance 4) := rfl
  have hdelivers := h (opening [255, 255, 255, 255] (by decide)) (some "f") 1024 fourFF rfl
    .readNetUnsignedInt32Bit _ _ hexec
  obtain ⟨n, -, -, hvalue, hoffset⟩ := hdelivers
  have hfour : 4 = 0 + n := hoffset
  obtain rfl : n = 4 := by omega
  revert hvalue
  decide

end FileReader

end CatraLibraries
