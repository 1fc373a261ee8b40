/-
# Numbers in a file

The integers that `FileReader` reads in network order, and the size of a descriptor in an MP4 file,
which takes seven bits of each byte and goes on while the eighth is set, up to four bytes.

The bytes of an integer are shifted as `int`.  Up to 24 bits that is right.  Of four bytes the first
reaches the sign, which the conversion to `unsigned long` extends, and of eight bytes the first is
shifted by more than an `int` has.
-/
import CatraLibraries.Lib.Percent
import CatraLibraries.Tools.FileReaderReads
import CatraLibraries.Tools.FileReaderRun

namespace CatraLibraries

open Memory

namespace FileReader

variable {r r' : FileReader}

/-! ### The size of a descriptor -/

/-- The loop of `readMP4DescriptorSize`; `*pucNumBytes < 4` ends it after four turns. -/
def readMP4DescriptorSizeLoop :
    Nat → Nat → Nat → FileReader → Except Fault (Outcome (Nat × Nat))
  | 0, _, _, _ => .error .outOfFuel
  | fuel + 1, pulSize, pucNumBytes, r => do
    match ← r.readNetUnsignedInt8Bit with
    | (.error _, r) => return (.error .fileReaderReadNetUnsignedInt8BitFailed, r)
    | (.ok ulTmp, r) =>
      let ucTmp := ulTmp % 2 ^ 8
      let pulSize := pulSize <<< 7 % 2 ^ 64 ||| ucTmp &&& 0x7F
      let pucNumBytes := (pucNumBytes + 1) % 2 ^ 8
      if ucTmp &&& 0x80 ≠ 0 ∧ pucNumBytes < 4 then
        readMP4DescriptorSizeLoop fuel pulSize pucNumBytes r
      else return (.ok (pulSize, pucNumBytes), r)

/-- `readMP4DescriptorSize`: the size and the number of its bytes. -/
def readMP4DescriptorSize (r : FileReader) : Except Fault (Outcome (Nat × Nat)) :=
  if r.frFileReaderStatus ≠ .initialized then .ok (.error .operationNotAllowed, r)
  else readMP4DescriptorSizeLoop 4 0 0 r

/-- The value of bytes of which each contributes seven bits, behind a value that has been read. -/
def base128 (bytes : List UInt8) (v : Nat := 0) : Nat :=
  bytes.foldl (fun v b => v * 2 ^ 7 + b.toNat % 2 ^ 7) v

/-! ### One number -/

/-- The call returns the value of the `n` bytes at the offset, and goes behind them. -/
def ReadsNumber (n : Nat) (call : FileReader → Except Fault (Outcome Nat)) (r : FileReader) : Prop :=
  ∃ r', call r = .ok (.ok (bigEndian (slice r.contents r.ullCurrentFileOffset n)), r') ∧
    r'.ullCurrentFileOffset = r.ullCurrentFileOffset + n

/-- The conversion of an `int` keeps the value of its bits exactly below 2³¹. -/
theorem signExtend_ofNat_iff {v : Nat} (h : v < 2 ^ 32) :
    ((BitVec.ofNat 32 v).signExtend 64).toNat = v ↔ v < 2 ^ 31 := by
  refine ⟨fun heq => ?_, signExtend_ofNat⟩
  rw [BitVec.toNat_signExtend, BitVec.toNat_setWidth, BitVec.toNat_ofNat] at heq
  by_contra hlarge
  have hmsb : (BitVec.ofNat 32 v).msb = true := by
    rw [BitVec.msb_eq_true_iff_two_mul_ge, BitVec.toNat_ofNat]
    omega
  rw [if_pos hmsb] at heq
  omega

/-- **An integer of up to four bytes** is right exactly where the cache has room and the value stays
below the sign of an `int`. -/
theorem readsNumber_iff (h : Windowed r) {n : Nat} (hn : n ≤ 4)
    (hfits : r.ullCurrentFileOffset + n ≤ r.contents.length) :
    ReadsNumber n (readNetUnsignedInt (netShifts n)) r ↔
      CacheHolds r ∧ bigEndian (slice r.contents r.ullCurrentFileOffset n) < 2 ^ 31 := by
  have hlen := length_slice hfits
  have hshifts := length_netShifts n
  have hsmall : (netShifts n).length ≤ minimumCacheSize := by
    rw [hshifts]
    exact hn.trans (by decide)
  have hvalue : bigEndian (slice r.contents r.ullCurrentFileOffset n) < 2 ^ 32 := by
    have hlt := bigEndian_lt (slice r.contents r.ullCurrentFileOffset n)
    rw [hlen] at hlt
    exact hlt.trans_le (Nat.pow_le_pow_right (by decide) (by omega))
  by_cases hc : CacheHolds r
  · obtain ⟨r₁, hcall, hmoved⟩ := h.readNetUnsignedInt_eq _ hsmall (hshifts.symm ▸ hfits) hc
    have hint := orShifted_netShifts (slice r.contents r.ullCurrentFileOffset n) (hlen.symm ▸ hn)
    rw [hlen] at hint
    rw [hshifts] at hcall hmoved
    rw [hint, ok_bind] at hcall
    rw [and_iff_right hc, ← signExtend_ofNat_iff hvalue]
    constructor
    · rintro ⟨r₂, hcall₂, -⟩
      exact Except.ok.inj (Prod.mk.inj (Except.ok.inj (hcall.symm.trans hcall₂))).1
    · intro heq
      exact ⟨r₁, by rw [hcall, heq], hmoved.offset⟩
  · refine iff_of_false ?_ fun hboth => hc hboth.1
    rintro ⟨r₁, hcall, -⟩
    rw [h.readNetUnsignedInt_outside _ hsmall (hshifts.symm ▸ hfits) hc] at hcall
    exact absurd hcall (by simp)

/-- Three bytes never reach the sign. -/
theorem readsNumber_iff_of_le_three (h : Windowed r) {n : Nat} (hn : n ≤ 3)
    (hfits : r.ullCurrentFileOffset + n ≤ r.contents.length) :
    ReadsNumber n (readNetUnsignedInt (netShifts n)) r ↔ CacheHolds r := by
  rw [readsNumber_iff h (hn.trans (by decide)) hfits, and_iff_left]
  have hlt := bigEndian_lt (slice r.contents r.ullCurrentFileOffset n)
  rw [length_slice hfits] at hlt
  exact hlt.trans_le (Nat.pow_le_pow_right (by decide) (by omega))

/-- Eight bytes never give a value: the first is shifted by 56. -/
theorem not_readsNumber_eight (h : Windowed r)
    (hfits : r.ullCurrentFileOffset + 8 ≤ r.contents.length) :
    ¬ ReadsNumber 8 readNetUnsignedInt64Bit r := by
  rintro ⟨r₁, hcall, -⟩
  rw [readNetUnsignedInt64Bit] at hcall
  by_cases hc : CacheHolds r
  · obtain ⟨r₂, hcall₂, -⟩ :=
      h.readNetUnsignedInt_eq [56, 48, 40, 32, 24, 16, 8, 0] (by decide) hfits hc
    have hlen : (slice r.contents r.ullCurrentFileOffset 8).length = 8 := length_slice hfits
    obtain ⟨b, bytes, hbytes⟩ := List.exists_cons_of_length_eq_add_one hlen
    have hshift : orShifted [56, 48, 40, 32, 24, 16, 8, 0]
        ((slice r.contents r.ullCurrentFileOffset 8).map some) = .error .undefinedArithmetic := by
      rw [hbytes]
      rfl
    rw [hcall₂] at hcall
    rw [show [56, 48, 40, 32, 24, 16, 8, 0].length = 8 from rfl, hshift, error_bind] at hcall
    exact absurd hcall (by simp)
  · have houtside := h.readNetUnsignedInt_outside [56, 48, 40, 32, 24, 16, 8, 0]
      (by decide) hfits hc
    exact absurd (houtside.symm.trans hcall) (by simp)

/-! ### The descriptor -/

theorem bigEndian_singleton (b : UInt8) : bigEndian [b] = b.toNat := by
  rw [bigEndian_cons, List.length_nil, Nat.mul_zero, Nat.pow_zero, Nat.mul_one]
  rfl

/-- The next byte. -/
theorem readByte (h : Windowed r) {b : UInt8} {rest : List UInt8}
    (hb : r.contents.drop r.ullCurrentFileOffset = b :: rest) (hc : CacheHolds r) :
    ∃ r', r.readNetUnsignedInt8Bit = .ok (.ok b.toNat, r') ∧ Moved r 1 r' := by
  have hfits : r.ullCurrentFileOffset + 1 ≤ r.contents.length := by
    have hlen := congrArg List.length hb
    rw [List.length_drop, List.length_cons] at hlen
    omega
  obtain ⟨r₁, hcall, hmoved⟩ := h.readNetUnsignedInt_eq [0] (by decide) hfits hc
  have hslice : slice r.contents r.ullCurrentFileOffset 1 = [b] := by
    rw [slice, hb]
    rfl
  have hint : orShifted [0] [some b] = .ok (BitVec.ofNat 32 (bigEndian [b])) :=
    orShifted_netShifts [b] (by simp)
  have hbyte := b.toNat_lt
  rw [List.length_singleton, hslice, List.map_singleton, hint, ok_bind, bigEndian_singleton,
    signExtend_ofNat (by omega)] at hcall
  exact ⟨r₁, hcall, hmoved⟩

theorem readByte_outside (h : Windowed r) {b : UInt8} {rest : List UInt8}
    (hb : r.contents.drop r.ullCurrentFileOffset = b :: rest) (hc : ¬ CacheHolds r) :
    r.readNetUnsignedInt8Bit = .error .outOfBounds := by
  refine h.readNetUnsignedInt_outside [0] (by decide) ?_ hc
  have hlen := congrArg List.length hb
  rw [List.length_drop, List.length_cons] at hlen
  show r.ullCurrentFileOffset + 1 ≤ r.contents.length
  omega

/-- The low seven bits of a byte move in at the right. -/
theorem pushSeven_eq {v : Nat} (hv : v < 2 ^ 21) (b : UInt8) :
    (v <<< 7 % 2 ^ 64 ||| b.toNat % 2 ^ 8 &&& 0x7F) = v * 2 ^ 7 + b.toNat % 2 ^ 7 := by
  have hbyte := b.toNat_lt
  have hlow : b.toNat % 2 ^ 8 &&& 0x7F = b.toNat % 2 ^ 7 := by
    rw [Nat.mod_eq_of_lt hbyte]
    exact Nat.and_two_pow_sub_one_eq_mod b.toNat 7
  have hshift : v <<< 7 % 2 ^ 64 = v <<< 7 := by
    rw [Nat.shiftLeft_eq]
    exact Nat.mod_eq_of_lt (by omega)
  rw [hlow, hshift, ← Nat.shiftLeft_add_eq_or_of_lt (Nat.mod_lt _ (by decide)), Nat.shiftLeft_eq]

/-- The eighth bit of a byte. -/
theorem eighthBit_iff (b : UInt8) : b.toNat % 2 ^ 8 &&& 0x80 ≠ 0 ↔ 128 ≤ b := by
  refine Percent.forall_uint8 (P := fun b => b.toNat % 2 ^ 8 &&& 0x80 ≠ 0 ↔ 128 ≤ b) ?_ ?_ ?_ ?_ b
  all_goals decide +kernel

/-- **The loop** takes the bytes up to the first without its eighth bit, or the fourth. -/
theorem readMP4DescriptorSizeLoop_eq (front : List UInt8) {last : UInt8} {rest : List UInt8}
    (h : Windowed r) (hdrop : r.contents.drop r.ullCurrentFileOffset = front ++ last :: rest)
    (hfront : ∀ b ∈ front, 128 ≤ b) {n : Nat} (hlast : last < 128 ∨ n + front.length = 3)
    (hn : n + front.length ≤ 3) (hc : CacheHolds r) (fuel : Nat) (hfuel : front.length < fuel)
    {v : Nat} (hv : v < 2 ^ (7 * n)) :
    ∃ r', readMP4DescriptorSizeLoop fuel v n r
        = .ok (.ok (base128 (front ++ [last]) v, n + front.length + 1), r') ∧
      Moved r (front.length + 1) r' := by
  have hsmall : v < 2 ^ 21 := hv.trans_le (Nat.pow_le_pow_right (by decide) (by omega))
  induction front generalizing r n fuel v with
  | nil =>
    obtain ⟨fuel, rfl⟩ := Nat.exists_eq_succ_of_ne_zero (Nat.pos_iff_ne_zero.mp hfuel)
    obtain ⟨r₁, hcall, hmoved⟩ := readByte h hdrop hc
    have hstop : ¬ (last.toNat % 2 ^ 8 &&& 0x80 ≠ 0 ∧ (n + 1) % 2 ^ 8 < 4) := by
      rintro ⟨hbit, hless⟩
      have hhigh := (eighthBit_iff last).mp hbit
      rw [List.length_nil] at hlast hn
      rcases hlast with hlow | hthree
      · exact absurd hlow (UInt8.not_lt.mpr hhigh)
      · omega
    refine ⟨r₁, ?_, hmoved⟩
    rw [readMP4DescriptorSizeLoop, hcall, ok_bind]
    dsimp only
    rw [if_neg hstop, pushSeven_eq hsmall]
    rw [List.length_nil] at hn ⊢
    rw [Nat.mod_eq_of_lt (show n + 1 < 2 ^ 8 by omega)]
    rfl
  | cons b front ih =>
    obtain ⟨fuel, rfl⟩ := Nat.exists_eq_succ_of_ne_zero
      (Nat.pos_iff_ne_zero.mp (Nat.lt_of_le_of_lt (Nat.zero_le _) hfuel))
    rw [List.length_cons] at hlast hn hfuel
    obtain ⟨r₁, hcall, hmoved⟩ := readByte h hdrop hc
    have hmore : b.toNat % 2 ^ 8 &&& 0x80 ≠ 0 ∧ (n + 1) % 2 ^ 8 < 4 :=
      ⟨(eighthBit_iff b).mpr (hfront b (by simp)), by omega⟩
    have hdrop₁ : r₁.contents.drop r₁.ullCurrentFileOffset = front ++ last :: rest := by
      rw [hmoved.contents, hmoved.offset, ← List.drop_drop, hdrop]
      rfl
    have hpush : v * 2 ^ 7 + b.toNat % 2 ^ 7 < 2 ^ (7 * (n + 1)) := by
      have hmod := Nat.mod_lt b.toNat (show 0 < 2 ^ 7 by decide)
      rw [Nat.mul_add, Nat.pow_add]
      omega
    obtain ⟨r₂, hloop, hmoved₂⟩ := ih hmoved.windowed hdrop₁
      (fun c hc => hfront c (List.mem_cons_of_mem b hc)) (n := n + 1)
      (hlast.imp_right fun hthree => by omega) (by omega)
      (hmoved.cacheHolds h hc) fuel (by omega) hpush
      (hpush.trans_le (Nat.pow_le_pow_right (by decide) (by omega)))
    refine ⟨r₂, ?_, ?_⟩
    · rw [readMP4DescriptorSizeLoop, hcall, ok_bind]
      dsimp only
      rw [if_pos hmore, pushSeven_eq hsmall, Nat.mod_eq_of_lt (show n + 1 < 2 ^ 8 by omega), hloop,
        List.length_cons, Nat.add_assoc n 1, Nat.add_comm 1]
      rfl
    · have := hmoved.trans hmoved₂
      rwa [Nat.add_comm 1] at this

/-- The call returns the value and the number of the bytes of a descriptor, and goes behind them. -/
def ReadsDescriptor (bytes : List UInt8) (r : FileReader) : Prop :=
  ∃ r', r.readMP4DescriptorSize = .ok (.ok (base128 bytes, bytes.length), r') ∧
    r'.ullCurrentFileOffset = r.ullCurrentFileOffset + bytes.length

/-- **The size of a descriptor** is right exactly where the cache has room. -/
theorem readsDescriptor_iff (h : Windowed r) {front : List UInt8} {last : UInt8}
    {rest : List UInt8} (hdrop : r.contents.drop r.ullCurrentFileOffset = front ++ last :: rest)
    (hfront : ∀ b ∈ front, 128 ≤ b) (hlast : last < 128 ∨ front.length = 3)
    (hn : front.length ≤ 3) : ReadsDescriptor (front ++ [last]) r ↔ CacheHolds r := by
  have hstatus : ¬ r.frFileReaderStatus ≠ .initialized := by simp [h.status]
  constructor
  · rintro ⟨r', hcall, -⟩
    by_contra hc
    have hbyte : ∃ b rest, r.contents.drop r.ullCurrentFileOffset = b :: rest := by
      cases front with
      | nil => exact ⟨last, rest, hdrop⟩
      | cons b front => exact ⟨b, front ++ last :: rest, hdrop⟩
    obtain ⟨b, tail, hb⟩ := hbyte
    rw [readMP4DescriptorSize, if_neg hstatus, readMP4DescriptorSizeLoop,
      readByte_outside h hb hc, error_bind] at hcall
    exact absurd hcall (by simp)
  · intro hc
    obtain ⟨r', hloop, hmoved⟩ := readMP4DescriptorSizeLoop_eq front h hdrop hfront (n := 0)
      (by rwa [Nat.zero_add]) (by omega) hc 4 (by omega) (v := 0) (by decide)
    refine ⟨r', ?_, ?_⟩
    · rw [readMP4DescriptorSize, if_neg hstatus, hloop, Nat.zero_add, List.length_append,
        List.length_singleton]
    · rw [hmoved.offset, List.length_append, List.length_singleton]

/-! ### All of them -/

/-- **Which numbers are right.**  Integers of 8, 16 and 24 bits and the size of a descriptor are,
wherever the cache has room for a refill; one of 32 bits also has to stay below 2³¹; one of 64 bits
never is. -/
theorem numbers_iff (h : Windowed r) :
    (r.ullCurrentFileOffset + 1 ≤ r.contents.length →
      (ReadsNumber 1 readNetUnsignedInt8Bit r ↔ CacheHolds r)) ∧
    (r.ullCurrentFileOffset + 2 ≤ r.contents.length →
      (ReadsNumber 2 readNetUnsignedInt16Bit r ↔ CacheHolds r)) ∧
    (r.ullCurrentFileOffset + 3 ≤ r.contents.length →
      (ReadsNumber 3 readNetUnsignedInt24Bit r ↔ CacheHolds r)) ∧
    (r.ullCurrentFileOffset + 4 ≤ r.contents.length →
      (ReadsNumber 4 readNetUnsignedInt32Bit r ↔
        CacheHolds r ∧ bigEndian (slice r.contents r.ullCurrentFileOffset 4) < 2 ^ 31)) ∧
    (r.ullCurrentFileOffset + 8 ≤ r.contents.length →
      ¬ ReadsNumber 8 readNetUnsignedInt64Bit r) ∧
    ∀ (front : List UInt8) (last : UInt8) (rest : List UInt8),
      r.contents.drop r.ullCurrentFileOffset = front ++ last :: rest →
      (∀ b ∈ front, 128 ≤ b) → (last < 128 ∨ front.length = 3) → front.length ≤ 3 →
      (ReadsDescriptor (front ++ [last]) r ↔ CacheHolds r) :=
  ⟨readsNumber_iff_of_le_three h (by decide), readsNumber_iff_of_le_three h (by decide),
    readsNumber_iff_of_le_three h (by decide), readsNumber_iff h (by decide),
    not_readsNumber_eight h,
    fun _ _ _ hdrop hfront hlast hn => readsDescriptor_iff h hdrop hfront hlast hn⟩

theorem numbers_sixBytes :
    ReadsNumber 2 readNetUnsignedInt16Bit sixBytes ∧
      ReadsNumber 4 readNetUnsignedInt32Bit sixBytes ∧ ReadsDescriptor [10] sixBytes := by
  have hall := numbers_iff sixBytes_windowed
  have hcache : CacheHolds sixBytes := Or.inl (by decide)
  exact ⟨(hall.2.1 (by decide)).mpr hcache, (hall.2.2.2.1 (by decide)).mpr ⟨hcache, by decide⟩,
    (hall.2.2.2.2.2 [] 10 [20, 30, 40, 50, 60] rfl (by simp) (Or.inl (by decide))
      (by decide)).mpr hcache⟩

/-- A reader on a file of the eight bytes of 1, just opened. -/
def eightBytes : FileReader :=
  { frFileReaderStatus := .initialized
    iFileDescriptor := ⟨[0, 0, 0, 0, 0, 0, 0, 1], 8, by decide⟩
    pFilePath := some "f"
    pucCache := List.replicate 8 none
    ulCacheSize := 8
    ullCurrentFileOffset := 0
    ullCacheFileOffset := ull (-1)
    ullFileSize := 8 }

/-- Four bytes `FF` are read as 2⁶⁴ − 1, and the eight bytes of 1 have no value. -/
theorem not_readsNumber_fourFF :
    fourFF.readNetUnsignedInt32Bit = .ok (.ok (2 ^ 64 - 1), fourFF.refilled.advance 4) ∧
      ¬ ReadsNumber 4 readNetUnsignedInt32Bit fourFF ∧
      eightBytes.readNetUnsignedInt64Bit = .error .undefinedArithmetic := by
  have hcall : fourFF.readNetUnsignedInt32Bit
      = .ok (.ok (2 ^ 64 - 1), fourFF.refilled.advance 4) := rfl
  refine ⟨hcall, ?_, rfl⟩
  rintro ⟨r', hcall', -⟩
  have hvalue := Except.ok.inj (Prod.mk.inj (Except.ok.inj (hcall.symm.trans hcall'))).1
  revert hvalue
  decide

end FileReader

end CatraLibraries
