/-
# Numbers in network order

`FileIO::writeNetUnsignedInt*Bit` and `readNetUnsignedInt*Bit` (`Tools/src/FileIO.cpp`) write a number
to an open file and read it, most significant byte first.  `writeMP4DescriptorSize` and
`readMP4DescriptorSize` do the same with seven bits of each byte, where the eighth says that another
byte follows.

A write followed by a read gives the number back up to 24 bits, and for every descriptor.  The bytes
read are shifted as `int`, so that from 2³¹ on the sign of 32 bits is extended, and the first of eight
bytes is shifted by more than an `int` has.  None of the reads looks at how many bytes it got, and at
the end of the file they go on with bytes that were never read.
-/
import CatraLibraries.Tools.FileReaderNumbers

namespace CatraLibraries

open Memory FileReader

namespace FileIO

/-! ### Open files -/

/-- An open file: its bytes, the offset of the descriptor, and the error number of a descriptor that
does not work. -/
structure OpenFile where
  contents : List UInt8
  offset : ℕ
  fails : Option ℤ
  deriving DecidableEq

namespace OpenFile

/-- `lseek` to an offset from the beginning. -/
def seek (f : OpenFile) (offset : ℕ) : OpenFile := { f with offset := offset }

/-- `read (iFileDescriptor, buffer, n)`: the bytes that are there, at most `n`. -/
def read (f : OpenFile) (n : ℕ) : Except ℤ (List UInt8) × OpenFile :=
  match f.fails with
  | some errno => (.error errno, f)
  | none =>
    let bytes := slice f.contents f.offset n
    (.ok bytes, f.seek (f.offset + bytes.length))

/-- The contents after a write at the offset; a gap before it is filled with zeros. -/
def overwritten (f : OpenFile) (bytes : List UInt8) : List UInt8 :=
  (f.contents ++ List.replicate (f.offset - f.contents.length) 0).take f.offset ++ bytes ++
    f.contents.drop (f.offset + bytes.length)

/-- `write (iFileDescriptor, bytes, n)`; the file takes all of them. -/
def write (f : OpenFile) (bytes : List UInt8) : Except ℤ ℕ × OpenFile :=
  match f.fails with
  | some errno => (.error errno, f)
  | none =>
    (.ok bytes.length,
      { f with contents := f.overwritten bytes, offset := f.offset + bytes.length })

end OpenFile

/-- The errors of these methods. -/
inductive NetError
  | readFailed (errno : ℤ)
  | writeFailed (errno : ℤ)
  | readNetUnsignedInt8BitFailed
  | writeNetUnsignedInt8BitFailed
  deriving DecidableEq, Repr

/-! ### Integers -/

/-- The common text of the `readNetUnsignedInt*Bit`: one byte for each of the `shifts`, and the `int`
they give converted to the unsigned 64-bit result. -/
def readNetUnsignedInt (shifts : List ℕ) (f : OpenFile) :
    Except Fault (Except NetError ℕ × OpenFile) :=
  match f.read shifts.length with
  | (.error errno, f) => .ok (.error (.readFailed errno), f)
  | (.ok bytes, f) => do
    -- the cells behind what was read are as they were
    let pucValue := bytes.map some ++ List.replicate (shifts.length - bytes.length) none
    let value ← orShifted shifts pucValue
    return (.ok (value.signExtend 64).toNat, f)

/-- The end of every write: the bytes go to the file. -/
def writeBytes (pucValue : List UInt8) (f : OpenFile) : Except NetError Unit × OpenFile :=
  match f.write pucValue with
  | (.error errno, f) => (.error (.writeFailed errno), f)
  | (.ok _, f) => (.ok (), f)

/-- The common text of the `writeNetUnsignedInt*Bit` up to 32 bits. -/
def writeNetUnsignedInt (shifts : List ℕ) (ulValue : ℕ) (f : OpenFile) :
    Except NetError Unit × OpenFile :=
  writeBytes (shifts.map fun s => UInt8.ofNat ((ulValue >>> s) &&& 0xFF)) f

/-- The bytes of a number, least significant first, by `llLocalValue >>= 8`. -/
def shiftedOut : ℕ → ℕ → List UInt8
  | 0, _ => []
  | n + 1, llLocalValue => UInt8.ofNat (llLocalValue &&& 0xFF) :: shiftedOut n (llLocalValue >>> 8)

/-- `readNetUnsignedInt8Bit`. -/
def readNetUnsignedInt8Bit := readNetUnsignedInt [0]

/-- `writeNetUnsignedInt8Bit`. -/
def writeNetUnsignedInt8Bit := writeNetUnsignedInt [0]

/-- `readNetUnsignedInt16Bit`. -/
def readNetUnsignedInt16Bit := readNetUnsignedInt [8, 0]

/-- `writeNetUnsignedInt16Bit`. -/
def writeNetUnsignedInt16Bit := writeNetUnsignedInt [8, 0]

/-- `readNetUnsignedInt24Bit`. -/
def readNetUnsignedInt24Bit := readNetUnsignedInt [16, 8, 0]

/-- `writeNetUnsignedInt24Bit`. -/
def writeNetUnsignedInt24Bit := writeNetUnsignedInt [16, 8, 0]

/-- `readNetUnsignedInt32Bit`. -/
def readNetUnsignedInt32Bit := readNetUnsignedInt [24, 16, 8, 0]

/-- `writeNetUnsignedInt32Bit`. -/
def writeNetUnsignedInt32Bit := writeNetUnsignedInt [24, 16, 8, 0]

/-- `readNetUnsignedInt64Bit`. -/
def readNetUnsignedInt64Bit := readNetUnsignedInt [56, 48, 40, 32, 24, 16, 8, 0]

/-- `writeNetUnsignedInt64Bit`. -/
def writeNetUnsignedInt64Bit (ullValue : ℕ) (f : OpenFile) : Except NetError Unit × OpenFile :=
  writeBytes (shiftedOut 8 ullValue).reverse f

/-! ### Descriptors -/

/-- The loop of `readMP4DescriptorSize`; `*pucNumBytes < 4` ends it after four turns. -/
def readMP4DescriptorSizeLoop :
    ℕ → ℕ → ℕ → OpenFile → Except Fault (Except NetError (ℕ × ℕ) × OpenFile)
  | 0, _, _, _ => .error .outOfFuel
  | fuel + 1, pulSize, pucNumBytes, f => do
    match ← readNetUnsignedInt8Bit f with
    | (.error _, f) => return (.error .readNetUnsignedInt8BitFailed, f)
    | (.ok ulTmp, f) =>
      let ucTmp := ulTmp % 2 ^ 8
      let pulSize := pulSize <<< 7 % 2 ^ 64 ||| ucTmp &&& 0x7F
      let pucNumBytes := (pucNumBytes + 1) % 2 ^ 8
      if ucTmp &&& 0x80 ≠ 0 ∧ pucNumBytes < 4 then
        readMP4DescriptorSizeLoop fuel pulSize pucNumBytes f
      else return (.ok (pulSize, pucNumBytes), f)

/-- `readMP4DescriptorSize`: the size and the number of its bytes. -/
def readMP4DescriptorSize (f : OpenFile) : Except Fault (Except NetError (ℕ × ℕ) × OpenFile) :=
  readMP4DescriptorSizeLoop 4 0 0 f

/-- `ucNumBytes`, the number of bytes that are written. -/
def numBytes (ulSize : ℕ) (bCompact : Bool) (ucOriginalNumBytes : ℕ) : ℕ :=
  if ucOriginalNumBytes = 0 then
    if bCompact then
      if ulSize ≤ 0x7F then 1
      else if ulSize ≤ 0x3FFF then 2
      else if ulSize ≤ 0x1FFFFF then 3
      else 4
    else 4
  else ucOriginalNumBytes

/-- `ucTmp`, with `ucIndex` bytes still to be written behind it. -/
def descriptorByte (ulSize ucIndex : ℕ) : ℕ :=
  if ucIndex > 0 then (ulSize >>> (ucIndex * 7)) &&& 0x7F ||| 0x80
  else (ulSize >>> (ucIndex * 7)) &&& 0x7F

/-- The loop of `writeMP4DescriptorSize`; from 0 the index would wrap around, and the shift with
it. -/
def writeMP4DescriptorSizeLoop (ulSize : ℕ) :
    ℕ → OpenFile → Except Fault (Except NetError Unit × OpenFile)
  | 0, _ => .error .undefinedArithmetic
  | ucIndex + 1, f =>
    match writeNetUnsignedInt8Bit (descriptorByte ulSize ucIndex) f with
    | (.error _, f) => .ok (.error .writeNetUnsignedInt8BitFailed, f)
    | (.ok (), f) =>
      if ucIndex > 0 then writeMP4DescriptorSizeLoop ulSize ucIndex f else .ok (.ok (), f)

/-- `writeMP4DescriptorSize`. -/
def writeMP4DescriptorSize (ulSize : ℕ) (bCompact : Bool) (ucOriginalNumBytes : ℕ)
    (f : OpenFile) : Except Fault (Except NetError Unit × OpenFile) :=
  writeMP4DescriptorSizeLoop ulSize (numBytes ulSize bCompact ucOriginalNumBytes) f

/-! ### What is written can be read -/

variable {f f' : OpenFile}

theorem writeBytes_eq (hf : f.fails = none) (bytes : List UInt8) :
    writeBytes bytes f = (.ok (),
      { f with contents := f.overwritten bytes, offset := f.offset + bytes.length }) := by
  rw [writeBytes, OpenFile.write, hf]

/-- The bytes stand where they were written. -/
theorem drop_overwritten (f : OpenFile) (bytes : List UInt8) :
    (f.overwritten bytes).drop f.offset = bytes ++ f.contents.drop (f.offset + bytes.length) := by
  have hlen : ((f.contents ++ List.replicate (f.offset - f.contents.length) 0).take
      f.offset).length = f.offset := by
    rw [List.length_take, List.length_append, List.length_replicate]
    omega
  rw [OpenFile.overwritten, List.append_assoc]
  exact List.drop_left' hlen

/-- **A read** of bytes that are there. -/
theorem readNetUnsignedInt_of_drop (hf : f.fails = none) {shifts : List ℕ} {bytes rest : List UInt8}
    (hdrop : f.contents.drop f.offset = bytes ++ rest) (hlen : bytes.length = shifts.length) :
    readNetUnsignedInt shifts f = (do
      let value ← orShifted shifts (bytes.map some)
      return (.ok (value.signExtend 64).toNat, f.seek (f.offset + bytes.length))) := by
  have hslice : slice f.contents f.offset shifts.length = bytes := by
    rw [slice, hdrop, ← hlen, List.take_left]
  rw [readNetUnsignedInt, OpenFile.read, hf, hslice]
  dsimp only
  rw [hlen, Nat.sub_self, List.replicate_zero, List.append_nil]

/-- The bytes of an integer in network order. -/
def netBytes (n v : ℕ) : List UInt8 := (netShifts n).map fun s => UInt8.ofNat ((v >>> s) &&& 0xFF)

theorem length_netBytes (n v : ℕ) : (netBytes n v).length = n := by
  rw [netBytes, List.length_map, length_netShifts]

theorem bigEndian_netBytes (n v : ℕ) : bigEndian (netBytes n v) = v % 2 ^ (8 * n) := by
  induction n with
  | zero => simp [netBytes, netShifts, bigEndian, Nat.mod_one]
  | succ n ih =>
    have hbyte : (UInt8.ofNat ((v >>> (8 * n)) &&& 0xFF)).toNat = v / 2 ^ (8 * n) % 2 ^ 8 := by
      rw [UInt8.toNat_ofNat', Nat.shiftRight_eq_div_pow]
      have hand := Nat.and_two_pow_sub_one_eq_mod (v / 2 ^ (8 * n)) 8
      rw [show (0xFF : ℕ) = 2 ^ 8 - 1 from rfl, hand, Nat.mod_mod]
    show bigEndian (_ :: netBytes n v) = _
    rw [bigEndian_cons, length_netBytes, ih, hbyte, Nat.mul_succ, Nat.pow_add, Nat.mod_mul,
      Nat.add_comm, Nat.mul_comm (2 ^ (8 * n))]

/-- The bytes of the 64-bit write are in network order too. -/
theorem reverse_shiftedOut (v : ℕ) : (shiftedOut 8 v).reverse = netBytes 8 v := by
  simp only [shiftedOut, ← Nat.shiftRight_add]
  rfl

/-- **A number of up to four bytes** behind which it was written comes back as the `int` of its
bytes. -/
theorem readNetUnsignedInt_written (hf : f.fails = none) {n : ℕ} (hn : n ≤ 4) (v : ℕ) :
    writeNetUnsignedInt (netShifts n) v f = (.ok (),
        { f with contents := f.overwritten (netBytes n v), offset := f.offset + n }) ∧
      readNetUnsignedInt (netShifts n) { f with contents := f.overwritten (netBytes n v) }
        = .ok (.ok ((BitVec.ofNat 32 (v % 2 ^ (8 * n))).signExtend 64).toNat,
          { f with contents := f.overwritten (netBytes n v), offset := f.offset + n }) := by
  have hlen := length_netBytes n v
  constructor
  · have hwrite := writeBytes_eq hf (netBytes n v)
    rwa [hlen] at hwrite
  · have hint := orShifted_netShifts (netBytes n v) (hlen.symm ▸ hn)
    rw [hlen, bigEndian_netBytes] at hint
    have hread := readNetUnsignedInt_of_drop (f := { f with contents := f.overwritten (netBytes n v) })
      hf (drop_overwritten f (netBytes n v)) (by rw [hlen, length_netShifts])
    rw [hread, hint, hlen]
    rfl

/-- The next byte. -/
theorem readNetUnsignedInt8Bit_of_drop (hf : f.fails = none) {b : UInt8} {rest : List UInt8}
    (hdrop : f.contents.drop f.offset = [b] ++ rest) :
    readNetUnsignedInt8Bit f = .ok (.ok b.toNat, f.seek (f.offset + 1)) := by
  have hint : orShifted [0] [some b] = .ok (BitVec.ofNat 32 (bigEndian [b])) :=
    orShifted_netShifts [b] (by simp)
  have hlt := b.toNat_lt
  rw [readNetUnsignedInt8Bit, readNetUnsignedInt_of_drop hf hdrop rfl, List.map_singleton, hint,
    ok_bind, bigEndian_singleton, signExtend_ofNat (by omega)]
  rfl

/-! ### What is not there -/

theorem slice_short {contents : List UInt8} {offset n : ℕ} (hn : 0 < n)
    (h : contents.length < offset + n) : (slice contents offset n).length < n := by
  rw [slice, List.length_take, List.length_drop]
  omega

/-- Bytes that were never read are used. -/
theorem orShifted_short {shifts : List ℕ} {bytes : List UInt8} (h : bytes.length < shifts.length) :
    ∃ fault, orShifted shifts
      (bytes.map some ++ List.replicate (shifts.length - bytes.length) none) = .error fault := by
  induction shifts generalizing bytes with
  | nil => exact absurd h (Nat.not_lt_zero _)
  | cons s shifts ih =>
    cases bytes with
    | nil => exact ⟨.uninitialised, rfl⟩
    | cons b bytes =>
      rw [List.length_cons, List.length_cons, Nat.succ_lt_succ_iff] at h
      obtain ⟨fault, hrest⟩ := ih h
      have hload : load ((b :: bytes).map some ++
          List.replicate ((s :: shifts).length - (b :: bytes).length) none) 0 = .ok b := rfl
      rw [orShifted, hload, ok_bind]
      unfold shiftInt
      split
      · refine ⟨fault, ?_⟩
        rw [ok_bind, List.map_cons, List.cons_append, List.drop_one, List.tail_cons,
          List.length_cons, List.length_cons, Nat.add_sub_add_right, hrest]
        rfl
      · exact ⟨.undefinedArithmetic, rfl⟩

/-- **At the end of the file** no read returns. -/
theorem readNetUnsignedInt_short (hf : f.fails = none) {shifts : List ℕ} (hne : shifts ≠ [])
    (h : f.contents.length < f.offset + shifts.length) :
    ∃ fault, readNetUnsignedInt shifts f = .error fault := by
  obtain ⟨fault, hfault⟩ := orShifted_short (slice_short (List.length_pos_iff.mpr hne) h)
  refine ⟨fault, ?_⟩
  rw [readNetUnsignedInt, OpenFile.read, hf]
  dsimp only
  rw [hfault]
  rfl

/-! ### Descriptors, byte by byte -/

/-- The bytes of a descriptor, `n` of them. -/
def descriptorBytes (ulSize : ℕ) : ℕ → List UInt8
  | 0 => []
  | n + 1 => UInt8.ofNat (descriptorByte ulSize n) :: descriptorBytes ulSize n

/-- A byte has seven bits of the size, and the eighth where another one follows. -/
theorem descriptorByte_eq (ulSize ucIndex : ℕ) :
    descriptorByte ulSize ucIndex
      = ulSize / 2 ^ (7 * ucIndex) % 2 ^ 7 + if ucIndex > 0 then 2 ^ 7 else 0 := by
  have hand : (ulSize >>> (ucIndex * 7)) &&& 0x7F = ulSize / 2 ^ (7 * ucIndex) % 2 ^ 7 := by
    rw [Nat.shiftRight_eq_div_pow, Nat.mul_comm]
    exact Nat.and_two_pow_sub_one_eq_mod _ 7
  rw [descriptorByte, hand]
  split
  · have hlow := Nat.mod_lt (ulSize / 2 ^ (7 * ucIndex)) (show 0 < 2 ^ 7 by decide)
    rw [Nat.or_comm, Nat.add_comm]
    exact (Nat.two_pow_add_eq_or_of_lt hlow 1).symm
  · rfl

theorem toNat_descriptorByte (ulSize ucIndex : ℕ) :
    (UInt8.ofNat (descriptorByte ulSize ucIndex)).toNat = descriptorByte ulSize ucIndex := by
  have hlow := Nat.mod_lt (ulSize / 2 ^ (7 * ucIndex)) (show 0 < 2 ^ 7 by decide)
  rw [UInt8.toNat_ofNat', descriptorByte_eq]
  split <;> omega

/-- Two writes one behind the other. -/
theorem overwritten_append (f : OpenFile) (bytes bytes' : List UInt8) :
    OpenFile.overwritten
        { f with contents := f.overwritten bytes, offset := f.offset + bytes.length } bytes'
      = f.overwritten (bytes ++ bytes') := by
  have hlen : ((f.contents ++ List.replicate (f.offset - f.contents.length) 0).take
      f.offset).length = f.offset := by
    rw [List.length_take, List.length_append, List.length_replicate]
    omega
  have hgap : f.offset + bytes.length - (f.overwritten bytes).length = 0 := by
    rw [OpenFile.overwritten, List.length_append, List.length_append, hlen]
    omega
  have htake : (f.overwritten bytes).take (f.offset + bytes.length)
      = (f.contents ++ List.replicate (f.offset - f.contents.length) 0).take f.offset ++ bytes := by
    rw [OpenFile.overwritten]
    exact List.take_left' (by rw [List.length_append, hlen])
  have hdrop : (f.overwritten bytes).drop (f.offset + bytes.length + bytes'.length)
      = f.contents.drop (f.offset + (bytes ++ bytes').length) := by
    rw [OpenFile.overwritten, ← List.drop_drop,
      List.drop_left' (show _ = f.offset + bytes.length by rw [List.length_append, hlen]),
      List.drop_drop, List.length_append, Nat.add_assoc]
  conv_lhs => rw [OpenFile.overwritten]
  dsimp only
  rw [hgap, List.replicate_zero, List.append_nil, htake, hdrop, OpenFile.overwritten,
    List.append_assoc _ bytes]

/-- **The write of a descriptor.** -/
theorem writeMP4DescriptorSizeLoop_eq (hf : f.fails = none) (ulSize : ℕ) {n : ℕ} (hn : 0 < n) :
    writeMP4DescriptorSizeLoop ulSize n f = .ok (.ok (),
      { f with contents := f.overwritten (descriptorBytes ulSize n), offset := f.offset + n }) := by
  induction n generalizing f with
  | zero => exact absurd hn (Nat.lt_irrefl _)
  | succ n ih =>
    have hbyte : writeNetUnsignedInt8Bit (descriptorByte ulSize n) f = (.ok (),
        { f with
          contents := f.overwritten [UInt8.ofNat (descriptorByte ulSize n)]
          offset := f.offset + 1 }) := by
      have hlt := (UInt8.ofNat (descriptorByte ulSize n)).toNat_lt
      rw [toNat_descriptorByte] at hlt
      have hand : (descriptorByte ulSize n >>> 0) &&& 0xFF = descriptorByte ulSize n :=
        (Nat.and_two_pow_sub_one_eq_mod _ 8).trans (Nat.mod_eq_of_lt hlt)
      have hwrite := writeBytes_eq hf [UInt8.ofNat (descriptorByte ulSize n)]
      rw [writeNetUnsignedInt8Bit, writeNetUnsignedInt, List.map_singleton, hand]
      exact hwrite
    rw [writeMP4DescriptorSizeLoop, hbyte]
    dsimp only
    rcases Nat.eq_zero_or_pos n with rfl | hpos
    · rw [if_neg (Nat.lt_irrefl _)]
      rfl
    · have hrest := ih (f := { f with
        contents := f.overwritten [UInt8.ofNat (descriptorByte ulSize n)]
        offset := f.offset + 1 }) hf hpos
      rw [if_pos hpos, hrest]
      have hboth := overwritten_append f [UInt8.ofNat (descriptorByte ulSize n)]
        (descriptorBytes ulSize n)
      rw [List.length_singleton] at hboth
      dsimp only
      rw [hboth, Nat.add_assoc, Nat.add_comm 1]
      rfl

/-- **The read of a descriptor**, from a place where some of its bytes have been read. -/
theorem readMP4DescriptorSizeLoop_written (ulSize : ℕ) {n fuel k v : ℕ} {rest : List UInt8}
    (hf : f.fails = none) (hdrop : f.contents.drop f.offset = descriptorBytes ulSize n ++ rest)
    (hpos : 0 < n) (hk : k + n ≤ 4) (hfuel : n ≤ fuel) (hv : v < 2 ^ (7 * k)) :
    readMP4DescriptorSizeLoop fuel v k f
      = .ok (.ok (v * 2 ^ (7 * n) + ulSize % 2 ^ (7 * n), k + n), f.seek (f.offset + n)) := by
  induction n generalizing f fuel k v with
  | zero => exact absurd hpos (Nat.lt_irrefl _)
  | succ n ih =>
    obtain ⟨fuel, rfl⟩ := Nat.exists_eq_succ_of_ne_zero (show fuel ≠ 0 by omega)
    have hsmall : v < 2 ^ 21 := hv.trans_le (Nat.pow_le_pow_right (by decide) (by omega))
    have hcons : f.contents.drop f.offset
        = [UInt8.ofNat (descriptorByte ulSize n)] ++ (descriptorBytes ulSize n ++ rest) := hdrop
    have hseven : (UInt8.ofNat (descriptorByte ulSize n)).toNat % 2 ^ 7
        = ulSize / 2 ^ (7 * n) % 2 ^ 7 := by
      rw [toNat_descriptorByte, descriptorByte_eq]
      split <;> omega
    have heighth : 128 ≤ UInt8.ofNat (descriptorByte ulSize n) ↔ 0 < n := by
      have hlow := Nat.mod_lt (ulSize / 2 ^ (7 * n)) (show 0 < 2 ^ 7 by decide)
      rw [UInt8.le_iff_toNat_le, toNat_descriptorByte, descriptorByte_eq]
      show 128 ≤ _ ↔ _
      split <;> omega
    generalize UInt8.ofNat (descriptorByte ulSize n) = b at hcons hseven heighth
    have hbyte := readNetUnsignedInt8Bit_of_drop hf hcons
    have hpush := pushSeven_eq hsmall b
    have hcount : (k + 1) % 2 ^ 8 = k + 1 := Nat.mod_eq_of_lt (by omega)
    have hmod : ulSize % 2 ^ (7 * (n + 1))
        = ulSize % 2 ^ (7 * n) + 2 ^ (7 * n) * (ulSize / 2 ^ (7 * n) % 2 ^ 7) := by
      rw [Nat.mul_succ, Nat.pow_add, Nat.mod_mul]
    rw [readMP4DescriptorSizeLoop, hbyte, ok_bind]
    dsimp only
    rw [hpush, hcount, hseven]
    rcases Nat.eq_zero_or_pos n with rfl | hnpos
    · have hstop : ¬(b.toNat % 2 ^ 8 &&& 0x80 ≠ 0 ∧ k + 1 < 4) := fun h =>
        Nat.lt_irrefl 0 (heighth.mp ((eighthBit_iff b).mp h.1))
      rw [if_neg hstop, hmod]
      simp [Nat.mod_one, pure, Except.pure]
    · have hmore : b.toNat % 2 ^ 8 &&& 0x80 ≠ 0 ∧ k + 1 < 4 :=
        ⟨(eighthBit_iff b).mpr (heighth.mpr hnpos), by omega⟩
      have hdrop' : (f.seek (f.offset + 1)).contents.drop (f.seek (f.offset + 1)).offset
          = descriptorBytes ulSize n ++ rest := by
        show f.contents.drop (f.offset + 1) = _
        rw [← List.drop_drop, hcons]
        rfl
      have hv' : v * 2 ^ 7 + ulSize / 2 ^ (7 * n) % 2 ^ 7 < 2 ^ (7 * (k + 1)) := by
        have hlow := Nat.mod_lt (ulSize / 2 ^ (7 * n)) (show 0 < 2 ^ 7 by decide)
        rw [Nat.mul_add, Nat.pow_add]
        omega
      rw [if_pos hmore, ih (f := f.seek (f.offset + 1)) hf hdrop' hnpos (by omega) (by omega) hv',
        hmod]
      refine congrArg Except.ok (Prod.ext (congrArg Except.ok (Prod.ext ?_ ?_)) ?_)
      · dsimp only
        rw [Nat.mul_succ, Nat.pow_add]
        ring
      · exact Nat.add_right_comm k 1 n
      · show f.seek (f.offset + 1 + n) = _
        rw [Nat.add_assoc, Nat.add_comm 1]

/-- A descriptor whose end is missing. -/
theorem readMP4DescriptorSizeLoop_short {bytes : List UInt8} {fuel k v : ℕ} (hf : f.fails = none)
    (hdrop : f.contents.drop f.offset = bytes) (hbytes : ∀ b ∈ bytes, 128 ≤ b)
    (hk : k + bytes.length < 4) (hfuel : bytes.length < fuel) :
    ∃ fault, readMP4DescriptorSizeLoop fuel v k f = .error fault := by
  induction bytes generalizing f fuel k v with
  | nil =>
    obtain ⟨fuel, rfl⟩ := Nat.exists_eq_succ_of_ne_zero (show fuel ≠ 0 by omega)
    have hend : f.contents.length < f.offset + [0].length :=
      Nat.lt_succ_of_le (List.drop_eq_nil_iff.mp hdrop)
    obtain ⟨fault, hread⟩ := readNetUnsignedInt_short hf (by simp) hend
    exact ⟨fault, by rw [readMP4DescriptorSizeLoop, readNetUnsignedInt8Bit, hread]; rfl⟩
  | cons b bytes ih =>
    rw [List.length_cons] at hk hfuel
    obtain ⟨fuel, rfl⟩ := Nat.exists_eq_succ_of_ne_zero (show fuel ≠ 0 by omega)
    have hmore : b.toNat % 2 ^ 8 &&& 0x80 ≠ 0 ∧ (k + 1) % 2 ^ 8 < 4 :=
      ⟨(eighthBit_iff b).mpr (hbytes b List.mem_cons_self), by omega⟩
    have hdrop' : (f.seek (f.offset + 1)).contents.drop (f.seek (f.offset + 1)).offset = bytes := by
      show f.contents.drop (f.offset + 1) = _
      rw [← List.drop_drop, hdrop]
      rfl
    rw [readMP4DescriptorSizeLoop, readNetUnsignedInt8Bit_of_drop hf hdrop, ok_bind]
    dsimp only
    rw [if_pos hmore]
    exact ih hf hdrop' (fun c hc => hbytes c (List.mem_cons_of_mem b hc)) (by omega) (by omega)

/-! ### All of them -/

/-- The widths of the integers. -/
inductive Width
  | w8
  | w16
  | w24
  | w32
  | w64
  deriving DecidableEq, Repr

namespace Width

def bytes : Width → ℕ
  | w8 => 1
  | w16 => 2
  | w24 => 3
  | w32 => 4
  | w64 => 8

def read : Width → OpenFile → Except Fault (Except NetError ℕ × OpenFile)
  | w8 => readNetUnsignedInt8Bit
  | w16 => readNetUnsignedInt16Bit
  | w24 => readNetUnsignedInt24Bit
  | w32 => readNetUnsignedInt32Bit
  | w64 => readNetUnsignedInt64Bit

def write : Width → ℕ → OpenFile → Except NetError Unit × OpenFile
  | w8 => writeNetUnsignedInt8Bit
  | w16 => writeNetUnsignedInt16Bit
  | w24 => writeNetUnsignedInt24Bit
  | w32 => writeNetUnsignedInt32Bit
  | w64 => writeNetUnsignedInt64Bit

end Width

/-- What is read: what was written, or what ends too early. -/
inductive NetCase
  | number (w : Width) (ulValue : ℕ)
  | descriptor (ulSize : ℕ) (bCompact : Bool) (ucOriginalNumBytes : ℕ)
  | shortNumber (w : Width)
  | shortDescriptor

namespace NetCase

/-- The values that a width has, the sizes and byte counts of descriptors, and files that end before
the last byte that is needed. -/
def InScope (f : OpenFile) : NetCase → Prop
  | number w ulValue => ulValue < 2 ^ (8 * w.bytes)
  | descriptor ulSize _ ucOriginalNumBytes => ulSize < 2 ^ 28 ∧
      (ucOriginalNumBytes = 0 ∨ numBytes ulSize true 0 ≤ ucOriginalNumBytes ∧ ucOriginalNumBytes ≤ 4)
  | shortNumber w => f.contents.length < f.offset + w.bytes
  | shortDescriptor => (f.contents.drop f.offset).length < 4 ∧
      ∀ b ∈ f.contents.drop f.offset, 128 ≤ b

/-- **What is written is read back**, up to the same place, and what is too short is an error. -/
def ReadsBack (f : OpenFile) : NetCase → Prop
  | number w ulValue => ∃ f', w.write ulValue f = (.ok (), f') ∧
      w.read (f'.seek f.offset) = .ok (.ok ulValue, f')
  | descriptor ulSize bCompact ucOriginalNumBytes => ∃ f',
      writeMP4DescriptorSize ulSize bCompact ucOriginalNumBytes f = .ok (.ok (), f') ∧
      readMP4DescriptorSize (f'.seek f.offset)
        = .ok (.ok (ulSize, numBytes ulSize bCompact ucOriginalNumBytes), f')
  | shortNumber w => ∃ err f', w.read f = .ok (.error err, f')
  | shortDescriptor => ∃ err f', readMP4DescriptorSize f = .ok (.error err, f')

/-- **Where they work.** -/
def Works : NetCase → Prop
  | number .w32 ulValue => ulValue < 2 ^ 31
  | number .w64 _ => False
  | number _ _ => True
  | descriptor _ _ _ => True
  | shortNumber _ => False
  | shortDescriptor => False

/-- The widths that fit an `int`. -/
theorem readsBack_number (hf : f.fails = none) {w : Width} {n : ℕ} (hn : n ≤ 4)
    (hwrite : w.write = writeNetUnsignedInt (netShifts n))
    (hread : w.read = readNetUnsignedInt (netShifts n)) {ulValue : ℕ} (hv : ulValue < 2 ^ (8 * n)) :
    ReadsBack f (number w ulValue) ↔ ulValue < 2 ^ 31 := by
  have hv32 : ulValue < 2 ^ 32 := hv.trans_le (Nat.pow_le_pow_right (by decide) (by omega))
  obtain ⟨hw, hr⟩ := readNetUnsignedInt_written hf hn ulValue
  rw [Nat.mod_eq_of_lt hv] at hr
  rw [← signExtend_ofNat_iff hv32]
  unfold ReadsBack
  dsimp only
  rw [hwrite, hread]
  constructor
  · rintro ⟨f', hw', hr'⟩
    obtain rfl := (Prod.mk.inj (hw.symm.trans hw')).2
    exact Except.ok.inj (Prod.mk.inj (Except.ok.inj (hr.symm.trans hr'))).1
  · intro heq
    rw [heq] at hr
    exact ⟨_, hw, hr⟩

/-- The first of eight bytes is shifted too far. -/
theorem not_readsBack_w64 (hf : f.fails = none) (ulValue : ℕ) :
    ¬ReadsBack f (number .w64 ulValue) := by
  rintro ⟨f', hw, hr⟩
  have hwrite : Width.w64.write ulValue f = (.ok (),
      { f with contents := f.overwritten (netBytes 8 ulValue), offset := f.offset + 8 }) := by
    have h := writeBytes_eq hf (netBytes 8 ulValue)
    rwa [length_netBytes, ← reverse_shiftedOut] at h
  obtain rfl := (Prod.mk.inj (hwrite.symm.trans hw)).2
  have hread := readNetUnsignedInt_of_drop (f := { f with
    contents := f.overwritten (netBytes 8 ulValue) }) hf (drop_overwritten f (netBytes 8 ulValue))
    ((length_netBytes 8 ulValue).trans (length_netShifts 8).symm)
  have hfault : orShifted (netShifts 8) ((netBytes 8 ulValue).map some)
      = .error .undefinedArithmetic := rfl
  rw [hfault] at hread
  exact absurd (hread.symm.trans hr) (by simp)

theorem read_eq (w : Width) : w.read = readNetUnsignedInt (netShifts w.bytes) := by
  cases w <;> rfl

theorem not_readsBack_shortNumber (hf : f.fails = none) {w : Width}
    (hshort : InScope f (shortNumber w)) : ¬ReadsBack f (shortNumber w) := by
  rintro ⟨err, f', hr⟩
  have hne : netShifts w.bytes ≠ [] := by cases w <;> simp [netShifts, Width.bytes]
  obtain ⟨fault, hread⟩ := readNetUnsignedInt_short hf hne (by rwa [length_netShifts])
  rw [read_eq, hread] at hr
  exact absurd hr (by simp)

theorem not_readsBack_shortDescriptor (hf : f.fails = none) (hshort : InScope f shortDescriptor) :
    ¬ReadsBack f shortDescriptor := by
  rintro ⟨err, f', hr⟩
  obtain ⟨hlen, hbytes⟩ := hshort
  have hshort : ∃ fault, readMP4DescriptorSizeLoop 4 0 0 f = .error fault :=
    readMP4DescriptorSizeLoop_short hf rfl hbytes (by omega) hlen
  obtain ⟨fault, hread⟩ := hshort
  rw [readMP4DescriptorSize, hread] at hr
  exact absurd hr (by simp)

/-- The number of bytes is enough for the size, and at most four. -/
theorem numBytes_spec {ulSize ucOriginalNumBytes : ℕ} (bCompact : Bool)
    (hscope : InScope f (descriptor ulSize bCompact ucOriginalNumBytes)) :
    0 < numBytes ulSize bCompact ucOriginalNumBytes ∧
      numBytes ulSize bCompact ucOriginalNumBytes ≤ 4 ∧
      ulSize < 2 ^ (7 * numBytes ulSize bCompact ucOriginalNumBytes) := by
  obtain ⟨hsize, horiginal⟩ := hscope
  have hcompact : 0 < numBytes ulSize true 0 ∧ numBytes ulSize true 0 ≤ 4 ∧
      ulSize < 2 ^ (7 * numBytes ulSize true 0) := by
    unfold numBytes
    rw [if_pos rfl, if_pos rfl]
    split_ifs <;> omega
  by_cases hzero : ucOriginalNumBytes = 0
  · subst hzero
    cases bCompact with
    | true => exact hcompact
    | false => exact ⟨show 0 < 4 by decide, Nat.le_refl 4, hsize⟩
  · obtain ⟨hle, hfour⟩ := horiginal.resolve_left hzero
    have heq : numBytes ulSize bCompact ucOriginalNumBytes = ucOriginalNumBytes := if_neg hzero
    rw [heq]
    exact ⟨Nat.pos_of_ne_zero hzero, hfour,
      hcompact.2.2.trans_le (Nat.pow_le_pow_right (by decide) (Nat.mul_le_mul_left 7 hle))⟩

theorem readsBack_descriptor (hf : f.fails = none) {ulSize ucOriginalNumBytes : ℕ}
    (bCompact : Bool) (hscope : InScope f (descriptor ulSize bCompact ucOriginalNumBytes)) :
    ReadsBack f (descriptor ulSize bCompact ucOriginalNumBytes) := by
  obtain ⟨hpos, hfour, hlt⟩ := numBytes_spec bCompact hscope
  unfold ReadsBack writeMP4DescriptorSize readMP4DescriptorSize
  dsimp only
  generalize numBytes ulSize bCompact ucOriginalNumBytes = n at *
  refine ⟨_, writeMP4DescriptorSizeLoop_eq hf ulSize hpos, ?_⟩
  have hread := readMP4DescriptorSizeLoop_written (f := { f with
      contents := f.overwritten (descriptorBytes ulSize n) }) (k := 0) (v := 0) ulSize hf
    (drop_overwritten f (descriptorBytes ulSize n)) hpos (by omega) (show n ≤ 4 from hfour)
    (by decide)
  rw [Nat.zero_mul, Nat.zero_add, Nat.zero_add, Nat.mod_eq_of_lt hlt] at hread
  exact hread

end NetCase

/-- **Which numbers are read back, and which ends are noticed.**  Integers of 8, 16 and 24 bits and the
sizes of descriptors are read back; integers of 32 bits below 2³¹, and of 64 bits none; and no end is
noticed. -/
theorem readsBack_iff (f : OpenFile) (hf : f.fails = none) (c : NetCase) (hc : c.InScope f) :
    c.ReadsBack f ↔ c.Works := by
  cases c with
  | number w ulValue =>
    have hbelow : ∀ {n : ℕ}, n ≤ 3 → ulValue < 2 ^ (8 * n) → ulValue < 2 ^ 31 := fun hn hv =>
      hv.trans (Nat.pow_lt_pow_right (by decide) (by omega))
    cases w with
    | w8 =>
      exact (NetCase.readsBack_number (n := 1) hf (by decide) rfl rfl hc).trans
        (iff_of_true (hbelow (by decide) hc) trivial)
    | w16 =>
      exact (NetCase.readsBack_number (n := 2) hf (by decide) rfl rfl hc).trans
        (iff_of_true (hbelow (by decide) hc) trivial)
    | w24 =>
      exact (NetCase.readsBack_number (n := 3) hf (by decide) rfl rfl hc).trans
        (iff_of_true (hbelow (by decide) hc) trivial)
    | w32 => exact NetCase.readsBack_number (n := 4) hf (by decide) rfl rfl hc
    | w64 => exact iff_of_false (NetCase.not_readsBack_w64 hf ulValue) id
  | descriptor ulSize bCompact ucOriginalNumBytes =>
    exact iff_of_true (NetCase.readsBack_descriptor hf bCompact hc) trivial
  | shortNumber w => exact iff_of_false (NetCase.not_readsBack_shortNumber hf hc) id
  | shortDescriptor => exact iff_of_false (NetCase.not_readsBack_shortDescriptor hf hc) id

/-- A file of three bytes, open at its end. -/
def threeBytes : OpenFile := ⟨[1, 2, 3], 3, none⟩

theorem readsBack_iff_descriptor : (NetCase.descriptor 300 true 0).ReadsBack threeBytes ↔
    (NetCase.descriptor 300 true 0).Works :=
  readsBack_iff threeBytes rfl (.descriptor 300 true 0) (by
    unfold NetCase.InScope
    decide)

/-- **What is not read back**: 2³¹ comes back with its sign extended, there is no value of 64 bits, and
a byte behind the end of the file is no error. -/
theorem not_readsBack_cases :
    ¬(NetCase.number .w32 (2 ^ 31)).ReadsBack threeBytes ∧
      ¬(NetCase.number .w64 1).ReadsBack threeBytes ∧
      ¬(NetCase.shortNumber .w8).ReadsBack threeBytes := by
  refine ⟨fun h => ?_, NetCase.not_readsBack_w64 rfl 1, NetCase.not_readsBack_shortNumber rfl ?_⟩
  · have hlt := (NetCase.readsBack_number (n := 4) rfl (by decide) rfl rfl (by decide)).mp h
    exact absurd hlt (by decide)
  · unfold NetCase.InScope
    decide

end FileIO

end CatraLibraries
