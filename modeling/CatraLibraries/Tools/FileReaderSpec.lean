/-
# Reading a file without a cache

What the calls of `FileReader` mean when there is no cache: the file is a list of
bytes and the reader an offset into it.  A read returns the slice of the file from
the offset on, and an integer in network order is the big-endian value of such a slice.
-/
import CatraLibraries.Tools.FileReader
import Mathlib.Data.Nat.Digits.Defs

namespace CatraLibraries

open Memory

/-- The value of bytes in network order. -/
def bigEndian (bytes : List UInt8) : Nat :=
  Nat.ofDigits (2 ^ 8) (bytes.reverse.map UInt8.toNat)

/-- The `n` bytes of a file from `offset` on, or those that exist. -/
def slice (contents : List UInt8) (offset n : Nat) : List UInt8 :=
  (contents.drop offset).take n

theorem bigEndian_lt (bytes : List UInt8) : bigEndian bytes < 2 ^ (8 * bytes.length) := by
  have h : ∀ d ∈ bytes.reverse.map UInt8.toNat, d < 2 ^ 8 := by
    intro d hd
    obtain ⟨b, -, rfl⟩ := List.mem_map.mp hd
    exact b.toNat_lt
  have := Nat.ofDigits_lt_base_pow_length (by decide : 1 < 2 ^ 8) h
  rwa [List.length_map, List.length_reverse, ← Nat.pow_mul] at this

theorem bigEndian_cons (b : UInt8) (bytes : List UInt8) :
    bigEndian (b :: bytes) = b.toNat * 2 ^ (8 * bytes.length) + bigEndian bytes := by
  rw [bigEndian, List.reverse_cons, List.map_append, Nat.ofDigits_append, List.length_map,
    List.length_reverse, List.map_singleton, Nat.ofDigits_singleton, ← Nat.pow_mul, ← bigEndian]
  ring

theorem length_slice {contents : List UInt8} {offset n : Nat}
    (h : offset + n ≤ contents.length) : (slice contents offset n).length = n := by
  simp only [slice, List.length_take, List.length_drop]
  omega

theorem slice_slice (contents : List UInt8) {offset d n size : Nat} (h : d + n ≤ size) :
    ((slice contents offset size).drop d).take n = slice contents (offset + d) n := by
  rw [slice, slice, List.drop_take, List.take_take, List.drop_drop, min_eq_left (by omega)]

namespace FileReader

/-- Where `seek` moves the offset of a file of `size` bytes.  A move relative to the
offset that leaves the file ends at its end, also when it goes backwards. -/
def seekTarget (size offset : Nat) (llBytes : Int64) : Whence → Nat
  | .seekSet => min llBytes.toInt.toNat size
  | .seekCur =>
    if 0 ≤ offset + llBytes.toInt ∧ offset + llBytes.toInt < size then
      (offset + llBytes.toInt).toNat
    else size
  | .seekEnd => size - min (-llBytes.toInt).toNat size
  | .other => offset

/-- How many bytes a read that asks for `n` delivers. -/
def specCount (size offset n : Nat) (bErrorIfAllBytesNotAvailable : Bool) :
    Except ToolsError Nat :=
  if offset + n ≤ size then .ok n
  else if bErrorIfAllBytesNotAvailable then .error .activationWrong
  else if offset = size then .error .fileReaderReachedEndOfFile
  else .ok (size - offset)

/-- A read into the caller's buffer. -/
def specBlock (contents : List UInt8) (offset : Nat) (pBuffer : Cells UInt8) (n : Nat)
    (bErrorIfAllBytesNotAvailable : Bool) : Except ToolsError Answer × Nat :=
  match specCount contents.length offset n bErrorIfAllBytesNotAvailable with
  | .error err => (.error err, offset)
  | .ok count =>
    (.ok (.block count ((slice contents offset count).map some ++ pBuffer.drop count)),
      offset + count)

/-- A read of an integer of `n` bytes. -/
def specValue (contents : List UInt8) (offset n : Nat) : Except ToolsError Answer × Nat :=
  if offset + n ≤ contents.length then
    (.ok (.value (bigEndian (slice contents offset n))), offset + n)
  else (.error .activationWrong, offset)

/-- The answer to a call and the offset after it. -/
def specExec (contents : List UInt8) (offset : Nat) : Call → Except ToolsError Answer × Nat
  | .seek llBytes iWhence =>
    let target := seekTarget contents.length offset llBytes iWhence
    (.ok (.position target), target)
  | .readChars pBuffer n all => specBlock contents offset pBuffer n all
  | .readBytes pucValue n all => specBlock contents offset pucValue n all
  | .readNetUnsignedInt8Bit => specValue contents offset 1
  | .readNetUnsignedInt16Bit => specValue contents offset 2
  | .readNetUnsignedInt24Bit => specValue contents offset 3
  | .readNetUnsignedInt32Bit => specValue contents offset 4
  | .readNetUnsignedInt64Bit => specValue contents offset 8

/-- The answers to a sequence of calls and the offset after it. -/
def specRun (contents : List UInt8) (offset : Nat) :
    List Call → List (Except ToolsError Answer) × Nat
  | [] => ([], offset)
  | c :: calls =>
    let (a, offset) := specExec contents offset c
    let (as, offset) := specRun contents offset calls
    (a :: as, offset)

/-- What a successful read owes: exactly the file's bytes from `offset` on, and an
offset moved by as many. -/
def Delivers (contents : List UInt8) (offset : Nat) : Answer → Nat → Prop
  | .position p, offset' => p = offset'
  | .block count pBuffer, offset' =>
    offset + count ≤ contents.length ∧
      pBuffer.take count = (slice contents offset count).map some ∧ offset' = offset + count
  | .value v, offset' =>
    ∃ n, 0 < n ∧ offset + n ≤ contents.length ∧ v = bigEndian (slice contents offset n) ∧
      offset' = offset + n

variable {contents : List UInt8} {offset : Nat}

theorem specCount_le {size n count : Nat} {all : Bool} (hle : offset ≤ size)
    (h : specCount size offset n all = .ok count) : offset + count ≤ size := by
  unfold specCount at h
  split_ifs at h with hn
  · exact Except.ok.inj h ▸ hn
  · have := Except.ok.inj h
    omega

theorem specBlock_delivers {pBuffer : Cells UInt8} {n : Nat} {all : Bool} {a : Answer}
    (hle : offset ≤ contents.length)
    (h : (specBlock contents offset pBuffer n all).1 = .ok a) :
    Delivers contents offset a (specBlock contents offset pBuffer n all).2 := by
  unfold specBlock at h ⊢
  cases hcount : specCount contents.length offset n all with
  | error err => simp [hcount] at h
  | ok count =>
    have hfits := specCount_le hle hcount
    simp only [hcount, Except.ok.injEq] at h
    subst h
    refine ⟨hfits, ?_, rfl⟩
    apply List.take_left'
    rw [List.length_map, length_slice hfits]

theorem specValue_delivers {n : Nat} (hn : 0 < n) {a : Answer}
    (h : (specValue contents offset n).1 = .ok a) :
    Delivers contents offset a (specValue contents offset n).2 := by
  unfold specValue at h ⊢
  split_ifs at h ⊢ with hfits
  obtain rfl := Except.ok.inj h
  exact ⟨n, hn, hfits, rfl, rfl⟩

/-- **A read without a cache returns the bytes of the file.** -/
theorem specExec_delivers (hle : offset ≤ contents.length) {c : Call} {a : Answer}
    (h : (specExec contents offset c).1 = .ok a) :
    Delivers contents offset a (specExec contents offset c).2 := by
  cases c with
  | seek llBytes iWhence =>
    obtain rfl := Except.ok.inj h
    exact rfl
  | readChars pBuffer n all => exact specBlock_delivers hle h
  | readBytes pucValue n all => exact specBlock_delivers hle h
  | readNetUnsignedInt8Bit => exact specValue_delivers (by decide) h
  | readNetUnsignedInt16Bit => exact specValue_delivers (by decide) h
  | readNetUnsignedInt24Bit => exact specValue_delivers (by decide) h
  | readNetUnsignedInt32Bit => exact specValue_delivers (by decide) h
  | readNetUnsignedInt64Bit => exact specValue_delivers (by decide) h

end FileReader

end CatraLibraries
