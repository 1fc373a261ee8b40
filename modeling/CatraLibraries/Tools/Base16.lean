/-
# Strings in hexadecimal digits

`stringToBase16` and `base16ToString` of `Tools/src/Convert.cpp`.  Each character is printed with
`%02X` at the place that two digits for each character before it give, into a buffer whose size is
checked against two digits for each character.

The argument of `sprintf` is a `char`, which is signed: one of the upper half is printed with eight
digits, the first six of them `F`.  The digits beyond the two are overwritten by the characters
that follow, and where too few of them follow they go past the end of the buffer.
-/
import CatraLibraries.Lib.Percent
import Mathlib.Algebra.Group.Int.Defs
import Mathlib.Algebra.Group.Nat.Defs

namespace CatraLibraries

open Memory CString Percent

namespace Convert

/-! ### The code -/

/-- A `char` as an argument of `sprintf`: the `unsigned int` of its sign-extended value. -/
def charArgument (c : UInt8) : Nat := c.toInt8.toInt32.toUInt32.toNat

/-- What `sprintf (…, "%02X", c)` writes. -/
def printedChar (c : UInt8) : List UInt8 := printX 2 (charArgument c)

/-- The loop of `stringToBase16`, over as many characters as the first argument says. -/
def stringToBase16Loop (pSrcStringData : Cells UInt8) :
    Nat → Nat → Nat → Cells UInt8 → Except Fault (Cells UInt8)
  | 0, _, _, pDestBase16Data => .ok pDestBase16Data
  | n + 1, ulSrcIndex, ulDestIndex, pDestBase16Data => do
    let c ← load pSrcStringData ulSrcIndex
    let pDestBase16Data ←
      writeAt pDestBase16Data ulDestIndex ((printedChar c).map some ++ [some 0])
    stringToBase16Loop pSrcStringData n (ulSrcIndex + 1) (ulDestIndex + 2) pDestBase16Data

/-- `stringToBase16 (pSrcStringData, pDestBase16Data, ulDestBase16DataSize)`, where `none` is a null
pointer.  The inner result is what the function throws, or the buffer. -/
def stringToBase16 (pSrcStringData pDestBase16Data : Option (Cells UInt8))
    (ulDestBase16DataSize : Nat) : Except Fault (Except String (Cells UInt8)) :=
  match pSrcStringData, pDestBase16Data with
  | some pSrcStringData, some pDestBase16Data => do
    let ulSrcStringDataSize ← strlen pSrcStringData
    if ulDestBase16DataSize < (ulSrcStringDataSize * 2 + 1) % 2 ^ 64 then
      return .error "Invalid argument"
    else
      let pDestBase16Data ←
        writeAt pDestBase16Data 0 (List.replicate ulDestBase16DataSize (some 0))
      return .ok (← stringToBase16Loop pSrcStringData ulSrcStringDataSize 0 0 pDestBase16Data)
  | _, _ => .ok (.error "Invalid argument")

/-- `isspace`, in the C locale. -/
def isspace (c : UInt8) : Bool := c == 32 || (9 ≤ c && c ≤ 13)

/-- The magnitude that `strtol (…, NULL, 16)` reads behind blanks and a sign: `0x` may stand before
the digits. -/
def magnitude16 : List UInt8 → Nat
  | 48 :: x :: d :: s =>
    if (x = 120 ∨ x = 88) ∧ isxdigit d then scanLX ((d :: s).takeWhile isxdigit)
    else scanLX ((48 :: x :: d :: s).takeWhile isxdigit)
  | s => scanLX (s.takeWhile isxdigit)

/-- `strtol (s, NULL, 16)`, which gives the nearest `long` to what it reads. -/
def strtol16 (s : List UInt8) : Int :=
  match s.dropWhile isspace with
  | 43 :: s => min (magnitude16 s) (2 ^ 63 - 1)
  | 45 :: s => max (-magnitude16 s) (-2 ^ 63)
  | s => min (magnitude16 s) (2 ^ 63 - 1)

/-- `(unsigned char) strtol (pBuffer, (char **) NULL, 16)`, for the two characters in `pBuffer`. -/
def byteOfDigits (x y : UInt8) : UInt8 := UInt8.ofNat (strtol16 (visible [x, y]) % 256).toNat

/-- The loop of `base16ToString`. -/
def base16ToStringLoop (pSrcBase16Data : Cells UInt8) (ulSrcBase16DataSize : Nat) :
    Nat → Nat → Nat → Cells UInt8 → Except Fault (Cells UInt8)
  | 0, _, _, _ => .error .outOfFuel
  | fuel + 1, ulSrcIndex, ulDestIndex, pDestStringData =>
    if ulSrcIndex < ulSrcBase16DataSize - 1 then do
      let x ← load pSrcBase16Data ulSrcIndex
      let y ← load pSrcBase16Data (ulSrcIndex + 1)
      let pDestStringData ← store pDestStringData ulDestIndex (byteOfDigits x y)
      base16ToStringLoop pSrcBase16Data ulSrcBase16DataSize fuel (ulSrcIndex + 2)
        (ulDestIndex + 1) pDestStringData
    else .ok pDestStringData

/-- `base16ToString (pSrcBase16Data, pDestStringData, ulDestStringDataSize)`. -/
def base16ToString (pSrcBase16Data pDestStringData : Option (Cells UInt8))
    (ulDestStringDataSize : Nat) : Except Fault (Except String (Cells UInt8)) :=
  match pSrcBase16Data, pDestStringData with
  | some pSrcBase16Data, some pDestStringData => do
    let ulSrcBase16DataSize ← strlen pSrcBase16Data
    if ulSrcBase16DataSize = 0 ∨ ulDestStringDataSize < ulSrcBase16DataSize / 2 + 1 then
      return .error "Invalid argument"
    else
      let pDestStringData ←
        writeAt pDestStringData 0 (List.replicate ulDestStringDataSize (some 0))
      return .ok (← base16ToStringLoop pSrcBase16Data ulSrcBase16DataSize ulSrcBase16DataSize 0 0
        pDestStringData)
  | _, _ => .ok (.error "Invalid argument")

/-! ### One character -/

/-- The two digits of a character that stay. -/
def keptDigits (c : UInt8) : List UInt8 := (printedChar c).take 2

/-- The character that is read from these. -/
def readBack (c : UInt8) : UInt8 := if c < 128 then c else 255

/-- A character of the lower half is printed with two digits, another with eight, the first two of
them `F`. -/
theorem printedChar_spec (c : UInt8) :
    (printedChar c).length = (if c < 128 then 2 else 8) ∧ 0 ∉ printedChar c ∧
      (keptDigits c).length = 2 ∧
      byteOfDigits ((keptDigits c).getD 0 0) ((keptDigits c).getD 1 0) = readBack c := by
  refine forall_uint8 (P := fun c =>
    (printedChar c).length = (if c < 128 then 2 else 8) ∧ 0 ∉ printedChar c ∧
      (keptDigits c).length = 2 ∧
      byteOfDigits ((keptDigits c).getD 0 0) ((keptDigits c).getD 1 0) = readBack c) ?_ ?_ ?_ ?_ c
  all_goals decide +kernel

theorem keptDigits_eq (c : UInt8) :
    ∃ x y, keptDigits c = [x, y] ∧ byteOfDigits x y = readBack c ∧ x ≠ 0 ∧ y ≠ 0 := by
  obtain ⟨-, hnul, hlen, hback⟩ := printedChar_spec c
  obtain ⟨x, y, hxy⟩ := List.length_eq_two.mp hlen
  have hmem : ∀ d ∈ [x, y], d ≠ 0 := by
    rintro d hd rfl
    exact hnul (List.mem_of_mem_take (hxy ▸ hd))
  rw [hxy] at hback
  exact ⟨x, y, hxy, hback, hmem x (by simp), hmem y (by simp)⟩

theorem length_printedChar (c : UInt8) : (printedChar c).length = if c < 128 then 2 else 8 :=
  (printedChar_spec c).1

theorem printedChar_eq (c : UInt8) :
    printedChar c = keptDigits c ++ (printedChar c).drop 2 := (List.take_append_drop 2 _).symm

theorem readBack_eq_self {c : UInt8} : readBack c = c ↔ c < 128 ∨ c = 255 := by
  unfold readBack
  split
  · next hc => exact ⟨fun _ => Or.inl hc, fun _ => rfl⟩
  · next hc => exact ⟨fun h => Or.inr h.symm, fun h => (h.resolve_left hc).symm⟩

theorem readBack_ne_zero {c : UInt8} (hc : c ≠ 0) : readBack c ≠ 0 := by
  unfold readBack
  split
  · exact hc
  · decide

/-- The text that stays of a string. -/
def base16Text (s : List UInt8) : List UInt8 := s.flatMap keptDigits

@[simp] theorem base16Text_cons (c : UInt8) (s : List UInt8) :
    base16Text (c :: s) = keptDigits c ++ base16Text s := rfl

@[simp] theorem base16Text_append (s t : List UInt8) :
    base16Text (s ++ t) = base16Text s ++ base16Text t := List.flatMap_append

@[simp] theorem length_base16Text (s : List UInt8) : (base16Text s).length = 2 * s.length := by
  induction s with
  | nil => rfl
  | cons c s ih =>
    rw [base16Text_cons, List.length_append, ih, (printedChar_spec c).2.2.1, List.length_cons]
    omega

theorem base16Text_nulFree (s : List UInt8) : 0 ∉ base16Text s := by
  rintro h
  obtain ⟨c, -, hc⟩ := List.mem_flatMap.mp h
  exact (printedChar_spec c).2.1 (List.mem_of_mem_take hc)

/-! ### The loops -/

/-- Every character of a text either fits its two digits or has the others overwritten. -/
def Fits (s : List UInt8) : Prop :=
  ∀ (i : ℕ) (h : i < s.length), s[i] < 128 ∨ i + 3 < s.length

theorem Fits.head {c : UInt8} {s : List UInt8} (h : Fits (c :: s)) : c < 128 ∨ 3 ≤ s.length :=
  (h 0 (Nat.succ_pos _)).imp_right fun hlt => Nat.le_of_lt_succ (by simpa using hlt)

theorem Fits.tail {c : UInt8} {s : List UInt8} (h : Fits (c :: s)) : Fits s := by
  intro i hi
  have hnext := h (i + 1) (Nat.succ_lt_succ hi)
  rw [List.getElem_cons_succ, List.length_cons] at hnext
  exact hnext.imp_right fun hlt => by omega

theorem Fits.cons {c : UInt8} {s : List UInt8} (hc : c < 128 ∨ 3 ≤ s.length) (hs : Fits s) :
    Fits (c :: s) := by
  intro i hi
  cases i with
  | zero => exact hc.imp_right fun hle => by rw [List.length_cons]; omega
  | succ i =>
    rw [List.getElem_cons_succ, List.length_cons]
    exact (hs i (Nat.lt_of_succ_lt_succ hi)).imp_right fun hlt => by omega

/-- The text so far, with `x` behind it. -/
def written (done : List UInt8) (x : Cells UInt8) : Cells UInt8 := (base16Text done).map some ++ x

/-- One character is printed behind the text so far, where its digits and the NUL fit. -/
theorem writeAt_written (done : List UInt8) (c : UInt8) {x : Cells UInt8}
    (hle : (printedChar c).length + 1 ≤ x.length) :
    ∃ x' : Cells UInt8, x'.length + 2 = x.length ∧
      writeAt (written done x) (2 * done.length) ((printedChar c).map some ++ [some 0])
        = .ok (written (done ++ [c]) x') ∧
      (c < 128 → x.length = 3 → x' = [some 0]) := by
  obtain ⟨-, -, hkept, -⟩ := printedChar_spec c
  have hprinted : (printedChar c).length = 2 + ((printedChar c).drop 2).length := by
    conv_lhs => rw [printedChar_eq c, List.length_append]
    rw [hkept]
  refine ⟨((printedChar c).drop 2).map some ++ [some 0] ++ x.drop ((printedChar c).length + 1),
    ?_, ?_, ?_⟩
  · simp only [List.length_append, List.length_map, List.length_drop, List.length_cons,
      List.length_nil]
    rw [List.length_drop] at hprinted
    omega
  · have hwrite := writeAt_append ((base16Text done).map some)
      (x.drop ((printedChar c).length + 1)) (o := x.take ((printedChar c).length + 1))
      (n := (printedChar c).map some ++ [some 0]) (by simp [hle])
    rw [List.append_assoc, List.take_append_drop, List.length_map, length_base16Text] at hwrite
    have hcut : (printedChar c).map some
        = (keptDigits c).map some ++ ((printedChar c).drop 2).map some := by
      rw [← List.map_append, ← printedChar_eq]
    rw [written, hwrite, written, base16Text_append, hcut]
    simp [base16Text]
  · intro hc hx
    have hlen := length_printedChar c
    rw [if_pos hc] at hlen
    rw [List.drop_eq_nil_of_le (Nat.le_of_eq hlen), hlen, List.drop_eq_nil_of_le (Nat.le_of_eq hx)]
    rfl

/-- Where they do not fit, the call goes past the end of the buffer. -/
theorem writeAt_written_outside (done : List UInt8) (c : UInt8) {x : Cells UInt8}
    (hlt : x.length < (printedChar c).length + 1) :
    writeAt (written done x) (2 * done.length) ((printedChar c).map some ++ [some 0])
      = .error .outOfBounds := by
  refine if_neg ?_
  simp only [written, List.length_append, List.length_map, length_base16Text, List.length_cons,
    List.length_nil]
  omega

/-- Room for what is left of the text is room for the next character exactly where it has two
digits, or three more characters follow. -/
theorem printed_le_iff {c : UInt8} {rest : List UInt8} {x : Cells UInt8}
    (hroom : x.length = 2 * (c :: rest).length + 1) :
    (printedChar c).length + 1 ≤ x.length ↔ c < 128 ∨ 3 ≤ rest.length := by
  rw [List.length_cons] at hroom
  rw [length_printedChar, hroom]
  by_cases hc : c < 128
  · rw [if_pos hc]
    exact iff_of_true (by omega) (Or.inl hc)
  · rw [if_neg hc]
    exact ⟨fun h => Or.inr (by omega), fun h => by have := h.resolve_left hc; omega⟩

/-- **The loop of `stringToBase16`** leaves two digits for each character, where none of the others
is printed past the end. -/
theorem stringToBase16Loop_eq {m : Cells UInt8} (rest done : List UInt8) (x : Cells UInt8)
    (hm : Terminated m (done ++ rest)) (hfits : Fits rest) (hroom : x.length = 2 * rest.length + 1)
    (hlast : rest = [] → x = [some 0]) :
    stringToBase16Loop m rest.length done.length (2 * done.length) (written done x)
      = .ok (written (done ++ rest) [some 0]) := by
  induction rest generalizing done x with
  | nil =>
    obtain rfl := hlast rfl
    rw [List.append_nil]
    rfl
  | cons c rest ih =>
    obtain ⟨x', hx', hwrite, hone⟩ :=
      writeAt_written done c ((printed_le_iff hroom).mpr hfits.head)
    rw [List.length_cons] at hroom
    have hlast' : rest = [] → x' = [some 0] := by
      rintro rfl
      exact hone (hfits.head.resolve_right (by simp)) hroom
    rw [List.length_cons, stringToBase16Loop, hm.load_eq rfl, ok_bind, hwrite, ok_bind]
    have := ih (done ++ [c]) x' (by simpa using hm) hfits.tail (by omega) hlast'
    simpa [Nat.mul_add] using this

/-- Without that the loop goes past the end of its buffer. -/
theorem stringToBase16Loop_outside {m : Cells UInt8} (rest done : List UInt8) (x : Cells UInt8)
    (hm : Terminated m (done ++ rest)) (hfits : ¬ Fits rest)
    (hroom : x.length = 2 * rest.length + 1) :
    stringToBase16Loop m rest.length done.length (2 * done.length) (written done x)
      = .error .outOfBounds := by
  induction rest generalizing done x with
  | nil => exact absurd (fun i hi => absurd hi (Nat.not_lt_zero i)) hfits
  | cons c rest ih =>
    rw [List.length_cons, stringToBase16Loop, hm.load_eq rfl, ok_bind]
    by_cases hc : c < 128 ∨ 3 ≤ rest.length
    · obtain ⟨x', hx', hwrite, -⟩ := writeAt_written done c ((printed_le_iff hroom).mpr hc)
      rw [List.length_cons] at hroom
      rw [hwrite, ok_bind]
      have := ih (done ++ [c]) x' (by simpa using hm) (fun h => hfits (h.cons hc)) (by omega)
      simpa [Nat.mul_add] using this
    · rw [writeAt_written_outside done c
        (Nat.lt_of_not_le fun h => hc ((printed_le_iff hroom).mp h)), error_bind]

/-- **The loop of `base16ToString`** reads a character from each two digits. -/
theorem base16ToStringLoop_eq {m : Cells UInt8} (rest done : List UInt8) (x : Cells UInt8)
    (fuel : Nat) (hm : Terminated m (base16Text (done ++ rest))) (hroom : rest.length ≤ x.length)
    (hfuel : rest.length < fuel) :
    base16ToStringLoop m (2 * (done ++ rest).length) fuel (2 * done.length) done.length
        ((done.map readBack).map some ++ x)
      = .ok (((done ++ rest).map readBack).map some ++ x.drop rest.length) := by
  induction rest generalizing done x fuel with
  | nil =>
    obtain ⟨fuel, rfl⟩ := Nat.exists_eq_succ_of_ne_zero (Nat.pos_iff_ne_zero.mp hfuel)
    rw [base16ToStringLoop, List.append_nil, if_neg (by omega), List.length_nil, List.drop_zero]
  | cons c rest ih =>
    obtain ⟨fuel, rfl⟩ := Nat.exists_eq_succ_of_ne_zero
      (Nat.pos_iff_ne_zero.mp (Nat.lt_of_le_of_lt (Nat.zero_le _) hfuel))
    obtain ⟨a, x, rfl⟩ := List.exists_cons_of_length_pos (l := x)
      (by simp only [List.length_cons] at hroom; omega)
    obtain ⟨d, e, hkept, hback, -, -⟩ := keptDigits_eq c
    have htext : base16Text (done ++ c :: rest)
        = base16Text done ++ d :: e :: base16Text rest := by
      rw [base16Text_append, base16Text_cons, hkept]
      rfl
    have hfirst : load m (2 * done.length) = .ok d :=
      Terminated.load_eq (htext ▸ hm) (length_base16Text done).symm
    have hsecond : load m (2 * done.length + 1) = .ok e := by
      have hm' : Terminated m ((base16Text done ++ [d]) ++ e :: base16Text rest) := by
        rw [htext] at hm
        simpa using hm
      exact hm'.load_eq (by simp)
    have hstore := store_append ((done.map readBack).map some) x a (readBack c)
    rw [List.length_map, List.length_map] at hstore
    simp only [List.length_cons] at hroom hfuel
    rw [base16ToStringLoop, if_pos (by simp only [List.length_append, List.length_cons]; omega),
      hfirst, ok_bind, hsecond, ok_bind, hback, hstore, ok_bind]
    have := ih (done ++ [c]) x fuel (by simpa using hm) (by omega) (by omega)
    simpa [Nat.mul_add] using this

/-! ### The two functions -/

theorem writeAt_whole (m : Cells UInt8) :
    writeAt m 0 (List.replicate m.length (some 0)) = .ok (List.replicate m.length (some 0)) := by
  have := writeAt_append ([] : Cells UInt8) [] (o := m) (n := List.replicate m.length (some 0))
    (by rw [List.length_replicate])
  simpa using this

/-- With two bytes for each character and one for the NUL, the call is its loop. -/
theorem stringToBase16_eq (s : CStr) {dest : Cells UInt8}
    (hdest : dest.length = 2 * s.bytes.length + 1) :
    stringToBase16 (some s.cells) (some dest) dest.length
      = (stringToBase16Loop s.cells s.bytes.length 0 0
          (written [] (List.replicate dest.length (some 0))) >>= fun m => .ok (.ok m)) := by
  have hsize : ¬ dest.length < (s.bytes.length * 2 + 1) % 2 ^ 64 := by
    have := Nat.mod_le (s.bytes.length * 2 + 1) (2 ^ 64)
    omega
  show (strlen s.cells >>= fun _ => _) = _
  rw [s.holds.strlen_eq, ok_bind, if_neg hsize, writeAt_whole, ok_bind]
  rfl

/-- **The text of a string**, where every character finds its place. -/
theorem stringToBase16_ok {s : CStr} (hfits : Fits s.bytes) {dest : Cells UInt8}
    (hdest : dest.length = 2 * s.bytes.length + 1) :
    stringToBase16 (some s.cells) (some dest) dest.length
      = .ok (.ok (written s.bytes [some 0])) := by
  have hloop : stringToBase16Loop s.cells s.bytes.length 0 0
      (written [] (List.replicate dest.length (some 0))) = .ok (written s.bytes [some 0]) := by
    refine stringToBase16Loop_eq s.bytes [] _ s.holds.split hfits ?_ fun hnil => ?_
    · rw [List.length_replicate, hdest]
    · rw [hdest, hnil]
      rfl
  rw [stringToBase16_eq s hdest, hloop, ok_bind]

theorem stringToBase16_outside {s : CStr} (hfits : ¬ Fits s.bytes) {dest : Cells UInt8}
    (hdest : dest.length = 2 * s.bytes.length + 1) :
    stringToBase16 (some s.cells) (some dest) dest.length = .error .outOfBounds := by
  have hloop : stringToBase16Loop s.cells s.bytes.length 0 0
      (written [] (List.replicate dest.length (some 0))) = .error .outOfBounds :=
    stringToBase16Loop_outside s.bytes [] _ s.holds.split hfits
      (by rw [List.length_replicate, hdest])
  rw [stringToBase16_eq s hdest, hloop, error_bind]

theorem written_holds (s : List UInt8) : Holds (written s [some 0]) (base16Text s) :=
  ⟨base16Text_nulFree s, [], rfl⟩

/-- The text of the empty string is refused. -/
theorem base16ToString_empty (dest : Cells UInt8) :
    base16ToString (some (written [] [some 0])) (some dest) dest.length
      = .ok (.error "Invalid argument") := by
  show (strlen (written [] [some 0]) >>= fun _ => _) = _
  rw [(written_holds []).strlen_eq, length_base16Text, ok_bind]
  exact if_pos (Or.inl rfl)

/-- **The way back**: a character of the upper half comes back as the last one. -/
theorem base16ToString_holds {s : List UInt8} (hs : 0 ∉ s) (hne : s ≠ []) {dest : Cells UInt8}
    (hdest : s.length + 1 ≤ dest.length) :
    ∃ m, base16ToString (some (written s [some 0])) (some dest) dest.length = .ok (.ok m) ∧
      Holds m (s.map readBack) := by
  have hpos : 0 < s.length := List.length_pos_iff.mpr hne
  have hsize : ¬ (2 * s.length = 0 ∨ dest.length < 2 * s.length / 2 + 1) := by omega
  have hloop : base16ToStringLoop (written s [some 0]) (2 * s.length) (2 * s.length) 0 0
      (List.replicate dest.length (some 0))
      = .ok ((s.map readBack).map some ++ (List.replicate dest.length (some 0)).drop s.length) :=
    base16ToStringLoop_eq s [] _ _ (written_holds s).split (by rw [List.length_replicate]; omega)
      (by omega)
  refine ⟨(s.map readBack).map some ++ (List.replicate dest.length (some 0)).drop s.length,
    ?_, ?_, List.replicate (dest.length - s.length - 1) (some 0), ?_⟩
  · show (strlen (written s [some 0]) >>= fun _ => _) = _
    rw [(written_holds s).strlen_eq, length_base16Text, ok_bind, if_neg hsize, writeAt_whole,
      ok_bind, hloop, ok_bind]
    rfl
  · intro hmem
    obtain ⟨c, hc, hzero⟩ := List.mem_map.mp hmem
    refine readBack_ne_zero ?_ hzero
    rintro rfl
    exact hs hc
  · rw [List.drop_replicate, ← List.replicate_succ]
    congr 2
    omega

/-- What the two functions are to do with a string, given their buffers: the first stays inside
its own, and the string comes back. -/
def RoundTrips (s : CStr) (pDestBase16Data pDestStringData : Cells UInt8) : Prop :=
  ∃ m m', stringToBase16 (some s.cells) (some pDestBase16Data) pDestBase16Data.length
      = .ok (.ok m) ∧
    base16ToString (some m) (some pDestStringData) pDestStringData.length = .ok (.ok m') ∧
    Holds m' s.bytes

/-- **A string comes back exactly where** it is not empty, and every character of the upper half is
the last one, 255, with three characters or more behind it. -/
theorem roundTrips_iff (s : CStr) {pDestBase16Data pDestStringData : Cells UInt8}
    (hdest : pDestBase16Data.length = 2 * s.bytes.length + 1)
    (hdest' : s.bytes.length + 1 ≤ pDestStringData.length) :
    RoundTrips s pDestBase16Data pDestStringData ↔ s.bytes ≠ [] ∧
      ∀ (i : ℕ) (h : i < s.bytes.length),
        s.bytes[i] < 128 ∨ (s.bytes[i] = 255 ∧ i + 3 < s.bytes.length) := by
  constructor
  · rintro ⟨m, m', hto, hfrom, hholds⟩
    have hfits : Fits s.bytes := by
      by_contra hfits
      exact absurd ((stringToBase16_outside hfits hdest).symm.trans hto) (by simp)
    obtain rfl := Except.ok.inj (Except.ok.inj ((stringToBase16_ok hfits hdest).symm.trans hto))
    have hne : s.bytes ≠ [] := by
      intro hnil
      rw [hnil, base16ToString_empty] at hfrom
      exact absurd (Except.ok.inj hfrom) (by simp)
    obtain ⟨m'', hfrom', hholds'⟩ := base16ToString_holds s.nulFree hne hdest'
    obtain rfl := Except.ok.inj (Except.ok.inj (hfrom.symm.trans hfrom'))
    have hback : s.bytes.map readBack = s.bytes := hholds'.unique hholds
    refine ⟨hne, fun i hi => ?_⟩
    have hc : readBack s.bytes[i] = s.bytes[i] :=
      List.map_eq_map_iff.mp (hback.trans (List.map_id _).symm) _ (List.getElem_mem hi)
    rcases readBack_eq_self.mp hc with hlow | hlast
    · exact Or.inl hlow
    · exact (hfits i hi).imp_right fun hafter => ⟨hlast, hafter⟩
  · rintro ⟨hne, hall⟩
    have hfits : Fits s.bytes := fun i hi => (hall i hi).imp_right And.right
    obtain ⟨m', hfrom, hholds⟩ := base16ToString_holds s.nulFree hne hdest'
    have hback : s.bytes.map readBack = s.bytes := by
      refine (List.map_congr_left fun c hc => ?_).trans (List.map_id _)
      obtain ⟨i, hi, rfl⟩ := List.mem_iff_getElem.mp hc
      exact readBack_eq_self.mpr ((hall i hi).imp_right And.left)
    rw [hback] at hholds
    exact ⟨_, m', stringToBase16_ok hfits hdest, hfrom, hholds⟩

/-- The last character of all, with three behind it. -/
theorem roundTrips_last :
    RoundTrips ⟨[255, 97, 98, 99], by decide⟩ (List.replicate 9 none) (List.replicate 5 none) :=
  (roundTrips_iff ⟨[255, 97, 98, 99], by decide⟩ (by decide) (by decide)).mpr
    ⟨by decide, by decide⟩

/-- A character of the upper half at the end is printed past the end of the buffer, one before
others comes back as another, and the empty string is refused. -/
theorem not_roundTrips :
    stringToBase16 (some (CStr.cells ⟨[233], by decide⟩)) (some (List.replicate 3 none)) 3
        = .error .outOfBounds ∧
      ¬ RoundTrips ⟨[233], by decide⟩ (List.replicate 3 none) (List.replicate 2 none) ∧
      ¬ RoundTrips ⟨[233, 97, 98, 99], by decide⟩ (List.replicate 9 none) (List.replicate 5 none) ∧
      ¬ RoundTrips ⟨[], by decide⟩ (List.replicate 1 none) (List.replicate 1 none) := by
  have hlong : stringToBase16 (some (CStr.cells ⟨[233], by decide⟩)) (some (List.replicate 3 none))
      3 = .error .outOfBounds := by decide +kernel
  refine ⟨hlong, ?_, ?_, ?_⟩
  · rintro ⟨m, m', hto, -⟩
    exact absurd (hlong.symm.trans hto) (by simp)
  · rintro ⟨m, m', hto, hfrom, hholds⟩
    obtain rfl : written [233, 97, 98, 99] [some 0] = m :=
      Except.ok.inj (Except.ok.inj (Eq.trans (by decide +kernel) hto))
    obtain rfl : [some 255, some 97, some 98, some 99, some 0] = m' :=
      Except.ok.inj (Except.ok.inj (Eq.trans (by decide +kernel) hfrom))
    have hother : Holds [some 255, some 97, some 98, some 99, some 0] [255, 97, 98, 99] :=
      ⟨by decide, [], rfl⟩
    exact absurd (hholds.unique hother) (by decide)
  · rintro ⟨m, m', hto, hfrom, -⟩
    obtain rfl : written [] [some 0] = m :=
      Except.ok.inj (Except.ok.inj (Eq.trans (by decide +kernel) hto))
    exact absurd ((base16ToString_empty _).symm.trans hfrom) (by simp)

end Convert

end CatraLibraries
