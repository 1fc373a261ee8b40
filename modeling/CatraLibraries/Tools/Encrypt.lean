/-
# The character-wise encryption

`Tools/src/Encrypt.cpp`, the implementation for Linux.  `encrypt` writes two characters for
each character of its argument: `1` and the character shifted by 3 where the shifted one is
printable and is none of the four that trouble a URL or a token, `0` and the character itself
otherwise.  `decrypt` reads the pairs back.

Both loops count with `int`, whose overflow has no defined behaviour.  The last character of
a pair is one of the four in a single case: `;` is shifted to `>`, so `;` itself is written.
-/
import CatraLibraries.Lib.CString
import CatraLibraries.Lib.Percent
import Mathlib.Algebra.Group.Nat.Defs

namespace CatraLibraries

open Memory CString Percent

namespace Encrypt

/-! ### The code -/

/-- `index += step` on an `int` that is not negative. -/
def addInt (index step : Nat) : Except Fault Nat :=
  if index + step < 2 ^ 31 then .ok (index + step) else .error .undefinedArithmetic

/-- `getCryptedBufferLength`. -/
def getCryptedBufferLength (pBufferToEncrypt : Cells UInt8) : Except Fault Nat := do
  return (← strlen pBufferToEncrypt) * 2 % 2 ^ 64

/-- `getDecryptedBufferLength`. -/
def getDecryptedBufferLength (pCryptedBuffer : Cells UInt8) : Except Fault Nat := do
  return (← strlen pCryptedBuffer) / 2

/-- Whether the character is shifted: `char` is signed, and the sum is an `int`. -/
def isShifted (c : UInt8) : Bool :=
  c.toInt8.toInt + 3 ≥ 32 && c.toInt8.toInt + 3 ≤ 126
    -- chars creating problems in URL...
    && c + 3 != 60 && c + 3 != 62 && c + 3 != 61
    -- chars creating problems for the token...
    && c + 3 != 59

/-- The two characters written for one. -/
def pair (c : UInt8) : UInt8 × UInt8 := if isShifted c then (49, c + 3) else (48, c)

/-- The loop of `encrypt`, over as many characters as the first argument says. -/
def encryptLoop (pBufferToEncrypt : Cells UInt8) :
    Nat → Nat → Nat → Cells UInt8 → Except Fault (Nat × Cells UInt8)
  | 0, _, indexForCrypted, pCryptedBuffer => .ok (indexForCrypted, pCryptedBuffer)
  | n + 1, indexForToEncrypt, indexForCrypted, pCryptedBuffer => do
    let c ← load pBufferToEncrypt indexForToEncrypt
    let pCryptedBuffer ← store pCryptedBuffer indexForCrypted (pair c).1
    let pCryptedBuffer ← store pCryptedBuffer (indexForCrypted + 1) (pair c).2
    let indexForToEncrypt ← addInt indexForToEncrypt 1
    let indexForCrypted ← addInt indexForCrypted 2
    encryptLoop pBufferToEncrypt n indexForToEncrypt indexForCrypted pCryptedBuffer

/-- `encrypt (pBufferToEncrypt, pCryptedBuffer, ulCryptedBufferLength)`. -/
def encrypt (pBufferToEncrypt pCryptedBuffer : Cells UInt8) (ulCryptedBufferLength : Nat) :
    Except Fault (Int × Cells UInt8) := do
  let ulBufferToEncryptLength ← strlen pBufferToEncrypt
  if ulCryptedBufferLength ≤ (← getCryptedBufferLength pBufferToEncrypt) then
    return (1, pCryptedBuffer)
  else
    let (indexForCrypted, pCryptedBuffer) ←
      encryptLoop pBufferToEncrypt ulBufferToEncryptLength 0 0 pCryptedBuffer
    let pCryptedBuffer ← store pCryptedBuffer indexForCrypted 0
    return (0, pCryptedBuffer)

/-- The character that a pair stands for. -/
def unpair (flag c : UInt8) : UInt8 := if flag = 49 then c - 3 else c

/-- The loop of `decrypt`. -/
def decryptLoop (pCryptedBuffer : Cells UInt8) (uCryptedBufferLength : Nat) :
    Nat → Nat → Nat → Cells UInt8 → Except Fault (Nat × Cells UInt8)
  | 0, _, _, _ => .error .outOfFuel
  | fuel + 1, indexForCrypted, indexForDecrypted, pDecryptedBuffer =>
    if indexForCrypted < uCryptedBufferLength then do
      let flag ← load pCryptedBuffer indexForCrypted
      let c ← load pCryptedBuffer (indexForCrypted + 1)
      let pDecryptedBuffer ← store pDecryptedBuffer indexForDecrypted (unpair flag c)
      let indexForCrypted ← addInt indexForCrypted 2
      let indexForDecrypted ← addInt indexForDecrypted 1
      decryptLoop pCryptedBuffer uCryptedBufferLength fuel indexForCrypted indexForDecrypted
        pDecryptedBuffer
    else .ok (indexForDecrypted, pDecryptedBuffer)

/-- `decrypt (pCryptedBuffer, pDecryptedBuffer, uDecryptedBufferLength)`. -/
def decrypt (pCryptedBuffer pDecryptedBuffer : Cells UInt8) (uDecryptedBufferLength : Nat) :
    Except Fault (Int × Cells UInt8) := do
  let uCryptedBufferLength ← strlen pCryptedBuffer
  if uDecryptedBufferLength ≤ (← getDecryptedBufferLength pCryptedBuffer) then
    return (1, pDecryptedBuffer)
  else
    let (indexForDecrypted, pDecryptedBuffer) ←
      decryptLoop pCryptedBuffer uCryptedBufferLength (uCryptedBufferLength + 1) 0 0
        pDecryptedBuffer
    let pDecryptedBuffer ← store pDecryptedBuffer indexForDecrypted 0
    return (0, pDecryptedBuffer)

/-! ### One character -/

/-- The ciphertext of a string. -/
def codes (s : List UInt8) : List UInt8 := s.flatMap fun c => [(pair c).1, (pair c).2]

/-- The four characters that the code sets out to avoid. -/
def troublesome : List UInt8 := [60, 62, 61, 59]

@[simp] theorem codes_nil : codes [] = [] := rfl

@[simp] theorem codes_cons (c : UInt8) (s : List UInt8) :
    codes (c :: s) = (pair c).1 :: (pair c).2 :: codes s := rfl

@[simp] theorem codes_append (s t : List UInt8) : codes (s ++ t) = codes s ++ codes t :=
  List.flatMap_append

@[simp] theorem length_codes (s : List UInt8) : (codes s).length = 2 * s.length := by
  induction s with
  | nil => rfl
  | cons c s ih =>
    rw [codes_cons, List.length_cons, List.length_cons, List.length_cons, ih]
    omega

/-- A character is read back from its pair. -/
theorem unpair_pair (c : UInt8) : unpair (pair c).1 (pair c).2 = c := by
  unfold pair
  by_cases hshift : isShifted c
  · rw [if_pos hshift]
    exact UInt8.add_sub_cancel c 3
  · rw [if_neg hshift]
    rfl

/-- Neither character of a pair is a NUL, and only `;` leaves one of the four. -/
theorem pair_spec (c : UInt8) :
    (pair c).1 ≠ 0 ∧ (c ≠ 0 → (pair c).2 ≠ 0) ∧ (pair c).1 ∉ troublesome ∧
      ((pair c).2 ∈ troublesome ↔ c = 59) := by
  refine forall_uint8 (P := fun c => (pair c).1 ≠ 0 ∧ (c ≠ 0 → (pair c).2 ≠ 0) ∧
    (pair c).1 ∉ troublesome ∧ ((pair c).2 ∈ troublesome ↔ c = 59)) ?_ ?_ ?_ ?_ c
  all_goals decide +kernel

theorem codes_nulFree {s : List UInt8} (hs : 0 ∉ s) : 0 ∉ codes s := by
  induction s with
  | nil => simp
  | cons c s ih =>
    obtain ⟨hflag, hvalue, -, -⟩ := pair_spec c
    have hc : c ≠ 0 := fun h => hs (by simp [h])
    rw [codes_cons, List.mem_cons, List.mem_cons, not_or, not_or]
    exact ⟨hflag.symm, (hvalue hc).symm, ih fun h => hs (List.mem_cons_of_mem c h)⟩

/-- The ciphertext avoids the four characters exactly where the string has no `;`. -/
theorem codes_avoid_iff (s : List UInt8) : (∀ x ∈ troublesome, x ∉ codes s) ↔ 59 ∉ s := by
  induction s with
  | nil => simp
  | cons c s ih =>
    obtain ⟨-, -, hflag, hvalue⟩ := pair_spec c
    rw [List.mem_cons, not_or, ← ih]
    constructor
    · intro h
      refine ⟨fun hc => ?_, fun x hx hmem => h x hx ?_⟩
      · exact h _ (hvalue.mpr hc.symm) (by simp)
      · rw [codes_cons]
        exact List.mem_cons_of_mem _ (List.mem_cons_of_mem _ hmem)
    · rintro ⟨hc, hrest⟩ x hx hmem
      rw [codes_cons, List.mem_cons, List.mem_cons] at hmem
      rcases hmem with rfl | rfl | hmem
      · exact hflag hx
      · exact hc (hvalue.mp hx).symm
      · exact hrest x hx hmem

/-! ### The loops -/

theorem addInt_ok {index step : Nat} (h : index + step < 2 ^ 31) :
    addInt index step = .ok (index + step) := if_pos h

theorem addInt_overflow {index step : Nat} (h : 2 ^ 31 ≤ index + step) :
    addInt index step = .error .undefinedArithmetic := if_neg (by omega)

theorem store_at {done : List UInt8} {a : Option UInt8} {x : Cells UInt8} (c : UInt8) {i : Nat}
    (hi : i = done.length) :
    store (done.map some ++ a :: x) i c = .ok ((done ++ [c]).map some ++ x) := by
  subst hi
  have := store_append (done.map some) x a c
  simpa using this

/-- One turn of `encrypt`, up to the two increments. -/
theorem encryptLoop_step {m : Cells UInt8} {done rest : List UInt8} {c : UInt8}
    (hm : Holds m (done ++ c :: rest)) (a b : Option UInt8) (x : Cells UInt8) (n : Nat) :
    encryptLoop m (n + 1) done.length (2 * done.length) ((codes done).map some ++ a :: b :: x)
      = (do
        let indexForToEncrypt ← addInt done.length 1
        let indexForCrypted ← addInt (2 * done.length) 2
        encryptLoop m n indexForToEncrypt indexForCrypted
          ((codes (done ++ [c])).map some ++ x)) := by
  rw [encryptLoop, Terminated.load_eq hm.split rfl, ok_bind, store_at _ (length_codes done).symm, ok_bind,
    store_at _ (by simp), ok_bind]
  simp

/-- **The loop of `encrypt`** on a string whose ciphertext an `int` can index. -/
theorem encryptLoop_eq {m : Cells UInt8} (rest done : List UInt8) (x : Cells UInt8)
    (hm : Holds m (done ++ rest)) (hroom : 2 * rest.length ≤ x.length)
    (hint : (done ++ rest).length < 2 ^ 30) :
    encryptLoop m rest.length done.length (2 * done.length) ((codes done).map some ++ x)
      = .ok (2 * (done ++ rest).length,
          (codes (done ++ rest)).map some ++ x.drop (2 * rest.length)) := by
  induction rest generalizing done x with
  | nil => simp [encryptLoop]
  | cons c rest ih =>
    match x with
    | [] | [_] => simp only [List.length_cons, List.length_nil] at hroom; omega
    | a :: b :: x =>
      simp only [List.length_append, List.length_cons] at hroom hint
      rw [List.length_cons, encryptLoop_step hm, addInt_ok (by omega), ok_bind,
        addInt_ok (by omega), ok_bind]
      have := ih (done ++ [c]) x (by simpa using hm) (by omega)
        (by simp only [List.length_append, List.length_cons, List.length_nil]; omega)
      simp only [List.length_append, List.length_cons, List.length_nil, List.append_assoc,
        List.cons_append, List.nil_append, Nat.zero_add, Nat.mul_add] at this ⊢
      exact this

/-- A string of 2³⁰ characters makes the index of the ciphertext overflow. -/
theorem encryptLoop_overflow {m : Cells UInt8} (rest done : List UInt8) (x : Cells UInt8)
    (hm : Holds m (done ++ rest)) (hroom : 2 * rest.length ≤ x.length)
    (hdone : done.length < 2 ^ 30) (hint : 2 ^ 30 ≤ (done ++ rest).length) :
    encryptLoop m rest.length done.length (2 * done.length) ((codes done).map some ++ x)
      = .error .undefinedArithmetic := by
  induction rest generalizing done x with
  | nil => simp at hint; omega
  | cons c rest ih =>
    match x with
    | [] | [_] => simp only [List.length_cons, List.length_nil] at hroom; omega
    | a :: b :: x =>
      simp only [List.length_append, List.length_cons] at hroom hint
      rw [List.length_cons, encryptLoop_step hm, addInt_ok (by omega), ok_bind]
      by_cases hlast : done.length + 1 = 2 ^ 30
      · rw [addInt_overflow (by omega), error_bind]
      · rw [addInt_ok (by omega), ok_bind]
        have := ih (done ++ [c]) x (by simpa using hm) (by omega)
          (by simp only [List.length_append, List.length_cons, List.length_nil]; omega)
          (by simp only [List.length_append, List.length_cons, List.length_nil]; omega)
        simpa [Nat.mul_add] using this

/-- **The loop of `decrypt`** on a ciphertext that an `int` can index. -/
theorem decryptLoop_eq {m : Cells UInt8} (rest done : List UInt8) (x : Cells UInt8) (fuel : Nat)
    (hm : Holds m (codes (done ++ rest))) (hroom : rest.length ≤ x.length)
    (hint : (done ++ rest).length < 2 ^ 30) (hfuel : rest.length < fuel) :
    decryptLoop m (2 * (done ++ rest).length) fuel (2 * done.length) done.length
        (done.map some ++ x)
      = .ok ((done ++ rest).length, (done ++ rest).map some ++ x.drop rest.length) := by
  induction rest generalizing done x fuel with
  | nil =>
    obtain ⟨fuel, rfl⟩ := Nat.exists_eq_succ_of_ne_zero (Nat.pos_iff_ne_zero.mp hfuel)
    simp [decryptLoop]
  | cons c rest ih =>
    obtain ⟨fuel, rfl⟩ := Nat.exists_eq_succ_of_ne_zero
      (Nat.pos_iff_ne_zero.mp (Nat.lt_of_le_of_lt (Nat.zero_le _) hfuel))
    obtain ⟨a, x, rfl⟩ := List.exists_cons_of_length_pos (l := x)
      (by simp only [List.length_cons] at hroom; omega)
    rw [codes_append, codes_cons] at hm
    have hflag := Terminated.load_eq hm.split (length_codes done).symm
    have hm' : Holds m ((codes done ++ [(pair c).1]) ++ (pair c).2 :: codes rest) := by
      simpa using hm
    have hvalue : load m (2 * done.length + 1) = .ok (pair c).2 := Terminated.load_eq hm'.split (by simp)
    simp only [List.length_append, List.length_cons] at hroom hint hfuel
    rw [decryptLoop, if_pos (by simp only [List.length_append, List.length_cons]; omega), hflag,
      ok_bind, hvalue, ok_bind, unpair_pair, store_at _ rfl, ok_bind, addInt_ok (by omega),
      ok_bind, addInt_ok (by omega), ok_bind]
    have := ih (done ++ [c]) x fuel (by simpa using hm) (by omega)
      (by simp only [List.length_append, List.length_cons, List.length_nil]; omega) (by omega)
    simpa [Nat.mul_add] using this

/-! ### The two functions -/

theorem encrypt_eq (s : CStr) {pCryptedBuffer : Cells UInt8} {ulCryptedBufferLength : Nat}
    (hroom : 2 * s.bytes.length < ulCryptedBufferLength)
    (hword : ulCryptedBufferLength < 2 ^ 64) :
    encrypt s.cells pCryptedBuffer ulCryptedBufferLength
      = (encryptLoop s.cells s.bytes.length 0 0 pCryptedBuffer >>= fun r =>
          store r.2 r.1 0 >>= fun pCryptedBuffer => .ok (0, pCryptedBuffer)) := by
  have hlen : getCryptedBufferLength s.cells = .ok (2 * s.bytes.length) := by
    rw [getCryptedBufferLength, s.holds.strlen_eq, ok_bind, Nat.mul_comm,
      Nat.mod_eq_of_lt (by omega)]
    rfl
  rw [encrypt, s.holds.strlen_eq, ok_bind, hlen, ok_bind, if_neg (by omega)]
  rfl

/-- **The ciphertext.** -/
theorem encrypt_holds (s : CStr) {pCryptedBuffer : Cells UInt8} {ulCryptedBufferLength : Nat}
    (hroom : 2 * s.bytes.length < ulCryptedBufferLength)
    (hbuffer : ulCryptedBufferLength ≤ pCryptedBuffer.length)
    (hword : ulCryptedBufferLength < 2 ^ 64) (hint : s.bytes.length < 2 ^ 30) :
    ∃ m, encrypt s.cells pCryptedBuffer ulCryptedBufferLength = .ok (0, m) ∧
      Holds m (codes s.bytes) := by
  have hloop : encryptLoop s.cells s.bytes.length 0 0 pCryptedBuffer
      = .ok (2 * s.bytes.length,
          (codes s.bytes).map some ++ pCryptedBuffer.drop (2 * s.bytes.length)) :=
    encryptLoop_eq s.bytes [] pCryptedBuffer s.holds (by omega) hint
  obtain ⟨m, hst, -, hm⟩ := store_nul_after (codes s.bytes)
    (x := pCryptedBuffer.drop (2 * s.bytes.length)) (by
      intro hnil
      have := congrArg List.length hnil
      simp only [List.length_drop, List.length_nil] at this
      omega)
  rw [length_codes] at hst
  refine ⟨m, ?_, codes_nulFree s.nulFree, hm⟩
  rw [encrypt_eq s hroom hword, hloop, ok_bind, hst, ok_bind]

/-- **The way back.** -/
theorem decrypt_holds {s : List UInt8} (hs : 0 ∉ s) {pCryptedBuffer pDecryptedBuffer : Cells UInt8}
    (hm : Holds pCryptedBuffer (codes s)) {uDecryptedBufferLength : Nat}
    (hroom : s.length < uDecryptedBufferLength)
    (hbuffer : uDecryptedBufferLength ≤ pDecryptedBuffer.length) (hint : s.length < 2 ^ 30) :
    ∃ m, decrypt pCryptedBuffer pDecryptedBuffer uDecryptedBufferLength = .ok (0, m) ∧
      Holds m s := by
  have hloop : decryptLoop pCryptedBuffer (2 * s.length) (2 * s.length + 1) 0 0 pDecryptedBuffer
      = .ok (s.length, s.map some ++ pDecryptedBuffer.drop s.length) :=
    decryptLoop_eq s [] pDecryptedBuffer (2 * s.length + 1) hm (by omega) hint (by omega)
  obtain ⟨m, hst, -, hm'⟩ := store_nul_after s (x := pDecryptedBuffer.drop s.length) (by
    intro hnil
    have := congrArg List.length hnil
    simp only [List.length_drop, List.length_nil] at this
    omega)
  have hlen : getDecryptedBufferLength pCryptedBuffer = .ok s.length := by
    rw [getDecryptedBufferLength, hm.strlen_eq, ok_bind, length_codes,
      Nat.mul_div_cancel_left _ (by decide)]
    rfl
  refine ⟨m, ?_, hs, hm'⟩
  rw [decrypt, hm.strlen_eq, ok_bind, hlen, ok_bind, if_neg (by omega), length_codes,
    hloop, ok_bind]
  dsimp only
  rw [hst, ok_bind]
  rfl

/-- What the two functions are to do with a string, given the buffers and their lengths: they
succeed, the ciphertext has none of the four characters, and the string comes back. -/
def Protects (s : CStr) (pCryptedBuffer : Cells UInt8) (ulCryptedBufferLength : Nat)
    (pDecryptedBuffer : Cells UInt8) (uDecryptedBufferLength : Nat) : Prop :=
  ∃ m t, encrypt s.cells pCryptedBuffer ulCryptedBufferLength = .ok (0, m) ∧ Holds m t ∧
    (∀ x ∈ troublesome, x ∉ t) ∧
    ∃ m', decrypt m pDecryptedBuffer uDecryptedBufferLength = .ok (0, m') ∧ Holds m' s.bytes

/-- **The encryption does what it sets out to do exactly on strings without `;`** that are
shorter than 2³⁰ bytes, whatever buffers of sufficient length are passed. -/
theorem protects_iff (s : CStr) {pCryptedBuffer pDecryptedBuffer : Cells UInt8}
    {ulCryptedBufferLength uDecryptedBufferLength : Nat}
    (hroom : 2 * s.bytes.length < ulCryptedBufferLength)
    (hbuffer : ulCryptedBufferLength ≤ pCryptedBuffer.length)
    (hword : ulCryptedBufferLength < 2 ^ 64)
    (hroom' : s.bytes.length < uDecryptedBufferLength)
    (hbuffer' : uDecryptedBufferLength ≤ pDecryptedBuffer.length) :
    Protects s pCryptedBuffer ulCryptedBufferLength pDecryptedBuffer uDecryptedBufferLength ↔
      59 ∉ s.bytes ∧ s.bytes.length < 2 ^ 30 := by
  constructor
  · rintro ⟨m, t, henc, ht, havoid, -⟩
    have hint : s.bytes.length < 2 ^ 30 := by
      by_contra hlong
      have hloop : encryptLoop s.cells s.bytes.length 0 0 pCryptedBuffer
          = .error .undefinedArithmetic :=
        encryptLoop_overflow s.bytes [] pCryptedBuffer s.holds (by omega) (by simp)
          (by simpa using hlong)
      rw [encrypt_eq s hroom hword, hloop, error_bind] at henc
      exact absurd henc (by simp)
    obtain ⟨m', henc', hm'⟩ := encrypt_holds s hroom hbuffer hword hint
    obtain ⟨-, rfl⟩ := Prod.mk.inj (Except.ok.inj (henc.symm.trans henc'))
    obtain rfl := ht.unique hm'
    exact ⟨(codes_avoid_iff s.bytes).mp havoid, hint⟩
  · rintro ⟨hsemi, hint⟩
    obtain ⟨m, henc, hm⟩ := encrypt_holds s hroom hbuffer hword hint
    obtain ⟨m', hdec, hm'⟩ := decrypt_holds s.nulFree hm hroom' hbuffer' hint
    exact ⟨m, codes s.bytes, henc, hm, (codes_avoid_iff s.bytes).mpr hsemi, m', hdec, hm'⟩

theorem protects_text :
    Protects ⟨[97, 56, 60, 200], by decide⟩ (List.replicate 9 none) 9 (List.replicate 5 none) 5 :=
  (protects_iff ⟨[97, 56, 60, 200], by decide⟩ (by decide) (by decide) (by decide) (by decide)
    (by decide)).mpr ⟨by decide, by decide⟩

/-- A `;` is shifted to `>`, which is avoided by writing the `;` itself. -/
theorem semicolon_not_protected :
    encrypt (CStr.cells ⟨[59], by decide⟩) (List.replicate 3 none) 3
        = .ok (0, [some 48, some 59, some 0]) ∧
      ¬ Protects ⟨[59], by decide⟩ (List.replicate 3 none) 3 (List.replicate 2 none) 2 := by
  have henc : encrypt (CStr.cells ⟨[59], by decide⟩) (List.replicate 3 none) 3
      = .ok (0, [some 48, some 59, some 0]) := by rfl
  refine ⟨henc, ?_⟩
  rintro ⟨m, t, h, ht, havoid, -⟩
  obtain ⟨-, rfl⟩ := Prod.mk.inj (Except.ok.inj (henc.symm.trans h))
  have hholds : Holds [some 48, some 59, some 0] [48, 59] := ⟨by decide, [], rfl⟩
  obtain rfl := ht.unique hholds
  exact havoid 59 (by decide) (by decide)

end Encrypt

end CatraLibraries
