/-
# The encryption through OpenSSL

`opensslEncrypt` and `opensslDecrypt` of `Tools/src/Encrypt.cpp`, and the conversions between
bytes and base 64 they call.  The functions of OpenSSL are parameters; what the code relies on is
stated of them in `Aes256Cbc` and `Rfc4648`.

Both directions work in a buffer of 10240 bytes on the stack.  The padding makes the encrypted
bytes longer than the plaintext, so the buffer has room for the plaintexts of less than 10240
bytes and for no other (`reverses_iff`).
-/
import CatraLibraries.Lib.Base64
import CatraLibraries.Lib.Pieces

namespace CatraLibraries

open Memory CString

namespace Encrypt

/-! ### The library -/

/-- The functions of OpenSSL.  Those of a cipher are given the key and the initial vector of its
context and all the bytes it is passed, and give the bytes they write; `none` is a failure. -/
structure Openssl where
  encryptUpdate (key iv input : List UInt8) : List UInt8
  encryptFinal (key iv input : List UInt8) : List UInt8
  decryptUpdate (key iv input : List UInt8) : List UInt8
  decryptFinal (key iv input : List UInt8) : Option (List UInt8)
  /-- What `BIO_write` and `BIO_flush` leave in the memory behind the base 64 filter. -/
  base64Write (input : List UInt8) : List UInt8
  /-- What `BIO_read` writes, at most as many bytes as it is told. -/
  base64Read (text : List UInt8) (size : Nat) : Option (List UInt8)

/-- All that is written for a plaintext. -/
def Openssl.cipher (lib : Openssl) (key iv s : List UInt8) : List UInt8 :=
  lib.encryptUpdate key iv s ++ lib.encryptFinal key iv s

/-- **AES-256-CBC with the padding of PKCS#7**: a whole block of padding where the last block is
full, and decryption is the inverse. -/
structure Aes256Cbc (lib : Openssl) (key iv : List UInt8) : Prop where
  length_cipher (s : List UInt8) : (lib.cipher key iv s).length = 16 * (s.length / 16 + 1)
  decrypts (s : List UInt8) : ∃ rest, lib.decryptFinal key iv (lib.cipher key iv s) = some rest ∧
    lib.decryptUpdate key iv (lib.cipher key iv s) ++ rest = s

/-- **The base 64 filter, without newlines**, on the texts of bytes.  Of an empty text there is
nothing to read. -/
structure Rfc4648 (lib : Openssl) : Prop where
  write (s : List UInt8) : lib.base64Write s = Base64.encode s
  read {text s : List UInt8} {size : Nat} (hdecode : Base64.decode text = some s) (hs : s ≠ [])
    (hsize : s.length ≤ size) : lib.base64Read text size = some s

/-! ### The code -/

/-- What a call ends in when it does not return. -/
inductive OpensslFailure
  | fault (fault : Fault)
  | thrown (what : String)
  deriving DecidableEq, Repr

/-- An access to memory, in a function that may throw. -/
def access {α : Type} (x : Except Fault α) : Except OpensslFailure α := x.mapError .fault

@[simp] theorem access_ok {α : Type} (a : α) : access (.ok a) = .ok a := rfl

/-- `unsigned char ciphertext[10240]`, and `ucPlaintext[10240]`. -/
def stackBuffer : Cells UInt8 := List.replicate 10240 none

/-- The largest object that `malloc` gives. -/
def ptrdiffMax : Nat := 2 ^ 63 - 1

/-- The key of the overloads without one. -/
def defaultKey : List UInt8 := bytesOf "r12Dd5678h012_45.7890*534D6l/9R1"

/-- Their initial vector. -/
def defaultIv : List UInt8 := bytesOf "0/2xd5678GA12*_5"

/-- The bytes behind `ucPlaintext` that OpenSSL is passed.  `plaintext_len` is an `int`, and as a
size a negative one is a huge number. -/
def copyPlaintext (plaintext : List UInt8) : Except Fault (List UInt8) := do
  let plaintext_len := BitVec.ofNat 32 plaintext.length
  let size := (plaintext_len.signExtend 64).toNat
  let ucPlaintext ← alloc ptrdiffMax size
  let ucPlaintext ← memcpy ucPlaintext 0 (plaintext.map some ++ [some 0]) size
  loads ucPlaintext 0 plaintext_len.toInt.toNat

/-- The block at the start of `opensslEncrypt`: `ciphertext` and `ciphertext_len` behind it. -/
def encryptBlock (lib : Openssl) (key iv plaintext : List UInt8) :
    Except Fault (Cells UInt8 × Nat) := do
  let ucPlaintext ← copyPlaintext plaintext
  let update := lib.encryptUpdate key iv ucPlaintext
  let ciphertext ← writeAt stackBuffer 0 (update.map some)
  let final := lib.encryptFinal key iv ucPlaintext
  let ciphertext ← writeAt ciphertext update.length (final.map some)
  return (ciphertext, update.length + final.length)

/-- `convertFromBinaryToBase64 (buffer, length)`. -/
def convertFromBinaryToBase64 (lib : Openssl) (buffer : Cells UInt8) (length : Nat) :
    Except Fault (List UInt8) := do
  return lib.base64Write (← loads buffer 0 length)

/-- `::replace (s.begin(), s.end(), old, new)`. -/
def replace (s : List UInt8) (old new : Char) : List UInt8 :=
  s.map fun c => if c = UInt8.ofNat old.toNat then UInt8.ofNat new.toNat else c

/-- The replacements of `opensslEncrypt`. -/
def replaceSymbols (base64Encoded : List UInt8) : List UInt8 :=
  replace (replace (replace base64Encoded '+' '-') '/' '~') '=' '_'

/-- Those of `opensslDecrypt`. -/
def restoreSymbols (base64Encoded : List UInt8) : List UInt8 :=
  replace (replace (replace base64Encoded '-' '+') '~' '/') '_' '='

/-- `opensslEncrypt (key, iv, plaintext)`. -/
def opensslEncryptWith (lib : Openssl) (key iv plaintext : List UInt8) :
    Except Fault (List UInt8) := do
  let (ciphertext, ciphertext_len) ← encryptBlock lib key iv plaintext
  let base64Encoded ← convertFromBinaryToBase64 lib ciphertext ciphertext_len
  return replaceSymbols base64Encoded

/-- `opensslEncrypt (plaintext)`. -/
def opensslEncrypt (lib : Openssl) (plaintext : List UInt8) : Except Fault (List UInt8) :=
  opensslEncryptWith lib defaultKey defaultIv plaintext

/-- `b64input[i]`. -/
def charAt (b64input : Cells UInt8) (i : ℤ) : Except Fault UInt8 :=
  if 0 ≤ i then load b64input i.toNat else .error .outOfBounds

/-- `calcBinaryLength (b64input)`, in the arithmetic of `size_t`. -/
def calcBinaryLength (b64input : Cells UInt8) : Except Fault (BitVec 64) := do
  let len ← strlen b64input
  let last ← charAt b64input (len - 1)
  let padding ←
    if last = Base64.padding then do
      let before ← charAt b64input (len - 2)
      pure (if before = Base64.padding then 2 else 1)
    else pure 0
  return BitVec.ofNat 64 len * 3 / 4 - padding

/-- The text of the exception of `convertFromBase64ToBinary`. -/
def checkLengthFailed (length : BitVec 64) (decodeLen : BitVec 32) : String :=
  "check length failed" ++ ", *length: " ++ toString length.toNat ++ ", decodeLen: " ++
    toString decodeLen.toInt

/-- `convertFromBase64ToBinary (b64message, buffer, length)`: the buffer and the length it sets. -/
def convertFromBase64ToBinary (lib : Openssl) (b64message : Cells UInt8) :
    Except OpensslFailure (Cells UInt8 × BitVec 64) := do
  let decodeLen := (← access (calcBinaryLength b64message)).setWidth 32
  let buffer ← access (alloc ptrdiffMax ((decodeLen + 1).signExtend 64).toNat)
  let buffer ← access (storeAt buffer decodeLen.toInt 0)
  let text ← access (cstr b64message)
  -- a failure of `BIO_read` is the length -1
  let read := lib.base64Read text text.length
  let buffer ← access (writeAt buffer 0 ((read.getD []).map some))
  let length : BitVec 64 :=
    match read with
    | some bytes => BitVec.ofNat 64 bytes.length
    | none => -1
  if length ≠ decodeLen.signExtend 64 then throw (.thrown (checkLengthFailed length decodeLen))
  return (buffer, length)

/-- The block at the end of `opensslDecrypt`. -/
def decryptBlock (lib : Openssl) (key iv ciphertext : List UInt8) :
    Except OpensslFailure (Cells UInt8 × Nat) := do
  let update := lib.decryptUpdate key iv ciphertext
  let ucPlaintext ← access (writeAt stackBuffer 0 (update.map some))
  match lib.decryptFinal key iv ciphertext with
  | none => throw (.thrown "EVP_DecryptFinal_ex failed")
  | some final =>
    let ucPlaintext ← access (writeAt ucPlaintext update.length (final.map some))
    return (ucPlaintext, update.length + final.length)

/-- `opensslDecrypt (key, iv, base64Encoded)`. -/
def opensslDecryptWith (lib : Openssl) (key iv base64Encoded : List UInt8) :
    Except OpensslFailure (List UInt8) := do
  let localBase64Encoded := restoreSymbols base64Encoded
  let (ciphertext, ciphertext_len) ←
    convertFromBase64ToBinary lib (localBase64Encoded.map some ++ [some 0])
  let ciphertext ← access (loads ciphertext 0 ciphertext_len.toNat)
  let (ucPlaintext, plaintext_len) ← decryptBlock lib key iv ciphertext
  access (loads ucPlaintext 0 plaintext_len)

/-- `opensslDecrypt (base64Encoded)`. -/
def opensslDecrypt (lib : Openssl) (base64Encoded : List UInt8) :
    Except OpensslFailure (List UInt8) :=
  opensslDecryptWith lib defaultKey defaultIv base64Encoded

/-! ### The buffers -/

theorem length_stackBuffer : stackBuffer.length = 10240 := List.length_replicate

/-- What the two calls of a cipher write stands in the buffer if there is room for it together. -/
theorem writeAt_twice (m : Cells UInt8) (x y : List UInt8) :
    (writeAt m 0 (x.map some) >>= fun m => writeAt m x.length (y.map some)) =
      if x.length + y.length ≤ m.length then
        .ok ((x ++ y).map some ++ m.drop (x.length + y.length))
      else .error .outOfBounds := by
  by_cases hx : x.length ≤ m.length
  · have hfirst : writeAt m 0 (x.map some) = .ok (x.map some ++ m.drop x.length) := by
      simp [writeAt, hx]
    rw [hfirst, ok_bind, writeAt]
    by_cases hxy : x.length + y.length ≤ m.length
    · rw [if_pos hxy, if_pos (by simp; omega)]
      simp [List.drop_append, List.drop_drop]
    · rw [if_neg hxy, if_neg (by simp; omega)]
  · have hfirst : writeAt m 0 (x.map some) = .error .outOfBounds := by
      simp [writeAt, hx]
    rw [hfirst, if_neg (by omega)]
    rfl

theorem loads_start (s : List UInt8) (behind : Cells UInt8) :
    loads (s.map some ++ behind) 0 s.length = .ok s := loads_append [] behind s

/-- An `int` that holds a length is that length. -/
theorem toInt_length {n : Nat} (h : n < 2 ^ 31) : (BitVec.ofNat 32 n).toInt = n := by
  rw [BitVec.toInt_eq_toNat_of_lt]
  · simp; omega
  · simp; omega

/-- And so is its size. -/
theorem signExtend_length {n : Nat} (h : n < 2 ^ 31) :
    (BitVec.ofNat 32 n).signExtend 64 = BitVec.ofNat 64 n := by
  have hmsb : (BitVec.ofNat 32 n).msb = false := by
    rw [BitVec.msb_eq_false_iff_two_mul_lt, BitVec.toNat_ofNat]
    omega
  apply BitVec.eq_of_toNat_eq
  rw [BitVec.signExtend_eq_setWidth_of_msb_false hmsb]
  simp only [BitVec.toNat_setWidth, BitVec.toNat_ofNat]
  omega

theorem toNat_size {n : Nat} (h : n < 2 ^ 31) :
    ((BitVec.ofNat 32 n).signExtend 64).toNat = n := by
  rw [signExtend_length h, BitVec.toNat_ofNat]
  omega

/-- A plaintext below 2 GiB is passed as a whole. -/
theorem copyPlaintext_eq {plaintext : List UInt8} (h : plaintext.length < 2 ^ 31) :
    copyPlaintext plaintext = .ok plaintext := by
  have halloc : (alloc ptrdiffMax plaintext.length : Except Fault (Cells UInt8))
      = .ok (List.replicate plaintext.length none) := alloc_ok (by unfold ptrdiffMax; omega)
  have hcopy : memcpy (List.replicate plaintext.length none) 0 (plaintext.map some ++ [some 0])
      plaintext.length = .ok (plaintext.map some) := by
    rw [memcpy_eq_writeAt (by simp)]
    simp [writeAt]
  have hload := loads_start plaintext []
  rw [List.append_nil] at hload
  simp only [copyPlaintext, toNat_size h, toInt_length h, Int.toNat_natCast]
  rw [halloc, ok_bind, hcopy, ok_bind, hload]

section

variable {lib : Openssl} {key iv : List UInt8}

/-- The encrypted bytes stand in the buffer if they fit in it. -/
theorem encryptBlock_eq {plaintext s : List UInt8} (hs : copyPlaintext plaintext = .ok s) :
    encryptBlock lib key iv plaintext =
      if (lib.cipher key iv s).length ≤ 10240 then
        .ok ((lib.cipher key iv s).map some ++ stackBuffer.drop (lib.cipher key iv s).length,
          (lib.cipher key iv s).length)
      else .error .outOfBounds := by
  have hlength : (lib.cipher key iv s).length
      = (lib.encryptUpdate key iv s).length + (lib.encryptFinal key iv s).length :=
    List.length_append
  have hwrite := writeAt_twice stackBuffer (lib.encryptUpdate key iv s) (lib.encryptFinal key iv s)
  rw [length_stackBuffer, ← hlength] at hwrite
  rw [encryptBlock, hs, ok_bind]
  show (writeAt _ 0 _ >>= fun m => writeAt m _ _ >>= fun m => _) = _
  rw [← bind_assoc, hwrite]
  split
  · rw [ok_bind, hlength]
    rfl
  · rfl

/-- A plaintext that the decryption gives fits in its buffer. -/
theorem decryptBlock_eq (hcipher : Aes256Cbc lib key iv) {s : List UInt8}
    (hroom : s.length ≤ 10240) :
    decryptBlock lib key iv (lib.cipher key iv s)
      = .ok (s.map some ++ stackBuffer.drop s.length, s.length) := by
  obtain ⟨final, hfinal, hs⟩ := hcipher.decrypts s
  have hlength : s.length
      = (lib.decryptUpdate key iv (lib.cipher key iv s)).length + final.length := by
    rw [← List.length_append, hs]
  have hwrite := writeAt_twice stackBuffer (lib.decryptUpdate key iv (lib.cipher key iv s)) final
  rw [hs, ← hlength, if_pos (length_stackBuffer ▸ hroom)] at hwrite
  obtain ⟨m, hfirst, hsecond⟩ := bind_eq_ok.mp hwrite
  rw [decryptBlock, hfirst, access_ok, ok_bind, hfinal]
  show (access (writeAt m _ _) >>= _) = _
  rw [hsecond, access_ok, ok_bind, hlength]
  rfl

end

/-! ### The text in between -/

theorem zero_notMem_encode (s : List UInt8) : 0 ∉ Base64.encode s := by
  intro h
  have hzero : (0 : UInt8) ∉ Base64.alphabet ++ [Base64.padding] := by decide +kernel
  exact hzero (Base64.mem_of_mem_encode h)

theorem holds_encode (s : List UInt8) :
    Holds ((Base64.encode s).map some ++ [some 0]) (Base64.encode s) :=
  (⟨Base64.encode s, zero_notMem_encode s⟩ : CStr).holds

theorem charAt_append (pre post : List UInt8) (c : UInt8) {i : ℤ} (hi : i = pre.length) :
    charAt ((pre ++ c :: post).map some ++ [some 0]) i = .ok c := by
  have hload := load_append (pre.map some) (post.map some ++ [some 0]) c
  rw [List.length_map] at hload
  rw [charAt, hi, if_pos (Int.natCast_nonneg _), Int.toNat_natCast, ← hload]
  simp

/-- The formula of the length, as numbers: nothing wraps. -/
theorem binaryLength_eq {len padding n : Nat} (hlen : len * 3 / 4 = n + padding)
    (hsize : len * 3 < 2 ^ 64) :
    BitVec.ofNat 64 len * 3 / 4 - BitVec.ofNat 64 padding = BitVec.ofNat 64 n := by
  have hquotient : BitVec.ofNat 64 len * 3 / 4 = BitVec.ofNat 64 (len * 3 / 4) := by
    apply BitVec.eq_of_toNat_eq
    have hthree : (BitVec.ofNat 64 len * 3).toNat = len * 3 := by
      rw [BitVec.toNat_mul, BitVec.toNat_ofNat, Nat.mod_eq_of_lt (show len < 2 ^ 64 by omega)]
      exact Nat.mod_eq_of_lt hsize
    rw [BitVec.toNat_udiv, hthree, BitVec.toNat_ofNat]
    show len * 3 / 4 = _
    rw [Nat.mod_eq_of_lt (by omega)]
  rw [hquotient, hlen, BitVec.ofNat_add, BitVec.add_sub_cancel]

/-- **The length formula is right** for the texts of bytes: the padding is read at the end. -/
theorem calcBinaryLength_encode {s : List UInt8} (hs : s ≠ []) (hsize : s.length < 2 ^ 60) :
    calcBinaryLength ((Base64.encode s).map some ++ [some 0]) = .ok (BitVec.ofNat 64 s.length) := by
  obtain ⟨body, x, y, hencode, hy, hx⟩ := Base64.encode_eq_append hs
  have hlength := Base64.length_encode s
  have hstrlen := (holds_encode s).strlen_eq
  rw [hlength, hencode] at hstrlen
  rw [hencode, List.length_append] at hlength
  have hlength : body.length + 2 = 4 * ((s.length + 2) / 3) := hlength
  have hlast : charAt ((body ++ [x, y]).map some ++ [some 0])
      ((4 * ((s.length + 2) / 3) : Nat) - 1) = .ok y := by
    have hchar := charAt_append (body ++ [x]) [] y (i := (4 * ((s.length + 2) / 3) : Nat) - 1)
      (by simp; omega)
    rwa [List.append_assoc] at hchar
  have hbefore : charAt ((body ++ [x, y]).map some ++ [some 0])
      ((4 * ((s.length + 2) / 3) : Nat) - 2) = .ok x :=
    charAt_append body [y] x (by omega)
  rw [hencode, calcBinaryLength, hstrlen, ok_bind, hlast, ok_bind]
  by_cases hpadded : y = Base64.padding
  · have hmod := hy.mp hpadded
    rw [if_pos hpadded, hbefore, ok_bind]
    by_cases htwo : x = Base64.padding
    · have hone := hx.mp htwo
      rw [if_pos htwo]
      have htotal : 4 * ((s.length + 2) / 3) * 3 / 4 = s.length + 2 := by omega
      exact congrArg Except.ok (binaryLength_eq htotal (by omega))
    · have hone := mt hx.mpr htwo
      rw [if_neg htwo]
      have htotal : 4 * ((s.length + 2) / 3) * 3 / 4 = s.length + 1 := by omega
      exact congrArg Except.ok (binaryLength_eq htotal (by omega))
  · have hmod := mt hy.mpr hpadded
    rw [if_neg hpadded]
    have htotal : 4 * ((s.length + 2) / 3) * 3 / 4 = s.length + 0 := by omega
    exact congrArg Except.ok (binaryLength_eq htotal (by omega))

/-- One character through the replacements of both directions. -/
theorem map_replace (s : List UInt8) (h : ∀ c ∈ s, restoreSymbols (replaceSymbols [c]) = [c]) :
    restoreSymbols (replaceSymbols s) = s := by
  induction s with
  | nil => rfl
  | cons c s ih =>
    have hfirst := h c (List.mem_cons_self ..)
    have hrest := ih fun d hd => h d (List.mem_cons_of_mem c hd)
    show restoreSymbols (replaceSymbols [c]) ++ restoreSymbols (replaceSymbols s) = _
    rw [hfirst, hrest]
    rfl

/-- **The replacements of the decryption undo those of the encryption**, since none of `-`, `~` and
`_` is a character of base 64. -/
theorem restoreSymbols_replaceSymbols (s : List UInt8) :
    restoreSymbols (replaceSymbols (Base64.encode s)) = Base64.encode s := by
  have hall : (Base64.alphabet ++ [Base64.padding]).all
      (fun c => restoreSymbols (replaceSymbols [c]) = [c]) = true := by decide +kernel
  exact map_replace _ fun c hc =>
    of_decide_eq_true (List.all_eq_true.mp hall c (Base64.mem_of_mem_encode hc))

/-! ### The two directions -/

section

variable {lib : Openssl} {key iv : List UInt8}

/-- The text of some bytes is read into a block of their number and one more. -/
theorem convertFromBase64ToBinary_encode (hbase64 : Rfc4648 lib) {s : List UInt8} (hs : s ≠ [])
    (hsize : s.length < 2 ^ 31 - 1) :
    convertFromBase64ToBinary lib ((Base64.encode s).map some ++ [some 0])
      = .ok (s.map some ++ [some 0], BitVec.ofNat 64 s.length) := by
  have hcalc := calcBinaryLength_encode hs (by omega)
  have hwidth : (BitVec.ofNat 64 s.length).setWidth 32 = BitVec.ofNat 32 s.length := by
    apply BitVec.eq_of_toNat_eq
    simp only [BitVec.toNat_setWidth, BitVec.toNat_ofNat]
    omega
  have hnext : ((BitVec.ofNat 32 s.length + 1).signExtend 64).toNat = s.length + 1 := by
    rw [show BitVec.ofNat 32 s.length + 1 = BitVec.ofNat 32 (s.length + 1) from
      (BitVec.ofNat_add s.length 1).symm]
    exact toNat_size (by omega)
  have halloc : (alloc ptrdiffMax (s.length + 1) : Except Fault (Cells UInt8))
      = .ok (List.replicate s.length none ++ [none]) := by
    rw [alloc_ok (by unfold ptrdiffMax; omega), List.replicate_succ']
  have hstore : storeAt (List.replicate s.length none ++ [none]) s.length 0
      = .ok (List.replicate s.length none ++ [some 0] : Cells UInt8) :=
    storeAt_append _ [] none 0 (by simp)
  have hread : lib.base64Read (Base64.encode s) (Base64.encode s).length = some s := by
    apply hbase64.read (Base64.decode_encode s) hs
    rw [Base64.length_encode]
    omega
  have hwrite : writeAt (List.replicate s.length none ++ [some 0]) 0 (s.map some)
      = .ok (s.map some ++ [some 0]) :=
    writeAt_append [] [some 0] (by simp)
  rw [convertFromBase64ToBinary, hcalc, access_ok, ok_bind, hwidth]
  show (access (alloc _ ((BitVec.ofNat 32 s.length + 1).signExtend 64).toNat) >>= _) = _
  rw [hnext, halloc, access_ok, ok_bind, toInt_length (by omega), hstore, access_ok, ok_bind,
    (holds_encode s).cstr_eq, access_ok, ok_bind, hread]
  show (access (writeAt _ 0 (s.map some)) >>= _) = _
  rw [hwrite, access_ok, ok_bind, signExtend_length (by omega)]
  exact if_neg (not_not_intro rfl)

/-- **What is encrypted comes back**, from bytes that were passed to the cipher. -/
theorem opensslDecryptWith_encode (hcipher : Aes256Cbc lib key iv) (hbase64 : Rfc4648 lib)
    {s : List UInt8} (hroom : s.length < 10240) :
    opensslDecryptWith lib key iv (replaceSymbols (Base64.encode (lib.cipher key iv s))) = .ok s := by
  have hlength := hcipher.length_cipher s
  have hne : lib.cipher key iv s ≠ [] := by
    apply List.ne_nil_of_length_pos
    omega
  have hconvert := convertFromBase64ToBinary_encode hbase64 hne (by omega)
  have hload : loads ((lib.cipher key iv s).map some ++ [some 0]) 0
      (BitVec.ofNat 64 (lib.cipher key iv s).length).toNat = .ok (lib.cipher key iv s) := by
    rw [BitVec.toNat_ofNat, Nat.mod_eq_of_lt (by omega)]
    exact loads_start _ _
  rw [opensslDecryptWith, restoreSymbols_replaceSymbols, hconvert, ok_bind]
  show (access (loads _ 0 _) >>= _) = _
  rw [hload, access_ok, ok_bind, decryptBlock_eq hcipher (by omega), ok_bind]
  exact congrArg access (loads_start s _)

/-- The text of a plaintext whose encrypted bytes fit. -/
theorem opensslEncryptWith_eq (hbase64 : Rfc4648 lib) {plaintext s : List UInt8}
    (hs : copyPlaintext plaintext = .ok s) (hfits : (lib.cipher key iv s).length ≤ 10240) :
    opensslEncryptWith lib key iv plaintext
      = .ok (replaceSymbols (Base64.encode (lib.cipher key iv s))) := by
  have hload := loads_start (lib.cipher key iv s)
    (stackBuffer.drop (lib.cipher key iv s).length)
  rw [opensslEncryptWith, encryptBlock_eq hs, if_pos hfits, ok_bind]
  show (convertFromBinaryToBase64 lib _ _ >>= _) = _
  rw [convertFromBinaryToBase64, hload, ok_bind]
  show Except.ok (replaceSymbols (lib.base64Write _)) = _
  rw [hbase64.write]

/-- The padding leaves room for less than the buffer. -/
theorem length_cipher_le_iff (hcipher : Aes256Cbc lib key iv) (s : List UInt8) :
    (lib.cipher key iv s).length ≤ 10240 ↔ s.length < 10240 := by
  rw [hcipher.length_cipher]
  omega

end

/-! ### Both together -/

/-- One encryption and its decryption: the bytes written to `ciphertext` fit in it, the text is that
of these bytes and survives the replacements, the length formula gives their number, and the
plaintext comes back. -/
structure Reversal (lib : Openssl) (plaintext : List UInt8) (ciphertext : Cells UInt8)
    (ciphertext_len : Nat) (base64Encoded bytes : List UInt8) : Prop where
  encrypted : encryptBlock lib defaultKey defaultIv plaintext = .ok (ciphertext, ciphertext_len)
  room : ciphertext_len ≤ stackBuffer.length
  encoded : convertFromBinaryToBase64 lib ciphertext ciphertext_len = .ok base64Encoded
  restored : restoreSymbols (replaceSymbols base64Encoded) = base64Encoded
  decoded : Base64.decode base64Encoded = some bytes
  length : calcBinaryLength (base64Encoded.map some ++ [some 0])
    = .ok (BitVec.ofNat 64 bytes.length)
  back : (access (opensslEncrypt lib plaintext) >>= opensslDecrypt lib) = .ok plaintext

/-- The functions do all this for the plaintext. -/
def Reverses (lib : Openssl) (plaintext : List UInt8) : Prop :=
  ∃ ciphertext ciphertext_len base64Encoded bytes,
    Reversal lib plaintext ciphertext ciphertext_len base64Encoded bytes

section

variable {lib : Openssl} {plaintext : List UInt8}

theorem reverses_of_lt (hcipher : Aes256Cbc lib defaultKey defaultIv) (hbase64 : Rfc4648 lib)
    (h : plaintext.length < 10240) : Reverses lib plaintext := by
  have hcopy : copyPlaintext plaintext = .ok plaintext := copyPlaintext_eq (by omega)
  have hfits := (length_cipher_le_iff hcipher plaintext).mpr h
  have hlength := hcipher.length_cipher plaintext
  have hne : lib.cipher defaultKey defaultIv plaintext ≠ [] := by
    apply List.ne_nil_of_length_pos
    omega
  refine ⟨_, _, _, lib.cipher defaultKey defaultIv plaintext,
    { encrypted := (encryptBlock_eq hcopy).trans (if_pos hfits)
      room := hfits.trans_eq length_stackBuffer.symm
      encoded := ?_
      restored := restoreSymbols_replaceSymbols _
      decoded := Base64.decode_encode _
      length := calcBinaryLength_encode hne (by omega)
      back := ?_ }⟩
  · rw [convertFromBinaryToBase64, loads_start, ok_bind, hbase64.write]
    rfl
  · rw [opensslEncrypt, opensslEncryptWith_eq hbase64 hcopy hfits, access_ok, ok_bind]
    exact opensslDecryptWith_encode hcipher hbase64 h

/-- The other way: what comes back was passed to the cipher, and fitted. -/
theorem lt_of_reverses (hcipher : Aes256Cbc lib defaultKey defaultIv) (hbase64 : Rfc4648 lib)
    (h : Reverses lib plaintext) : plaintext.length < 10240 := by
  obtain ⟨ciphertext, n, base64Encoded, bytes, hreversal⟩ := h
  obtain ⟨s, hcopy, hblock⟩ := bind_eq_ok.mp hreversal.encrypted
  have hfits : (lib.cipher defaultKey defaultIv s).length ≤ 10240 := by
    have hencrypted := hreversal.encrypted
    rw [encryptBlock_eq hcopy] at hencrypted
    by_contra hover
    rw [if_neg hover] at hencrypted
    cases hencrypted
  have hroom := (length_cipher_le_iff hcipher s).mp hfits
  have hback := hreversal.back
  rw [opensslEncrypt, opensslEncryptWith_eq hbase64 hcopy hfits, access_ok, ok_bind, opensslDecrypt,
    opensslDecryptWith_encode hcipher hbase64 hroom] at hback
  obtain rfl := Except.ok.inj hback
  exact hroom

/-- **The strings that come back** are those of less than 10240 bytes. -/
theorem reverses_iff (hcipher : Aes256Cbc lib defaultKey defaultIv) (hbase64 : Rfc4648 lib)
    (plaintext : List UInt8) : Reverses lib plaintext ↔ plaintext.length < 10240 :=
  ⟨lt_of_reverses hcipher hbase64, reverses_of_lt hcipher hbase64⟩

end

/-! ### A cipher of one block

It masks the last block, with the mask that AES-256-CBC puts over the padded block of `user=10` for
the default key and initial vector, and leaves the other blocks as they are. -/

def mask : List UInt8 := [50, 12, 54, 177, 200, 116, 196, 68, 92, 58, 187, 44, 62, 234, 248, 12]

/-- The padding of PKCS#7. -/
def padded (rest : List UInt8) : List UInt8 :=
  rest ++ List.replicate (16 - rest.length) (UInt8.ofNat (16 - rest.length))

def unpadded (block : List UInt8) : List UInt8 := block.take (16 - (block.getLastD 0).toNat)

def masked (block : List UInt8) : List UInt8 := mask.zipWith (· ^^^ ·) block

def lastBlock : Openssl where
  encryptUpdate _ _ s := s.take (16 * (s.length / 16))
  encryptFinal _ _ s := masked (padded (s.drop (16 * (s.length / 16))))
  decryptUpdate _ _ s := s.take (s.length - 16)
  decryptFinal _ _ s := some (unpadded (masked (s.drop (s.length - 16))))
  base64Write := Base64.encode
  base64Read text size := (Base64.decode text).map (List.take size)

theorem length_padded {rest : List UInt8} (h : rest.length < 16) : (padded rest).length = 16 := by
  rw [padded, List.length_append, List.length_replicate]
  omega

theorem length_masked {block : List UInt8} (h : block.length = 16) :
    (masked block).length = 16 := by
  rw [masked, List.length_zipWith, h]
  rfl

theorem zipWith_xor_cancel (m s : List UInt8) (h : s.length ≤ m.length) :
    m.zipWith (· ^^^ ·) (m.zipWith (· ^^^ ·) s) = s := by
  induction m generalizing s with
  | nil =>
    obtain rfl := List.eq_nil_of_length_eq_zero (Nat.le_zero.mp h)
    rfl
  | cons a m ih =>
    rcases s with - | ⟨c, s⟩
    · rfl
    · have hrest := ih s (Nat.le_of_succ_le_succ h)
      have hfirst : a ^^^ (a ^^^ c) = c := by rw [← UInt8.xor_assoc, UInt8.xor_self, UInt8.zero_xor]
      show (a ^^^ (a ^^^ c)) :: m.zipWith (· ^^^ ·) (m.zipWith (· ^^^ ·) s) = _
      rw [hfirst, hrest]

theorem unpadded_padded {rest : List UInt8} (h : rest.length < 16) :
    unpadded (padded rest) = rest := by
  obtain ⟨k, hk⟩ : ∃ k, 16 - rest.length = k + 1 := ⟨15 - rest.length, by omega⟩
  have hlast : (padded rest).getLastD 0 = UInt8.ofNat (k + 1) := by
    rw [padded, hk, List.replicate_succ', ← List.append_assoc, List.getLastD_concat]
  have hnumber : (UInt8.ofNat (k + 1)).toNat = k + 1 := by
    rw [UInt8.toNat_ofNat']
    omega
  rw [unpadded, hlast, hnumber, show 16 - (k + 1) = rest.length by omega]
  exact List.take_left

theorem lastBlock_aes256Cbc (key iv : List UInt8) : Aes256Cbc lastBlock key iv := by
  have hrest : ∀ s : List UInt8, (s.drop (16 * (s.length / 16))).length < 16 := fun s => by
    rw [List.length_drop]
    omega
  have hfinal : ∀ s, (lastBlock.encryptFinal key iv s).length = 16 := fun s =>
    length_masked (length_padded (hrest s))
  refine ⟨fun s => ?_, fun s => ⟨_, rfl, ?_⟩⟩
  · rw [Openssl.cipher, List.length_append, hfinal]
    show (s.take (16 * (s.length / 16))).length + 16 = _
    rw [List.length_take]
    omega
  · have hsplit : (lastBlock.cipher key iv s).length - 16
        = (lastBlock.encryptUpdate key iv s).length := by
      rw [Openssl.cipher, List.length_append, hfinal, Nat.add_sub_cancel]
    show List.take _ _ ++ unpadded (masked (List.drop _ _)) = s
    rw [hsplit, Openssl.cipher, List.take_left, List.drop_left]
    show s.take (16 * (s.length / 16)) ++ unpadded (masked (masked (padded _))) = s
    have hcancel : masked (masked (padded (s.drop (16 * (s.length / 16)))))
        = padded (s.drop (16 * (s.length / 16))) :=
      zipWith_xor_cancel mask _ (length_padded (hrest s)).le
    rw [hcancel, unpadded_padded (hrest s), List.take_append_drop]

theorem lastBlock_rfc4648 : Rfc4648 lastBlock where
  write _ := rfl
  read {text s size} hdecode _ hsize := by
    show (Base64.decode text).map (List.take size) = some s
    rw [hdecode, Option.map_some, List.take_of_length_le hsize]

/-- The text has a character for each of the three replacements. -/
theorem reverses_iff_user :
    opensslEncrypt lastBlock (bytesOf "user=10") = .ok (bytesOf "R39Tw~VF9E1VM7IlN-PxBQ__") ∧
      Reverses lastBlock (bytesOf "user=10") := by
  constructor
  · have hcopy : copyPlaintext (bytesOf "user=10") = .ok (bytesOf "user=10") :=
      copyPlaintext_eq (by decide)
    have hfits : (lastBlock.cipher defaultKey defaultIv (bytesOf "user=10")).length ≤ 10240 := by
      decide +kernel
    rw [opensslEncrypt, opensslEncryptWith_eq lastBlock_rfc4648 hcopy hfits]
    decide +kernel
  · exact (reverses_iff (lastBlock_aes256Cbc _ _) lastBlock_rfc4648 _).mpr (by decide)

/-- A plaintext of the size of the buffer needs sixteen bytes more. -/
theorem not_reverses_bufferSize :
    Aes256Cbc lastBlock defaultKey defaultIv ∧ Rfc4648 lastBlock ∧
      ¬ Reverses lastBlock (List.replicate 10240 97) := by
  refine ⟨lastBlock_aes256Cbc _ _, lastBlock_rfc4648, fun h => ?_⟩
  have hlt := lt_of_reverses (lastBlock_aes256Cbc _ _) lastBlock_rfc4648 h
  rw [List.length_replicate] at hlt
  exact absurd hlt (by decide)

end Encrypt

end CatraLibraries
