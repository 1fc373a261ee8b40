/-
# Base 64 in a wrapping accumulator

`base64_encode`, in its two overloads, and `base64_decode` of `Tools/src/Convert.cpp`.  Every
character is shifted into an `int` that is never cleared, and the groups are read from it at the
bit that `valb` counts; the accumulator wraps after four bytes.

What is read lies in the low 14 bits, so the accumulator may hold anything at the start of a
quantum.  Both loops are followed quantum by quantum, from an arbitrary accumulator.
-/
import Mathlib.Data.Nat.Bitwise
import CatraLibraries.Lib.Base64

namespace CatraLibraries

open Memory CString Percent Base64

namespace Convert

/-! ### The code -/

/-- `(val >> shift) & mask`, for an `int`. -/
def bitsAt (val : BitVec 32) (shift mask : Nat) : Nat :=
  (val.sshiftRight shift &&& BitVec.ofNat 32 mask).toNat

/-- The literal that is indexed. -/
def symbols : List UInt8 :=
  bytesOf "ABCDEFGHIJKLMNOPQRSTUVWXYZabcdefghijklmnopqrstuvwxyz0123456789+/"

/-- `while (valb>=0) { out.push_back (…); valb-=6; }`.  Each turn makes `valb` smaller, and the
first argument counts enough of them. -/
def pushGroups (val : BitVec 32) : Nat → Int → List UInt8 → Int × List UInt8
  | 0, valb, out => (valb, out)
  | n + 1, valb, out =>
    if valb ≥ 0 then
      pushGroups val n (valb - 6) (out ++ [symbols.getD (bitsAt val valb.toNat 0x3F) 0])
    else (valb, out)

/-- One turn of the loop over the characters, on `val`, `valb` and `out`. -/
def encodeChar (state : BitVec 32 × Int × List UInt8) (c : UInt8) : BitVec 32 × Int × List UInt8 :=
  let (val, valb, out) := state
  let val := (val <<< 8) + BitVec.ofNat 32 c.toNat
  let valb := valb + 8
  let (valb, out) := pushGroups val (valb + 1).toNat valb out
  (val, valb, out)

/-- `while (out.size()%4) out.push_back('=');` -/
def pushPadding : Nat → List UInt8 → List UInt8
  | 0, out => out
  | n + 1, out => if out.length % 4 ≠ 0 then pushPadding n (out ++ [61]) else out

/-- What follows the loop. -/
def encodeRest (state : BitVec 32 × Int × List UInt8) : List UInt8 :=
  let (val, valb, out) := state
  let out :=
    if valb > -6 then out ++ [symbols.getD (bitsAt (val <<< 8) (valb + 8).toNat 0x3F) 0] else out
  pushPadding 4 out

/-- `base64_encode (in)`, for a `string`. -/
def base64Encode (input : List UInt8) : List UInt8 :=
  encodeRest (input.foldl encodeChar (0, -6, []))

/-- The loop of the other overload, over as many bytes as the first argument says. -/
def encodeBytesLoop (input : Cells UInt8) :
    Nat → Nat → BitVec 32 × Int × List UInt8 → Except Fault (BitVec 32 × Int × List UInt8)
  | 0, _, state => .ok state
  | n + 1, inIndex, state => do
    let c ← load input inIndex
    encodeBytesLoop input n (inIndex + 1) (encodeChar state c)

/-- `base64_encode (in, length)`, for bytes.  The length is an `int`, and a negative one has no turn
of the loop. -/
def base64EncodeBytes (input : Cells UInt8) (length : BitVec 32) : Except Fault (List UInt8) := do
  return encodeRest (← encodeBytesLoop input length.toInt.toNat 0 (0, -6, []))

/-- The table of `base64_decode`: `T[symbols[i]] = i` in a vector of 256 times -1. -/
def decodeTable : List Int :=
  (List.range 64).foldl (fun T i => T.set (symbols.getD i 0).toNat (i : Int))
    (List.replicate 256 (-1))

/-- The loop of `base64_decode`. -/
def decodeLoop : List UInt8 → BitVec 32 → Int → List UInt8 → List UInt8
  | [], _, _, out => out
  | c :: input, val, valb, out =>
    let value := decodeTable.getD c.toNat (-1)
    if value = -1 then out
    else
      let val := (val <<< 6) + BitVec.ofInt 32 value
      let valb := valb + 6
      if valb ≥ 0 then
        decodeLoop input val (valb - 8) (out ++ [UInt8.ofNat (bitsAt val valb.toNat 0xFF)])
      else decodeLoop input val valb out

/-- `base64_decode (in)`. -/
def base64Decode (input : List UInt8) : List UInt8 := decodeLoop input 0 (-8) []

/-! ### The bits that are read -/

/-- An arithmetic shift brings in the sign above the bits that a small mask keeps. -/
theorem bitsAt_eq (val : BitVec 32) {shift : Nat} (width : Nat) (h : shift + width ≤ 32) :
    bitsAt val shift (2 ^ width - 1) = val.toNat / 2 ^ shift % 2 ^ width := by
  have hmasklt : 2 ^ width - 1 < 2 ^ 32 := by
    have := Nat.pow_le_pow_right (n := 2) (by decide) (show width ≤ 32 by omega)
    have := Nat.two_pow_pos width
    omega
  have hmask : val.sshiftRight shift &&& BitVec.ofNat 32 (2 ^ width - 1)
      = val >>> shift &&& BitVec.ofNat 32 (2 ^ width - 1) := by
    ext i hi
    rw [BitVec.getElem_and, BitVec.getElem_and, BitVec.getElem_sshiftRight,
      BitVec.getElem_ushiftRight]
    by_cases hlow : shift + i < 32
    · rw [dif_pos hlow, BitVec.getLsbD_eq_getElem hlow]
    · have hbit : (BitVec.ofNat 32 (2 ^ width - 1))[i] = false := by
        rw [BitVec.getElem_eq_testBit_toNat, BitVec.toNat_ofNat, Nat.mod_eq_of_lt hmasklt,
          Nat.testBit_two_pow_sub_one, decide_eq_false]
        omega
      rw [hbit, Bool.and_false, Bool.and_false]
  rw [bitsAt, hmask, BitVec.toNat_and, BitVec.toNat_ushiftRight, BitVec.toNat_ofNat,
    Nat.mod_eq_of_lt hmasklt, Nat.and_two_pow_sub_one_eq_mod, Nat.shiftRight_eq_div_pow]

/-- A byte moves in at the right, and the `int` wraps. -/
theorem toNat_pushByte (val : BitVec 32) (c : UInt8) :
    ((val <<< 8) + BitVec.ofNat 32 c.toNat).toNat = (val.toNat * 2 ^ 8 + c.toNat) % 2 ^ 32 := by
  rw [BitVec.toNat_add, BitVec.toNat_shiftLeft, BitVec.toNat_ofNat, Nat.shiftLeft_eq]
  omega

/-- The symbol that is pushed depends on six bits. -/
theorem pushed_eq (val : BitVec 32) {shift n : Nat} (h : shift ≤ 26)
    (hn : val.toNat / 2 ^ shift % 64 = n % 64) :
    symbols.getD (bitsAt val shift 0x3F) 0 = symbol n := by
  have hbits : bitsAt val shift 0x3F = val.toNat / 2 ^ shift % 64 :=
    bitsAt_eq val 6 (by omega)
  rw [hbits, hn]
  rfl

/-! ### A quantum of the encoder -/

section

attribute [local simp] pushGroups

/-- The first byte of a quantum gives one symbol. -/
theorem encodeChar_first (val : BitVec 32) (out : List UInt8) (a : UInt8) :
    ∃ val', encodeChar (val, -6, out) a = (val', -4, out ++ [symbol (a.toNat / 4)]) ∧
      val'.toNat % 2 ^ 8 = a.toNat := by
  have hval := toNat_pushByte val a
  have ha := a.toNat_lt
  refine ⟨(val <<< 8) + BitVec.ofNat 32 a.toNat, ?_, by omega⟩
  have hpush : symbols.getD (bitsAt ((val <<< 8) + BitVec.ofNat 32 a.toNat) 2 0x3F) 0
      = symbol (a.toNat / 4) := pushed_eq _ (by decide) (by omega)
  show (_, pushGroups _ 3 2 out) = _
  rw [pushGroups, if_pos (by decide), pushGroups, if_neg (by decide)]
  exact congrArg (fun c => (_, _, out ++ [c])) hpush

end

/-- The second byte gives one more. -/
theorem encodeChar_second {val : BitVec 32} {a : UInt8} (hval : val.toNat % 2 ^ 8 = a.toNat)
    (out : List UInt8) (b : UInt8) :
    ∃ val', encodeChar (val, -4, out) b
        = (val', -2, out ++ [symbol (a.toNat * 16 + b.toNat / 16)]) ∧
      val'.toNat % 2 ^ 16 = a.toNat * 2 ^ 8 + b.toNat := by
  have hval' := toNat_pushByte val b
  have ha := a.toNat_lt
  have hb := b.toNat_lt
  refine ⟨(val <<< 8) + BitVec.ofNat 32 b.toNat, ?_, by omega⟩
  have hpush : symbols.getD (bitsAt ((val <<< 8) + BitVec.ofNat 32 b.toNat) 4 0x3F) 0
      = symbol (a.toNat * 16 + b.toNat / 16) := pushed_eq _ (by decide) (by omega)
  show (_, pushGroups _ 5 4 out) = _
  rw [pushGroups, if_pos (by decide), pushGroups, if_neg (by decide)]
  exact congrArg (fun c => (_, _, out ++ [c])) hpush

/-- The third byte completes the quantum with two. -/
theorem encodeChar_third {val : BitVec 32} {a b : UInt8}
    (hval : val.toNat % 2 ^ 16 = a.toNat * 2 ^ 8 + b.toNat) (out : List UInt8) (c : UInt8) :
    ∃ val', encodeChar (val, -2, out) c
        = (val', -6, out ++ [symbol (b.toNat * 4 + c.toNat / 64), symbol c.toNat]) := by
  have hval' := toNat_pushByte val c
  have hb := b.toNat_lt
  have hc := c.toNat_lt
  refine ⟨(val <<< 8) + BitVec.ofNat 32 c.toNat, ?_⟩
  have hthird : symbols.getD (bitsAt ((val <<< 8) + BitVec.ofNat 32 c.toNat) 6 0x3F) 0
      = symbol (b.toNat * 4 + c.toNat / 64) := pushed_eq _ (by decide) (by omega)
  have hfourth : symbols.getD (bitsAt ((val <<< 8) + BitVec.ofNat 32 c.toNat) 0 0x3F) 0
      = symbol c.toNat := pushed_eq _ (by decide) (by omega)
  show (_, pushGroups _ 7 6 out) = _
  rw [pushGroups, if_pos (by decide), pushGroups, if_pos (by decide), pushGroups,
    if_neg (by decide)]
  show (_, -6, out ++ [symbols.getD (bitsAt _ 6 0x3F) 0] ++ [symbols.getD (bitsAt _ 0 0x3F) 0]) = _
  rw [hthird, hfourth, List.append_assoc]
  rfl

/-! ### The end of the encoder -/

theorem pushPadding_of_zero {out : List UInt8} (h : out.length % 4 = 0) (n : Nat) :
    pushPadding n out = out := by
  cases n with
  | zero => rfl
  | succ n => rw [pushPadding, if_neg (by simp [h])]

theorem pushPadding_succ {out : List UInt8} (h : out.length % 4 ≠ 0) (n : Nat) :
    pushPadding (n + 1) out = pushPadding n (out ++ [padding]) := by
  rw [pushPadding, if_pos h]
  rfl

/-- After a whole quantum nothing is left. -/
theorem encodeRest_whole (val : BitVec 32) {out : List UInt8} (h : out.length % 4 = 0) :
    encodeRest (val, -6, out) = out := by
  rw [encodeRest, if_neg (by decide)]
  exact pushPadding_of_zero h 4

/-- After one byte its last two bits are left. -/
theorem encodeRest_first {val : BitVec 32} {a : UInt8} (hval : val.toNat % 2 ^ 8 = a.toNat)
    {out : List UInt8} (h : out.length % 4 = 1) :
    encodeRest (val, -4, out) = out ++ [symbol (a.toNat * 16), padding, padding] := by
  have hpush : symbols.getD (bitsAt (val <<< 8) 4 0x3F) 0 = symbol (a.toNat * 16) := by
    refine pushed_eq _ (by decide) ?_
    rw [BitVec.toNat_shiftLeft, Nat.shiftLeft_eq]
    omega
  rw [encodeRest, if_pos (by decide)]
  show pushPadding 4 (out ++ [symbols.getD (bitsAt (val <<< 8) 4 0x3F) 0]) = _
  rw [hpush, pushPadding_succ (by simp; omega), pushPadding_succ (by simp; omega),
    pushPadding_of_zero (by simp; omega)]
  simp

/-- After two bytes their last four bits are left. -/
theorem encodeRest_second {val : BitVec 32} {a b : UInt8}
    (hval : val.toNat % 2 ^ 16 = a.toNat * 2 ^ 8 + b.toNat) {out : List UInt8}
    (h : out.length % 4 = 2) :
    encodeRest (val, -2, out) = out ++ [symbol (b.toNat * 4), padding] := by
  have hb := b.toNat_lt
  have hpush : symbols.getD (bitsAt (val <<< 8) 6 0x3F) 0 = symbol (b.toNat * 4) := by
    refine pushed_eq _ (by decide) ?_
    rw [BitVec.toNat_shiftLeft, Nat.shiftLeft_eq]
    omega
  rw [encodeRest, if_pos (by decide)]
  show pushPadding 4 (out ++ [symbols.getD (bitsAt (val <<< 8) 6 0x3F) 0]) = _
  rw [hpush, pushPadding_succ (by simp; omega), pushPadding_of_zero (by simp; omega)]
  simp

/-- **The encoder** from any accumulator at the start of a quantum. -/
theorem encodeRest_foldl (s : List UInt8) (val : BitVec 32) {out : List UInt8}
    (h : out.length % 4 = 0) :
    encodeRest (s.foldl encodeChar (val, -6, out)) = out ++ encode s := by
  induction s using encode.induct generalizing val out with
  | case1 => rw [List.foldl_nil, encodeRest_whole val h, encode, List.append_nil]
  | case2 a =>
    obtain ⟨val₁, hfirst, hval₁⟩ := encodeChar_first val out a
    rw [List.foldl_cons, hfirst, List.foldl_nil, encodeRest_first hval₁ (by simp; omega),
      encode_one, List.append_assoc]
    rfl
  | case3 a b =>
    obtain ⟨val₁, hfirst, hval₁⟩ := encodeChar_first val out a
    obtain ⟨val₂, hsecond, hval₂⟩ := encodeChar_second hval₁ (out ++ [symbol (a.toNat / 4)]) b
    rw [List.foldl_cons, hfirst, List.foldl_cons, hsecond, List.foldl_nil,
      encodeRest_second hval₂ (by simp; omega), encode_two]
    simp
  | case4 a b c s ih =>
    obtain ⟨val₁, hfirst, hval₁⟩ := encodeChar_first val out a
    obtain ⟨val₂, hsecond, hval₂⟩ := encodeChar_second hval₁ (out ++ [symbol (a.toNat / 4)]) b
    obtain ⟨val₃, hthird⟩ := encodeChar_third hval₂
      (out ++ [symbol (a.toNat / 4)] ++ [symbol (a.toNat * 16 + b.toNat / 16)]) c
    rw [List.foldl_cons, hfirst, List.foldl_cons, hsecond, List.foldl_cons, hthird,
      ih val₃ (by simp; omega), encode_three]
    simp

/-- **The encoder is that of the RFC.** -/
theorem base64Encode_eq (s : List UInt8) : base64Encode s = encode s :=
  encodeRest_foldl s 0 (show [].length % 4 = 0 from rfl)

/-- The other overload runs through the bytes it is given. -/
theorem encodeBytesLoop_eq (rest done : List UInt8) (x : Cells UInt8)
    (state : BitVec 32 × Int × List UInt8) :
    encodeBytesLoop ((done ++ rest).map some ++ x) rest.length done.length state
      = .ok (rest.foldl encodeChar state) := by
  induction rest generalizing done state with
  | nil => rfl
  | cons c rest ih =>
    have hload : load ((done ++ c :: rest).map some ++ x) done.length = .ok c := by
      have := load_append (done.map some) (rest.map some ++ x) c
      rw [List.length_map] at this
      simpa using this
    have hrest := ih (done ++ [c]) (encodeChar state c)
    rw [List.append_assoc, List.length_append] at hrest
    rw [List.length_cons, encodeBytesLoop, hload, ok_bind]
    exact hrest

/-- It encodes as many bytes as its length says. -/
theorem base64EncodeBytes_take (s : List UInt8) (x : Cells UInt8) {length : BitVec 32}
    (h : length.toInt.toNat ≤ s.length) :
    base64EncodeBytes (s.map some ++ x) length
      = .ok (base64Encode (s.take length.toInt.toNat)) := by
  have hloop := encodeBytesLoop_eq (s.take length.toInt.toNat) []
    ((s.drop length.toInt.toNat).map some ++ x) (0, -6, [])
  rw [List.nil_append, List.length_nil, ← List.append_assoc, ← List.map_append,
    List.take_append_drop, List.length_take, Nat.min_eq_left h] at hloop
  show (encodeBytesLoop (s.map some ++ x) length.toInt.toNat 0 (0, -6, []) >>= fun _ => _) = _
  rw [hloop, ok_bind]
  rfl

/-- What an `int` makes of the length of a string. -/
theorem toNat_toInt_ofNat (n : Nat) :
    (BitVec.ofNat 32 n).toInt.toNat ≤ n ∧ ((BitVec.ofNat 32 n).toInt.toNat = n ↔ n < 2 ^ 31) := by
  rw [BitVec.toInt_eq_toNat_cond, BitVec.toNat_ofNat]
  split <;> omega

/-! ### A quantum of the decoder -/

/-- The accumulator after the value of a symbol has moved in. -/
def pushSix (val : BitVec 32) (n : Nat) : BitVec 32 :=
  (val <<< 6) + BitVec.ofInt 32 ((n % 64 : Nat) : Int)

/-- Six bits move in at the right, and the `int` wraps. -/
theorem toNat_pushSix (val : BitVec 32) (n : Nat) :
    (pushSix val n).toNat = (val.toNat * 2 ^ 6 + n % 64) % 2 ^ 32 := by
  rw [pushSix, BitVec.ofInt_natCast, BitVec.toNat_add, BitVec.toNat_shiftLeft, BitVec.toNat_ofNat,
    Nat.shiftLeft_eq]
  omega

/-- The table holds the value of each symbol, and nothing for the padding. -/
theorem decodeTable_symbol (n : Nat) :
    decodeTable.getD (symbol n).toNat (-1) = ((n % 64 : Nat) : Int) := by
  have hall : ∀ k < 64, decodeTable.getD (symbol k).toNat (-1) = (k : Int) := by decide +kernel
  rw [← symbol_mod]
  exact hall _ (Nat.mod_lt n (by decide))

theorem decodeTable_padding : decodeTable.getD padding.toNat (-1) = -1 := by decide +kernel

section

attribute [local simp] decodeLoop

theorem decodeLoop_padding (rest : List UInt8) (val : BitVec 32) (valb : Int) (out : List UInt8) :
    decodeLoop (padding :: rest) val valb out = out := by
  rw [decodeLoop, decodeTable_padding]
  exact if_pos rfl

end

/-- The character that is pushed depends on eight bits. -/
theorem bitsAt_byte (val : BitVec 32) {shift : Nat} {a : UInt8} (h : shift ≤ 24)
    (ha : val.toNat / 2 ^ shift % 256 = a.toNat) :
    UInt8.ofNat (bitsAt val shift 0xFF) = a := by
  have hbits : bitsAt val shift 0xFF = val.toNat / 2 ^ shift % 256 :=
    bitsAt_eq val 8 (by omega)
  rw [hbits, ha, UInt8.ofNat_toNat]

theorem decodeLoop_symbol (n : Nat) (rest : List UInt8) (val : BitVec 32) (valb : Int)
    (out : List UInt8) :
    decodeLoop (symbol n :: rest) val valb out =
      if valb + 6 ≥ 0 then
        decodeLoop rest (pushSix val n) (valb + 6 - 8)
          (out ++ [UInt8.ofNat (bitsAt (pushSix val n) (valb + 6).toNat 0xFF)])
      else decodeLoop rest (pushSix val n) (valb + 6) out := by
  rw [decodeLoop, decodeTable_symbol]
  exact if_neg (by omega)

/-- A symbol that completes a character. -/
theorem decodeLoop_push (n : Nat) (rest : List UInt8) (val : BitVec 32) {valb : Int} (shift : Nat)
    (out : List UInt8) {a : UInt8} (hvalb : valb + 6 = shift) (hshift : shift ≤ 24)
    (ha : (pushSix val n).toNat / 2 ^ shift % 256 = a.toNat) :
    decodeLoop (symbol n :: rest) val valb out
      = decodeLoop rest (pushSix val n) (shift - 8) (out ++ [a]) := by
  have hbyte := bitsAt_byte (pushSix val n) hshift ha
  rw [decodeLoop_symbol, if_pos (by omega), hvalb, Int.toNat_natCast, hbyte]

/-- The first two symbols of a quantum give the first byte. -/
theorem decodeLoop_first (val : BitVec 32) (out rest : List UInt8) {m n : Nat} {a : UInt8}
    (ha : a.toNat = m % 64 * 4 + n % 64 / 16) :
    ∃ val', decodeLoop (symbol m :: symbol n :: rest) val (-8) out
        = decodeLoop rest val' (-4) (out ++ [a]) ∧ val'.toNat % 16 = n % 16 := by
  have hval₁ := toNat_pushSix val m
  have hval₂ := toNat_pushSix (pushSix val m) n
  refine ⟨pushSix (pushSix val m) n, ?_, by omega⟩
  rw [decodeLoop_symbol, if_neg (by decide)]
  exact decodeLoop_push n rest _ 4 out (by decide) (by decide) (by omega)

/-- The third symbol gives the second byte. -/
theorem decodeLoop_second {val : BitVec 32} {n k : Nat} (hval : val.toNat % 16 = n % 16)
    (out rest : List UInt8) {b : UInt8} (hb : b.toNat = n % 16 * 16 + k % 64 / 4) :
    ∃ val', decodeLoop (symbol k :: rest) val (-4) out = decodeLoop rest val' (-6) (out ++ [b]) ∧
      val'.toNat % 4 = k % 4 := by
  have hval' := toNat_pushSix val k
  refine ⟨pushSix val k, ?_, by omega⟩
  exact decodeLoop_push k rest val 2 out (by decide) (by decide) (by omega)

/-- The fourth symbol gives the third byte. -/
theorem decodeLoop_third {val : BitVec 32} {k l : Nat} (hval : val.toNat % 4 = k % 4)
    (out rest : List UInt8) {c : UInt8} (hc : c.toNat = k % 4 * 64 + l % 64) :
    ∃ val', decodeLoop (symbol l :: rest) val (-6) out
      = decodeLoop rest val' (-8) (out ++ [c]) := by
  have hval' := toNat_pushSix val l
  refine ⟨pushSix val l, ?_⟩
  exact decodeLoop_push l rest val 0 out (by decide) (by decide) (by omega)

/-- **The decoder** from any accumulator at the start of a quantum. -/
theorem decodeLoop_encode (s : List UInt8) (val : BitVec 32) (out : List UInt8) :
    decodeLoop (encode s) val (-8) out = out ++ s := by
  induction s using encode.induct generalizing val out with
  | case1 => rw [encode, decodeLoop, List.append_nil]
  | case2 a =>
    have ha := a.toNat_lt
    obtain ⟨val₁, hfirst, -⟩ := decodeLoop_first val out [padding, padding] (a := a)
      (m := a.toNat / 4) (n := a.toNat * 16) (by omega)
    rw [encode_one, hfirst, decodeLoop_padding]
  | case3 a b =>
    have ha := a.toNat_lt
    have hb := b.toNat_lt
    obtain ⟨val₁, hfirst, hval₁⟩ := decodeLoop_first val out [symbol (b.toNat * 4), padding]
      (a := a) (m := a.toNat / 4) (n := a.toNat * 16 + b.toNat / 16) (by omega)
    obtain ⟨val₂, hsecond, -⟩ := decodeLoop_second hval₁ (out ++ [a]) [padding] (b := b)
      (k := b.toNat * 4) (by omega)
    rw [encode_two, hfirst, hsecond, decodeLoop_padding, List.append_assoc]
    rfl
  | case4 a b c s ih =>
    have ha := a.toNat_lt
    have hb := b.toNat_lt
    have hc := c.toNat_lt
    obtain ⟨val₁, hfirst, hval₁⟩ := decodeLoop_first val out
      (symbol (b.toNat * 4 + c.toNat / 64) :: symbol c.toNat :: encode s) (a := a)
      (m := a.toNat / 4) (n := a.toNat * 16 + b.toNat / 16) (by omega)
    obtain ⟨val₂, hsecond, hval₂⟩ := decodeLoop_second hval₁ (out ++ [a])
      (symbol c.toNat :: encode s) (b := b) (k := b.toNat * 4 + c.toNat / 64) (by omega)
    obtain ⟨val₃, hthird⟩ := decodeLoop_third hval₂ (out ++ [a] ++ [b]) (encode s) (c := c)
      (l := c.toNat) (by omega)
    rw [encode_three, hfirst, hsecond, hthird, ih]
    simp

theorem base64Decode_encode (s : List UInt8) : base64Decode (base64Encode s) = s := by
  rw [base64Encode_eq]
  exact decodeLoop_encode s 0 []

/-- The overloads agree on the strings whose length is an `int`. -/
theorem base64EncodeBytes_eq_iff (s : List UInt8) (behind : Cells UInt8) :
    base64EncodeBytes (s.map some ++ behind) (BitVec.ofNat 32 s.length) = .ok (base64Encode s) ↔
      s.length < 2 ^ 31 := by
  obtain ⟨hle, hiff⟩ := toNat_toInt_ofNat s.length
  rw [base64EncodeBytes_take s behind hle, ← hiff]
  constructor
  · intro h
    have hback := congrArg base64Decode (Except.ok.inj h)
    rw [base64Decode_encode, base64Decode_encode] at hback
    have hlength := congrArg List.length hback
    rwa [List.length_take, Nat.min_eq_left hle] at hlength
  · intro h
    rw [h, List.take_length]

/-- **Base 64 in a wrapping accumulator.**  The text is the encoding of the RFC for every string, the
string comes back, and the overload for bytes gives the same text exactly where the length of the
string is an `int`. -/
theorem base64_correct (s : List UInt8) :
    base64Encode s = encode s ∧
      (∀ behind : Cells UInt8,
        base64EncodeBytes (s.map some ++ behind) (BitVec.ofNat 32 s.length) = .ok (base64Encode s)
          ↔ s.length < 2 ^ 31) ∧
      base64Decode (base64Encode s) = s :=
  ⟨base64Encode_eq s, base64EncodeBytes_eq_iff s, base64Decode_encode s⟩

/-- Of two gigabytes the length is negative, and the overload for bytes gives the empty text. -/
theorem not_base64_correct_twoGigabytes :
    base64EncodeBytes ((List.replicate (2 ^ 31) 0).map some ++ []) (BitVec.ofNat 32 (2 ^ 31))
        = .ok [] ∧
      base64EncodeBytes ((List.replicate (2 ^ 31) 0).map some ++ []) (BitVec.ofNat 32 (2 ^ 31))
        ≠ .ok (base64Encode (List.replicate (2 ^ 31) 0)) := by
  have hlength : (List.replicate (2 ^ 31) (0 : UInt8)).length = 2 ^ 31 := List.length_replicate
  constructor
  · exact @base64EncodeBytes_take (List.replicate (2 ^ 31) 0) [] (BitVec.ofNat 32 (2 ^ 31))
      (Nat.zero_le _)
  · have h := (base64EncodeBytes_eq_iff (List.replicate (2 ^ 31) 0) []).not
    rw [hlength] at h
    exact h.mpr (by decide)

end Convert

end CatraLibraries
