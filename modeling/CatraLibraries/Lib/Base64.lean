/-
# Base 64

The encoding of section 4 of RFC 4648.  A quantum of three bytes is one number of 24 bits, which is
cut into four groups of six bits, and each group is written as a symbol of the alphabet.  The last
quantum may be short: zero bits are added on the right to complete a group, and `=` stands for each
group without a bit of the input.
-/
import CatraLibraries.Lib.Percent
import Mathlib.Algebra.Group.Nat.Defs

namespace Base64

open CString

/-- The symbols, in the order of their values. -/
def alphabet : List UInt8 :=
  bytesOf "ABCDEFGHIJKLMNOPQRSTUVWXYZabcdefghijklmnopqrstuvwxyz0123456789+/"

/-- The symbol of a group of six bits. -/
def symbol (n : Nat) : UInt8 := alphabet.getD (n % 64) 0

/-- The padding character. -/
def padding : UInt8 := 61

/-- The group of six bits that starts after `i` groups of a number of 24 bits. -/
def group (quantum i : Nat) : UInt8 := symbol (quantum / 2 ^ (18 - 6 * i))

/-- **The encoding.** -/
def encode : List UInt8 → List UInt8
  | [] => []
  | [a] =>
    let quantum := a.toNat * 2 ^ 16
    [group quantum 0, group quantum 1, padding, padding]
  | [a, b] =>
    let quantum := a.toNat * 2 ^ 16 + b.toNat * 2 ^ 8
    [group quantum 0, group quantum 1, group quantum 2, padding]
  | a :: b :: c :: s =>
    let quantum := a.toNat * 2 ^ 16 + b.toNat * 2 ^ 8 + c.toNat
    group quantum 0 :: group quantum 1 :: group quantum 2 :: group quantum 3 :: encode s

/-- A symbol depends on six bits of its number. -/
theorem symbol_congr {m n : Nat} (h : m % 64 = n % 64) : symbol m = symbol n := by
  unfold symbol
  rw [h]

@[simp] theorem symbol_mod (n : Nat) : symbol (n % 64) = symbol n :=
  symbol_congr (Nat.mod_mod n 64)

/-! ### The groups of a quantum, by bytes -/

theorem encode_one (a : UInt8) :
    encode [a] = [symbol (a.toNat / 4), symbol (a.toNat * 16), padding, padding] := by
  have h₀ : group (a.toNat * 2 ^ 16) 0 = symbol (a.toNat / 4) := symbol_congr (by omega)
  have h₁ : group (a.toNat * 2 ^ 16) 1 = symbol (a.toNat * 16) := symbol_congr (by omega)
  rw [encode, h₀, h₁]

theorem encode_two (a b : UInt8) :
    encode [a, b] = [symbol (a.toNat / 4), symbol (a.toNat * 16 + b.toNat / 16),
      symbol (b.toNat * 4), padding] := by
  have hb := b.toNat_lt
  have h₀ : group (a.toNat * 2 ^ 16 + b.toNat * 2 ^ 8) 0 = symbol (a.toNat / 4) :=
    symbol_congr (by omega)
  have h₁ : group (a.toNat * 2 ^ 16 + b.toNat * 2 ^ 8) 1 = symbol (a.toNat * 16 + b.toNat / 16) :=
    symbol_congr (by omega)
  have h₂ : group (a.toNat * 2 ^ 16 + b.toNat * 2 ^ 8) 2 = symbol (b.toNat * 4) :=
    symbol_congr (by omega)
  rw [encode, h₀, h₁, h₂]

theorem encode_three (a b c : UInt8) (s : List UInt8) :
    encode (a :: b :: c :: s) = symbol (a.toNat / 4) :: symbol (a.toNat * 16 + b.toNat / 16) ::
      symbol (b.toNat * 4 + c.toNat / 64) :: symbol c.toNat :: encode s := by
  have hb := b.toNat_lt
  have hc := c.toNat_lt
  generalize hq : a.toNat * 2 ^ 16 + b.toNat * 2 ^ 8 + c.toNat = q
  have h₀ : group q 0 = symbol (a.toNat / 4) := symbol_congr (by omega)
  have h₁ : group q 1 = symbol (a.toNat * 16 + b.toNat / 16) := symbol_congr (by omega)
  have h₂ : group q 2 = symbol (b.toNat * 4 + c.toNat / 64) := symbol_congr (by omega)
  have h₃ : group q 3 = symbol c.toNat := symbol_congr (by omega)
  rw [encode, hq, h₀, h₁, h₂, h₃]

/-! ### Decoding -/

/-- The value of a symbol. -/
def value (c : UInt8) : Option Nat := alphabet.findIdx? (· = c)

/-- The last quantum with two groups: the four bits that are left over are zero. -/
def decodeOne (a b : UInt8) : Option (List UInt8) :=
  match value a, value b with
  | some v, some w => if w % 16 = 0 then some [UInt8.ofNat (v * 4 + w / 16)] else none
  | _, _ => none

/-- The last quantum with three groups: the two bits that are left over are zero. -/
def decodeTwo (a b c : UInt8) : Option (List UInt8) :=
  match value a, value b, value c with
  | some v, some w, some x =>
    if x % 4 = 0 then some [UInt8.ofNat (v * 4 + w / 16), UInt8.ofNat (w * 16 + x / 4)] else none
  | _, _, _ => none

/-- A whole quantum. -/
def decodeThree (a b c d : UInt8) : Option (List UInt8) :=
  match value a, value b, value c, value d with
  | some v, some w, some x, some y =>
    some [UInt8.ofNat (v * 4 + w / 16), UInt8.ofNat (w * 16 + x / 4), UInt8.ofNat (x * 64 + y)]
  | _, _, _, _ => none

/-- **The decoding** of the texts that the RFC allows an encoder to write. -/
def decode : List UInt8 → Option (List UInt8)
  | [] => some []
  | a :: b :: c :: d :: s =>
    if d = padding then
      if s ≠ [] then none else if c = padding then decodeOne a b else decodeTwo a b c
    else do return (← decodeThree a b c d) ++ (← decode s)
  | _ => none

theorem value_symbol (n : Nat) : value (symbol n) = some (n % 64) := by
  have hall : ∀ k < 64, value (symbol k) = some k := by decide +kernel
  rw [← symbol_mod]
  exact hall _ (Nat.mod_lt n (by decide))

theorem value_padding : value padding = none := by decide +kernel

theorem symbol_ne_padding (n : Nat) : symbol n ≠ padding := by
  intro h
  have hvalue := value_symbol n
  rw [h, value_padding] at hvalue
  cases hvalue

/-! ### The quanta of an encoding -/

/-- A byte is known by its number up to what does not fit. -/
theorem ofNat_eq {n : Nat} {a : UInt8} (h : n % 256 = a.toNat) : UInt8.ofNat n = a := by
  apply UInt8.toNat_inj.mp
  rw [UInt8.toNat_ofNat']
  exact h

theorem decodeOne_symbols (a : UInt8) :
    decodeOne (symbol (a.toNat / 4)) (symbol (a.toNat * 16)) = some [a] := by
  have ha := a.toNat_lt
  have hfirst : UInt8.ofNat (a.toNat / 4 % 64 * 4 + a.toNat * 16 % 64 / 16) = a :=
    ofNat_eq (by omega)
  have hrest : a.toNat * 16 % 64 % 16 = 0 := by omega
  simp only [decodeOne, value_symbol]
  rw [if_pos hrest, hfirst]

theorem decodeTwo_symbols (a b : UInt8) :
    decodeTwo (symbol (a.toNat / 4)) (symbol (a.toNat * 16 + b.toNat / 16)) (symbol (b.toNat * 4))
      = some [a, b] := by
  have ha := a.toNat_lt
  have hb := b.toNat_lt
  have hfirst : UInt8.ofNat (a.toNat / 4 % 64 * 4 + (a.toNat * 16 + b.toNat / 16) % 64 / 16) = a :=
    ofNat_eq (by omega)
  have hsecond : UInt8.ofNat ((a.toNat * 16 + b.toNat / 16) % 64 * 16 + b.toNat * 4 % 64 / 4) = b :=
    ofNat_eq (by omega)
  have hrest : b.toNat * 4 % 64 % 4 = 0 := by omega
  simp only [decodeTwo, value_symbol]
  rw [if_pos hrest, hfirst, hsecond]

theorem decodeThree_symbols (a b c : UInt8) :
    decodeThree (symbol (a.toNat / 4)) (symbol (a.toNat * 16 + b.toNat / 16))
      (symbol (b.toNat * 4 + c.toNat / 64)) (symbol c.toNat) = some [a, b, c] := by
  have ha := a.toNat_lt
  have hb := b.toNat_lt
  have hc := c.toNat_lt
  have hfirst : UInt8.ofNat (a.toNat / 4 % 64 * 4 + (a.toNat * 16 + b.toNat / 16) % 64 / 16) = a :=
    ofNat_eq (by omega)
  have hsecond : UInt8.ofNat ((a.toNat * 16 + b.toNat / 16) % 64 * 16
      + (b.toNat * 4 + c.toNat / 64) % 64 / 4) = b := ofNat_eq (by omega)
  have hthird : UInt8.ofNat ((b.toNat * 4 + c.toNat / 64) % 64 * 64 + c.toNat % 64) = c :=
    ofNat_eq (by omega)
  simp only [decodeThree, value_symbol]
  rw [hfirst, hsecond, hthird]

/-- **The decoding takes an encoding back.** -/
theorem decode_encode (s : List UInt8) : decode (encode s) = some s := by
  induction s using encode.induct with
  | case1 => rfl
  | case2 a =>
    rw [encode_one, decode, if_pos rfl, if_neg (by simp), if_pos rfl]
    exact decodeOne_symbols a
  | case3 a b =>
    rw [encode_two, decode, if_pos rfl, if_neg (by simp), if_neg (symbol_ne_padding _)]
    exact decodeTwo_symbols a b
  | case4 a b c s ih =>
    rw [encode_three, decode, if_neg (symbol_ne_padding _), decodeThree_symbols, ih]
    rfl

/-! ### The text of an encoding -/

theorem symbol_mem (n : Nat) : symbol n ∈ alphabet := by
  have hlt : n % 64 < alphabet.length := Nat.mod_lt n (by decide)
  rw [symbol, List.getD_eq_getElem?_getD, List.getElem?_eq_getElem hlt]
  exact List.getElem_mem hlt

/-- Only symbols and the padding character are written. -/
theorem mem_of_mem_encode {s : List UInt8} {c : UInt8} (h : c ∈ encode s) :
    c ∈ alphabet ++ [padding] := by
  have hsymbol : ∀ n, symbol n ∈ alphabet ++ [padding] := fun n =>
    List.mem_append_left _ (symbol_mem n)
  have hpadding : padding ∈ alphabet ++ [padding] := List.mem_append_right _ (by simp)
  induction s using encode.induct with
  | case1 => cases h
  | case2 a =>
    rw [encode_one] at h
    simp only [List.mem_cons, List.not_mem_nil, or_false] at h
    rcases h with rfl | rfl | rfl | rfl <;> first | exact hsymbol _ | exact hpadding
  | case3 a b =>
    rw [encode_two] at h
    simp only [List.mem_cons, List.not_mem_nil, or_false] at h
    rcases h with rfl | rfl | rfl | rfl <;> first | exact hsymbol _ | exact hpadding
  | case4 a b c s ih =>
    rw [encode_three] at h
    simp only [List.mem_cons] at h
    rcases h with rfl | rfl | rfl | rfl | h
    · exact hsymbol _
    · exact hsymbol _
    · exact hsymbol _
    · exact hsymbol _
    · exact ih h

/-- Four characters for each quantum, also for a short one. -/
theorem length_encode (s : List UInt8) : (encode s).length = 4 * ((s.length + 2) / 3) := by
  induction s using encode.induct with
  | case1 => rfl
  | case2 a => simp [encode_one]
  | case3 a b => simp [encode_two]
  | case4 a b c s ih =>
    rw [encode_three]
    simp only [List.length_cons, ih]
    omega

/-- The last two characters say how long the last quantum is. -/
theorem encode_eq_append {s : List UInt8} (hs : s ≠ []) :
    ∃ body x y, encode s = body ++ [x, y] ∧ (y = padding ↔ s.length % 3 ≠ 0) ∧
      (x = padding ↔ s.length % 3 = 1) := by
  induction s using encode.induct with
  | case1 => exact absurd rfl hs
  | case2 a =>
    refine ⟨[_, _], padding, padding, encode_one a, ?_, ?_⟩
    · simp
    · simp
  | case3 a b =>
    refine ⟨[_, _], _, padding, encode_two a b, ?_, ?_⟩
    · simp
    · simp [symbol_ne_padding]
  | case4 a b c s ih =>
    rcases s with - | ⟨d, s⟩
    · refine ⟨[_, _], _, _, encode_three a b c [], ?_, ?_⟩
      · simp [symbol_ne_padding]
      · simp [symbol_ne_padding]
    · obtain ⟨body, x, y, hbody, hy, hx⟩ := ih (by simp)
      have hencode := encode_three a b c (d :: s)
      rw [hbody] at hencode
      refine ⟨_ :: _ :: _ :: _ :: body, x, y, hencode, ?_, ?_⟩
      · rw [hy]
        simp only [List.length_cons]
        omega
      · rw [hx]
        simp only [List.length_cons]
        omega

end Base64
