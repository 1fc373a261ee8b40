/-
# Percent coding of byte strings

A byte that may not stand in a text for itself is written `%` and two hexadecimal digits.
`decode` reads such a text back: bytes other than `%` stand for themselves, and `none` is the
answer to a `%` without its two digits.  The byte read goes through a C string, so that
`%00` stands for nothing.

The parts of `<ctype.h>` and `<stdio.h>` that this rests on are here too, in the C locale.
-/
import CatraLibraries.Lib.CString

namespace Percent

open Memory CString

/-- `isalnum`. -/
def isalnum (c : UInt8) : Bool :=
  (48 ≤ c && c ≤ 57) || (65 ≤ c && c ≤ 90) || (97 ≤ c && c ≤ 122)

/-- `isxdigit`. -/
def isxdigit (c : UInt8) : Bool :=
  (48 ≤ c && c ≤ 57) || (65 ≤ c && c ≤ 70) || (97 ≤ c && c ≤ 102)

/-- What one hexadecimal digit adds to a number. -/
def digitValue (c : UInt8) : Nat :=
  if c ≤ 57 then c.toNat - 48 else if c ≤ 70 then c.toNat - 55 else c.toNat - 87

/-- The conversion `%lX` of `sscanf`, on hexadecimal digits. -/
def scanLX (digits : List UInt8) : Nat := digits.foldl (fun n c => n * 16 + digitValue c) 0

/-- The conversion `%0<width>X` of `sprintf`. -/
def printX (width n : Nat) : List UInt8 :=
  ((Nat.toDigits 16 n).leftpad width '0').map fun c => UInt8.ofNat c.toUpper.toNat

/-- The character `%`. -/
def percent : UInt8 := 37

/-- What a text stands for. -/
def decode : List UInt8 → Option (List UInt8)
  | [] => some []
  | [c] => if c = percent then none else some [c]
  | [c, d] => if c = percent ∨ d = percent then none else some [c, d]
  | c :: x :: y :: s =>
    if c = percent then
      if isxdigit x ∧ isxdigit y then
        (decode s).map (visible [UInt8.ofNat (scanLX [x, y])] ++ ·)
      else none
    else (decode (x :: y :: s)).map (c :: ·)

/-- What a text stands for up to its first malformed escape, and whether there is none. -/
def decodePart : List UInt8 → List UInt8 × Bool
  | [] => ([], true)
  | [c] => if c = percent then ([], false) else ([c], true)
  | [c, d] =>
    if c = percent then ([], false) else if d = percent then ([c], false) else ([c, d], true)
  | c :: x :: y :: s =>
    if c = percent then
      if isxdigit x ∧ isxdigit y then
        (visible [UInt8.ofNat (scanLX [x, y])] ++ (decodePart s).1, (decodePart s).2)
      else ([], false)
    else (c :: (decodePart (x :: y :: s)).1, (decodePart (x :: y :: s)).2)

/-- A property of bytes is checked one by one, in four blocks. -/
theorem forall_uint8 {P : UInt8 → Prop} (h₀ : ∀ n < 64, P (UInt8.ofNat n))
    (h₁ : ∀ n < 64, P (UInt8.ofNat (64 + n))) (h₂ : ∀ n < 64, P (UInt8.ofNat (128 + n)))
    (h₃ : ∀ n < 64, P (UInt8.ofNat (192 + n))) (c : UInt8) : P c := by
  have hlt := c.toNat_lt
  have hall : ∀ k, k ≤ c.toNat → k + (c.toNat - k) = c.toNat := fun k hk => Nat.add_sub_of_le hk
  rw [← UInt8.ofNat_toNat (x := c)]
  by_cases h64 : c.toNat < 64
  · exact h₀ _ h64
  by_cases h128 : c.toNat < 128
  · exact hall 64 (by omega) ▸ h₁ _ (by omega)
  by_cases h192 : c.toNat < 192
  · exact hall 128 (by omega) ▸ h₂ _ (by omega)
  · exact hall 192 (by omega) ▸ h₃ (c.toNat - 192) (by omega)

/-! ### Reading a text from the left -/

attribute [local simp] decode decodePart

theorem decode_cons {c : UInt8} (hc : c ≠ percent) (s : List UInt8) :
    decode (c :: s) = (decode s).map (c :: ·) := by
  match s with
  | [] => simp [hc]
  | [d] => by_cases hd : d = percent <;> simp [hc, hd]
  | x :: y :: s => rw [decode, if_neg hc]

theorem decode_append {p : List UInt8} (hp : percent ∉ p) (s : List UInt8) :
    decode (p ++ s) = (decode s).map (p ++ ·) := by
  induction p with
  | nil => simp
  | cons c p ih =>
    have hc : c ≠ percent := fun h => hp (by simp [h])
    rw [List.cons_append, decode_cons hc, ih fun h => hp (List.mem_cons_of_mem c h),
      Option.map_map]
    rfl

theorem decode_of_notMem {s : List UInt8} (hs : percent ∉ s) : decode s = some s := by
  have := decode_append hs []
  simpa using this

theorem decode_percent {x y : UInt8} (hx : isxdigit x) (hy : isxdigit y) (s : List UInt8) :
    decode (percent :: x :: y :: s)
      = (decode s).map (visible [UInt8.ofNat (scanLX [x, y])] ++ ·) := by
  rw [decode, if_pos rfl, if_pos ⟨hx, hy⟩]

/-- A text that starts with `%` and stands for something has the two digits. -/
theorem eq_of_decode_percent {s v : List UInt8} (h : decode (percent :: s) = some v) :
    ∃ x y s' v', s = x :: y :: s' ∧ isxdigit x ∧ isxdigit y ∧ decode s' = some v' ∧
      v = visible [UInt8.ofNat (scanLX [x, y])] ++ v' := by
  match s with
  | [] => simp at h
  | [d] => simp at h
  | x :: y :: s' =>
    rw [decode, if_pos rfl] at h
    split_ifs at h with hdigits
    obtain ⟨v', hv', rfl⟩ := Option.map_eq_some_iff.mp h
    exact ⟨x, y, s', v', rfl, hdigits.1, hdigits.2, hv', rfl⟩

/-- A text is decoded block by block. -/
theorem decode_flatMap {f : UInt8 → List UInt8} {g : UInt8 → UInt8} {s : List UInt8}
    (h : ∀ c ∈ s, ∀ t, decode (f c ++ t) = (decode t).map (g c :: ·)) :
    decode (s.flatMap f) = some (s.map g) := by
  induction s with
  | nil => rfl
  | cons c s ih =>
    rw [List.flatMap_cons, h c (by simp), ih fun d hd => h d (List.mem_cons_of_mem c hd)]
    rfl

/-! ### Up to the first malformed escape -/

theorem decodePart_cons {c : UInt8} (hc : c ≠ percent) (s : List UInt8) :
    decodePart (c :: s) = (c :: (decodePart s).1, (decodePart s).2) := by
  match s with
  | [] => simp [hc]
  | [d] => by_cases hd : d = percent <;> simp [hc, hd]
  | x :: y :: s => rw [decodePart, if_neg hc]

/-- The two digits behind a `%`. -/
def IsEscape (s : List UInt8) : Prop :=
  ∃ x y s', s = x :: y :: s' ∧ isxdigit x ∧ isxdigit y

theorem decodePart_percent {x y : UInt8} (hx : isxdigit x) (hy : isxdigit y) (s : List UInt8) :
    decodePart (percent :: x :: y :: s)
      = (visible [UInt8.ofNat (scanLX [x, y])] ++ (decodePart s).1, (decodePart s).2) := by
  rw [decodePart, if_pos rfl, if_pos ⟨hx, hy⟩]

theorem decodePart_malformed {s : List UInt8} (h : ¬ IsEscape s) :
    decodePart (percent :: s) = ([], false) := by
  match s with
  | [] => rfl
  | [d] => rfl
  | x :: y :: s =>
    rw [decodePart, if_pos rfl, if_neg fun hdigits => h ⟨x, y, s, rfl, hdigits.1, hdigits.2⟩]

/-- A text without a malformed escape is decoded as a whole. -/
theorem decode_eq_decodePart : (s : List UInt8) →
    decode s = if (decodePart s).2 then some (decodePart s).1 else none
  | [] => rfl
  | c :: s => by
    by_cases hc : c = percent
    · subst hc
      by_cases hescape : IsEscape s
      · obtain ⟨x, y, s, rfl, hx, hy⟩ := hescape
        rw [decode_percent hx hy, decodePart_percent hx hy, decode_eq_decodePart s]
        split <;> rfl
      · rw [decodePart_malformed hescape, if_neg Bool.false_ne_true]
        refine Option.eq_none_iff_forall_ne_some.mpr fun v hv => hescape ?_
        obtain ⟨x, y, s', -, rfl, hx, hy, -⟩ := eq_of_decode_percent hv
        exact ⟨x, y, s', rfl, hx, hy⟩
    · rw [decode_cons hc, decodePart_cons hc, decode_eq_decodePart s]
      split <;> rfl
  termination_by s => s.length

end Percent
