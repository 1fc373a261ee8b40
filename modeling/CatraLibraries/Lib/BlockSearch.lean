/-
# Searching a text block by block

A search that holds one block of a text at a time looks for a pattern inside the block, and starts
the next block so far before the end of this one that an occurrence across the two is not missed.
`next` is where the next block starts, `place` where the blocks start that are read one after the
other, and `Ends` says that the search is over at a place.

Where a block is as long as the pattern or longer, every block starts behind the one before, and the
first occurrence in the block where the search ends is the first in the text.  Where it is shorter,
going back undoes what has been read: the places are multiples of the size of the block, modulo the
overlap, and the end of the text is reached only if it is near enough.
-/
import Mathlib.Data.Int.GCD
import CatraLibraries.Lib.Substring

namespace BlockSearch

open Substring

variable {α : Type*} [DecidableEq α] {pat text : List α} {length size overlap o : ℕ}

/-- The block of a text that starts at a place. -/
def block (text : List α) (size o : ℕ) : List α := (text.drop o).take size

/-- Where the next block starts: behind this one at the end of the text, or where there is not
enough before it to go back. -/
def next (length size overlap o : ℕ) : ℕ :=
  let stop := o + min size (length - o)
  if stop < length ∧ overlap ≤ stop then stop - overlap else stop

/-- Where the blocks start. -/
def place (length size overlap k : ℕ) : ℕ := (next length size overlap)^[k] 0

/-- The search is over: the text is, or the block has an occurrence. -/
def Ends (pat text : List α) (size o : ℕ) : Prop :=
  text.length ≤ o ∨ findSub pat (block text size o) ≠ none

instance (pat text : List α) (size o : ℕ) : Decidable (Ends pat text size o) :=
  inferInstanceAs (Decidable (_ ∨ _))

/-- No occurrence starts before a place. -/
def Clear (pat text : List α) (o : ℕ) : Prop := ∀ j < o, ¬ pat <+: text.drop j

theorem place_zero : place length size overlap 0 = 0 := rfl

theorem place_succ (k : ℕ) :
    place length size overlap (k + 1) = next length size overlap (place length size overlap k) :=
  Function.iterate_succ_apply' _ k 0

/-! ### Blocks as long as the pattern -/

/-- An occurrence whose end is in the block is found there. -/
theorem findSub_block_ne_none {j : ℕ} (ho : o ≤ j) (hj : j + pat.length ≤ o + size)
    (h : pat <+: text.drop j) : findSub pat (block text size o) ≠ none := by
  have hinfix : pat <:+: block text size o := by
    have hblock : pat <+: (block text size o).drop (j - o) := by
      rw [block, List.drop_take, List.drop_drop, Nat.add_sub_cancel' ho]
      exact List.prefix_take_iff.mpr ⟨h, by omega⟩
    exact hblock.isInfix.trans (List.drop_suffix _ _).isInfix
  rw [← Option.isSome_iff_ne_none]
  exact findSub_isSome_iff.mpr hinfix

/-- Behind a block there is the next, or the end of the text. -/
theorem lt_next (hsize : 0 < size) (hoverlap : overlap < size) (ho : o < length) :
    o < next length size overlap o := by
  simp only [next]
  split_ifs <;> omega

/-- **One block** without an occurrence leaves none before the next. -/
theorem Clear.next (h : Clear pat text o) (hne : pat ≠ []) (hsize : pat.length ≤ size)
    (hends : ¬ Ends pat text size o) :
    Clear pat text (next text.length size (pat.length - 1) o) := by
  have hpos : 0 < pat.length := List.length_pos_iff.mpr hne
  rw [Ends, not_or, not_le] at hends
  intro j hj hocc
  by_cases hbefore : j < o
  · exact h j hbefore hocc
  · have hlen := hocc.length_le
    rw [List.length_drop] at hlen
    -- what starts before the next block ends in this one
    have hend : j + pat.length ≤ o + size := by
      simp only [BlockSearch.next] at hj
      split_ifs at hj <;> omega
    exact hends.2 (findSub_block_ne_none (Nat.le_of_not_lt hbefore) hend hocc)

/-- An occurrence in a block is the first one in the text, if none starts before the block. -/
theorem Clear.findSub_eq_some (h : Clear pat text o) (ho : o ≤ text.length) {i : ℕ}
    (hi : findSub pat (block text size o) = some i) : findSub pat text = some (o + i) := by
  obtain ⟨hrest, -⟩ := findSub_take.mp hi
  obtain ⟨hle, hocc, hmin⟩ := findSub_eq_some_iff.mp hrest
  rw [List.length_drop] at hle
  rw [List.drop_drop] at hocc
  refine findSub_eq_some_iff.mpr ⟨by omega, hocc, fun j hj => ?_⟩
  by_cases hbefore : j < o
  · exact h j hbefore
  · have := hmin (j - o) (by omega)
    rwa [List.drop_drop, Nat.add_sub_cancel' (Nat.le_of_not_lt hbefore)] at this

/-- At the end of the text there is none. -/
theorem Clear.findSub_eq_none (h : Clear pat text o) (hne : pat ≠ []) (ho : text.length ≤ o) :
    findSub pat text = none := by
  by_contra hsome
  obtain ⟨i, hi⟩ := Option.ne_none_iff_exists'.mp hsome
  have hpos : 0 < pat.length := List.length_pos_iff.mpr hne
  have hlen := findSub_le hi
  exact h i (by omega) (findSub_eq_some_iff.mp hi).2.1

/-- **The blocks up to the first where the search ends** leave no occurrence before it. -/
theorem clear_place (hne : pat ≠ []) (hsize : pat.length ≤ size) {n : ℕ}
    (hbefore : ∀ k < n, ¬ Ends pat text size (place text.length size (pat.length - 1) k)) :
    Clear pat text (place text.length size (pat.length - 1) n) := by
  induction n with
  | zero => exact fun j hj => absurd hj (Nat.not_lt_zero j)
  | succ n ih =>
    rw [place_succ]
    exact (ih fun k hk => hbefore k (Nat.lt_succ_of_lt hk)).next hne hsize
      (hbefore n (Nat.lt_succ_self n))

/-- **The search ends** where every block starts behind the one before. -/
theorem exists_ends (hne : pat ≠ []) (hsize : pat.length ≤ size) :
    ∃ n, Ends pat text size (place text.length size (pat.length - 1) n) := by
  have hpos : 0 < pat.length := List.length_pos_iff.mpr hne
  by_contra hnever
  rw [not_exists] at hnever
  have hplace : ∀ n, n ≤ place text.length size (pat.length - 1) n := by
    intro n
    induction n with
    | zero => exact Nat.zero_le _
    | succ n ih =>
      have hmore := hnever n
      rw [Ends, not_or, not_le] at hmore
      rw [place_succ]
      exact Nat.succ_le_of_lt (ih.trans_lt (lt_next (by omega) (by omega) hmore.1))
  exact hnever text.length (Or.inl (hplace text.length))

/-! ### Blocks shorter than the pattern -/

/-- In a block shorter than the pattern there is no occurrence. -/
theorem ends_iff_of_lt (hsize : size < pat.length) :
    Ends pat text size o ↔ text.length ≤ o := by
  refine or_iff_left ?_
  rw [not_not]
  by_contra hsome
  obtain ⟨i, hi⟩ := Option.ne_none_iff_exists'.mp hsome
  have hlen := findSub_le hi
  rw [block, List.length_take] at hlen
  omega

/-- Going back by the overlap is going on modulo the overlap. -/
theorem next_eq_mod (hsize : size ≤ overlap) (ho : o < overlap) (hmore : o + size < length) :
    next length size overlap o = (o + size) % overlap := by
  simp only [next]
  rw [min_eq_left (by omega)]
  by_cases hback : overlap ≤ o + size
  · rw [if_pos ⟨hmore, hback⟩, Nat.mod_eq_sub_mod hback, Nat.mod_eq_of_lt (by omega)]
  · rw [if_neg fun h => hback h.2, Nat.mod_eq_of_lt (Nat.lt_of_not_le hback)]

/-- **The places are multiples of the size** modulo the overlap, up to the block that reaches the
end of the text. -/
theorem place_eq_mod (hsize : size ≤ overlap) (hpos : 0 < size) {k : ℕ}
    (hmore : ∀ j < k, j * size % overlap + size < length) :
    place length size overlap k = k * size % overlap := by
  induction k with
  | zero => rw [place_zero, Nat.zero_mul, Nat.zero_mod]
  | succ k ih =>
    have hmod : k * size % overlap < overlap := Nat.mod_lt _ (by omega)
    rw [place_succ, ih fun j hj => hmore j (Nat.lt_succ_of_lt hj),
      next_eq_mod hsize hmod (hmore k (Nat.lt_succ_self k)), Nat.succ_mul, Nat.mod_add_mod]

/-- A multiple of a number, modulo another, leaves their greatest common divisor at least. -/
theorem mul_mod_le_sub_gcd (size : ℕ) (hpos : 0 < overlap) (j : ℕ) :
    j * size % overlap ≤ overlap - Nat.gcd size overlap := by
  have hdvd : Nat.gcd size overlap ∣ j * size % overlap :=
    (Nat.dvd_mod_iff (Nat.gcd_dvd_right size overlap)).mpr
      ((Nat.gcd_dvd_left size overlap).mul_left j)
  have hlt : j * size % overlap < overlap := Nat.mod_lt _ hpos
  have hrest := Nat.le_of_dvd (by omega) (Nat.dvd_sub (Nat.gcd_dvd_right size overlap) hdvd)
  omega

/-- And some multiple leaves exactly that. -/
theorem exists_mul_mod_eq (size : ℕ) (hpos : 0 < overlap) :
    ∃ j, j * size % overlap = overlap - Nat.gcd size overlap := by
  have hgcd : 0 < Nat.gcd size overlap := Nat.gcd_pos_of_pos_right size hpos
  rcases (Nat.gcd_le_right size hpos).lt_or_eq with hlt | heq
  · obtain ⟨m, -, hm⟩ := Nat.exists_mul_mod_eq_gcd hlt
    obtain ⟨c, hc⟩ := Nat.gcd_dvd_right size overlap
    have hcpos : 0 < c := Nat.pos_of_ne_zero fun h => by
      rw [h, Nat.mul_zero] at hc
      omega
    refine ⟨(c - 1) * m, ?_⟩
    calc (c - 1) * m * size % overlap
        = (c - 1) * (size * m % overlap) % overlap := by
          rw [Nat.mul_mod_mod, Nat.mul_comm size m, Nat.mul_assoc]
      _ = (c - 1) * Nat.gcd size overlap % overlap := by rw [hm]
      _ = (overlap - Nat.gcd size overlap) % overlap := by
          rw [Nat.sub_mul, Nat.one_mul, Nat.mul_comm c, ← hc]
      _ = overlap - Nat.gcd size overlap := Nat.mod_eq_of_lt (by omega)
  · exact ⟨0, by rw [Nat.zero_mul, Nat.zero_mod, heq, Nat.sub_self]⟩

/-- **When such a search ends**: the last multiple, and a block from there, reach the end of the
text. -/
theorem exists_length_le_place_iff (hsize : size ≤ overlap) (hpos : 0 < size) :
    (∃ n, length ≤ place length size overlap n) ↔
      length ≤ overlap - Nat.gcd size overlap + size := by
  constructor
  · rintro ⟨n, hn⟩
    by_contra hfar
    have hmore : ∀ j < n, j * size % overlap + size < length := fun j _ => by
      have := mul_mod_le_sub_gcd size (show 0 < overlap by omega) j
      omega
    rw [place_eq_mod hsize hpos hmore] at hn
    have := mul_mod_le_sub_gcd size (show 0 < overlap by omega) n
    omega
  · intro hnear
    by_contra hnever
    rw [not_exists] at hnever
    have hmore : ∀ j, j * size % overlap + size < length := by
      intro j
      induction j using Nat.strong_induction_on with
      | h j ih =>
        by_contra hlast
        have hplace : place length size overlap j = _ := place_eq_mod hsize hpos ih
        have hnext := hnever (j + 1)
        rw [place_succ, hplace] at hnext
        have hj := hnever j
        rw [hplace] at hj
        refine hnext ?_
        simp only [next]
        rw [if_neg (by omega)]
        omega
    obtain ⟨j, hj⟩ := exists_mul_mod_eq size (show 0 < overlap by omega)
    have := hmore j
    omega

end BlockSearch
