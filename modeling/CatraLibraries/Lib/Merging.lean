/-
# Merging sorted lists

A list is sorted by a strict weak order when no element is before an earlier one.  The merge that
takes from the first list only where its element is strictly before the other, and from the second
on a tie, is the merge of the library with its arguments exchanged, and so it is sorted and a
permutation of the two lists.
-/
import Mathlib.Data.List.Perm.Basic
import Mathlib.Order.Defs.Unbundled

namespace Merging

universe u

variable {α : Type u} {before : α → α → Bool} {s s' t t' : List α}

/-- No element is before an earlier one. -/
def Sorted (before : α → α → Bool) (s : List α) : Prop := s.Pairwise fun a b => !before b a

/-- The list `s'` has the elements of `s`, and is sorted. -/
structure Sorts (before : α → α → Bool) (s s' : List α) : Prop where
  perm : s'.Perm s
  sorted : Sorted before s'

/-- To merge with ties going to the second list is to merge the lists in the other order. -/
theorem merge_exchange (before : α → α → Bool) (s t : List α) :
    s.merge t before = t.merge s fun b a => !before a b := by
  induction s generalizing t with
  | nil => simp
  | cons a s ihs =>
    induction t with
    | nil => simp
    | cons b t iht =>
      rw [List.cons_merge_cons, List.cons_merge_cons, ihs, iht]
      cases before a b <;> rfl

/-- In a strict weak order, not to be after is transitive. -/
theorem not_before_trans [IsStrictWeakOrder α (before · ·)] {a b c : α}
    (hab : before b a = false) (hbc : before c b = false) : before c a = false := by
  by_contra hca
  rw [Bool.not_eq_false] at hca
  have htrans : ∀ {x y z : α}, before x y = true → before y z = true → before x z = true :=
    fun {x y z} hxy hyz => IsTrans.trans (r := (before · ·)) x y z hxy hyz
  have hab' : before a b = false := by
    by_contra h
    rw [Bool.not_eq_false] at h
    exact absurd (htrans hca h) (by simp [hbc])
  have hbc' : before b c = false := by
    by_contra h
    rw [Bool.not_eq_false] at h
    exact absurd (htrans h hca) (by simp [hab])
  have hincomp := (inferInstance : IsStrictWeakOrder α (before · ·)).incomp_trans a b c
    ⟨by simp [hab'], by simp [hab]⟩ ⟨by simp [hbc'], by simp [hbc]⟩
  exact hincomp.2 hca

/-- Of two elements one is not after the other. -/
theorem not_before_total [IsStrictWeakOrder α (before · ·)] (a b : α) :
    before b a = false ∨ before a b = false := by
  by_contra h
  rw [not_or, Bool.not_eq_false, Bool.not_eq_false] at h
  exact Std.Irrefl.irrefl (r := (before · ·)) a (IsTrans.trans (r := (before · ·)) a b a h.2 h.1)

/-- **A merge of sorted lists is sorted.** -/
theorem Sorted.merge [IsStrictWeakOrder α (before · ·)] (hs : Sorted before s)
    (ht : Sorted before t) : Sorted before (s.merge t before) := by
  rw [merge_exchange]
  refine @List.pairwise_merge _ (fun a b => !before b a) ?_ ?_ t s ht hs
  · intro a b c hab hbc
    rw [Bool.not_eq_true'] at hab hbc ⊢
    exact not_before_trans hab hbc
  · intro a b
    rw [Bool.or_eq_true, Bool.not_eq_true', Bool.not_eq_true']
    exact not_before_total a b

/-- **Sorting by halves**: the merge of the sorted halves sorts the whole. -/
theorem Sorts.merge [IsStrictWeakOrder α (before · ·)] (hs : Sorts before s s')
    (ht : Sorts before t t') : Sorts before (s ++ t) (s'.merge t' before) :=
  ⟨(List.merge_perm_append before).trans (hs.perm.append ht.perm), hs.sorted.merge ht.sorted⟩

/-- One element is sorted, and so is none. -/
theorem Sorts.of_length_le_one (h : s.length ≤ 1) : Sorts before s s := by
  refine ⟨List.Perm.refl s, ?_⟩
  match s with
  | [] => exact List.Pairwise.nil
  | [a] => exact List.pairwise_singleton _ a

theorem Sorts.length_eq (h : Sorts before s s') : s'.length = s.length := h.perm.length_eq

end Merging
