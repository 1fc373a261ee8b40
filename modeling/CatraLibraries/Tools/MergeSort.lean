/-
# Merge sort within an array

`Tools/src/MergeSort.h`: a range of an array is cut at its middle, both halves are sorted in place,
and the halves are merged into a buffer of their own and copied back.  The buffer is indexed from
zero and as long as the range reaches from the start of the array, the copy goes to the place of the
range.

The ascending and the descending functions differ in the comparison, `operator <` or `operator >`,
and are one function of it here.  Indices are `long`, whose overflow has no defined behaviour.
-/
import CatraLibraries.Lib.Merging
import CatraLibraries.Lib.Pieces
import Mathlib.Logic.Function.Basic

namespace CatraLibraries

open Memory Merging

namespace MergeSort

variable {T : Type}

/-! ### The code -/

/-- The element at an index. -/
def loadAt (pTElements : Cells T) (lIndex : ℤ) : Except Fault T :=
  if 0 ≤ lIndex then load pTElements lIndex.toNat else .error .outOfBounds

/-- The loop of the merge, until one of the two ranges is finished: it leaves both indices, that of
the merged elements, and these. -/
def mergeLoop (before : T → T → Bool) (pTElements1 : Cells T) (lLastIndex1 : ℤ)
    (pTElements2 : Cells T) (lLastIndex2 : ℤ) :
    Nat → ℤ → ℤ → ℤ → Cells T → Except Fault (ℤ × ℤ × ℤ × Cells T)
  | 0, _, _, _, _ => .error .outOfFuel
  | fuel + 1, lIndex1, lIndex2, lMergedElementsIndex, pTMergedElements =>
    if lIndex1 ≤ lLastIndex1 ∧ lIndex2 ≤ lLastIndex2 then do
      let element1 ← loadAt pTElements1 lIndex1
      let element2 ← loadAt pTElements2 lIndex2
      if before element1 element2 then do
        let pTMergedElements ← storeAt pTMergedElements lMergedElementsIndex element1
        mergeLoop before pTElements1 lLastIndex1 pTElements2 lLastIndex2 fuel (lIndex1 + 1) lIndex2
          (lMergedElementsIndex + 1) pTMergedElements
      else do
        let pTMergedElements ← storeAt pTMergedElements lMergedElementsIndex element2
        mergeLoop before pTElements1 lLastIndex1 pTElements2 lLastIndex2 fuel lIndex1 (lIndex2 + 1)
          (lMergedElementsIndex + 1) pTMergedElements
    else .ok (lIndex1, lIndex2, lMergedElementsIndex, pTMergedElements)

/-- `for (; lIndex <= lLastIndex; lIndex++)
pTMergedElements [lMergedElementsIndex++] = pTElements [lIndex];` -/
def mergeRest (pTElements : Cells T) (lLastIndex : ℤ) :
    Nat → ℤ → ℤ → Cells T → Except Fault (ℤ × Cells T)
  | 0, _, _, _ => .error .outOfFuel
  | fuel + 1, lIndex, lMergedElementsIndex, pTMergedElements =>
    if lIndex ≤ lLastIndex then do
      let element ← loadAt pTElements lIndex
      let pTMergedElements ← storeAt pTMergedElements lMergedElementsIndex element
      mergeRest pTElements lLastIndex fuel (lIndex + 1) (lMergedElementsIndex + 1) pTMergedElements
    else .ok (lMergedElementsIndex, pTMergedElements)

/-- How many turns a loop from one index to another takes, and one for the last test. -/
def turns (lIndex lLastIndex : ℤ) : Nat := (lLastIndex + 1 - lIndex).toNat + 1

/-- The merge of two ranges: what it returns, the merged elements, and `*lMergedElementsNumber`. -/
def merge (before : T → T → Bool) (pTElements1 : Cells T) (lFirstIndex1 lLastIndex1 : ℤ)
    (pTElements2 : Cells T) (lFirstIndex2 lLastIndex2 : ℤ) (pTMergedElements : Cells T) :
    Except Fault (ℤ × Cells T × ℤ) := do
  let (lIndex1, lIndex2, lMergedElementsIndex, pTMergedElements) ←
    mergeLoop before pTElements1 lLastIndex1 pTElements2 lLastIndex2
      (turns lFirstIndex1 lLastIndex1 + turns lFirstIndex2 lLastIndex2)
      lFirstIndex1 lFirstIndex2 0 pTMergedElements
  let (lMergedElementsIndex, pTMergedElements) ← mergeRest pTElements1 lLastIndex1
    (turns lIndex1 lLastIndex1) lIndex1 lMergedElementsIndex pTMergedElements
  let (_, pTMergedElements) ← mergeRest pTElements2 lLastIndex2
    (turns lIndex2 lLastIndex2) lIndex2 lMergedElementsIndex pTMergedElements
  let lMergedElementsNumber ←
    long ((lLastIndex1 - lFirstIndex1 + 1) + (lLastIndex2 - lFirstIndex2 + 1))
  return (0, pTMergedElements, lMergedElementsNumber)

/-- `mergeAscending`. -/
def mergeAscending (less : T → T → Bool) := merge less

/-- `mergeDescending`. -/
def mergeDescending (greater : T → T → Bool) := merge greater

/-- The loop of `copyBuffers`. -/
def copyBuffersLoop (pTSrcElements : Cells T) (lSrcLastIndex lDestLastIndex : ℤ) :
    Nat → ℤ → ℤ → Cells T → Except Fault (Cells T)
  | 0, _, _, _ => .error .outOfFuel
  | fuel + 1, lSrcIndex, lDestIndex, pTDestElements =>
    if lSrcIndex ≤ lSrcLastIndex then
      if lDestIndex ≤ lDestLastIndex then do
        let element ← loadAt pTSrcElements lSrcIndex
        let pTDestElements ← storeAt pTDestElements lDestIndex element
        copyBuffersLoop pTSrcElements lSrcLastIndex lDestLastIndex fuel (lSrcIndex + 1)
          (lDestIndex + 1) pTDestElements
      else
        copyBuffersLoop pTSrcElements lSrcLastIndex lDestLastIndex fuel (lSrcIndex + 1) lDestIndex
          pTDestElements
    else .ok pTDestElements

/-- `copyBuffers`. -/
def copyBuffers (pTSrcElements : Cells T) (lSrcFirstIndex lSrcLastIndex : ℤ)
    (pTDestElements : Cells T) (lDestFirstIndex lDestLastIndex : ℤ) :
    Except Fault (ℤ × Cells T) := do
  return (0, ← copyBuffersLoop pTSrcElements lSrcLastIndex lDestLastIndex
    (turns lSrcFirstIndex lSrcLastIndex) lSrcFirstIndex lDestFirstIndex pTDestElements)

/-- The sort of a range, as deep as the first argument allows. -/
def mergeSortInternal (before : T → T → Bool) :
    Nat → ℤ → ℤ → Cells T → Except Fault (ℤ × Cells T)
  | 0, _, _, _ => .error .outOfFuel
  | depth + 1, lFirstIndex, lLastIndex, pTElements =>
    if lFirstIndex ≥ lLastIndex then .ok (0, pTElements)
    else do
      let lMiddleIndex := (← long (lFirstIndex + lLastIndex)).tdiv 2
      let (failed, pTElements) ← mergeSortInternal before depth lFirstIndex lMiddleIndex pTElements
      if failed ≠ 0 then return (1, pTElements)
      else
        let lNextIndex ← long (lMiddleIndex + 1)
        let (failed, pTElements) ← mergeSortInternal before depth lNextIndex lLastIndex pTElements
        if failed ≠ 0 then return (1, pTElements)
        else
          let pTSortedElements : Cells T := List.replicate (← long (lLastIndex + 1)).toNat none
          let (failed, pTSortedElements, lSortedElementsNumber) ← merge before
            pTElements lFirstIndex lMiddleIndex pTElements lNextIndex lLastIndex pTSortedElements
          if failed ≠ 0 then return (1, pTElements)
          else
            let (failed, pTElements) ← copyBuffers pTSortedElements 0 (lSortedElementsNumber - 1)
              pTElements lFirstIndex lLastIndex
            if failed ≠ 0 then return (1, pTElements) else return (0, pTElements)

/-- `mergeSortAscendingInternal`. -/
def mergeSortAscendingInternal (less : T → T → Bool) := mergeSortInternal less

/-- `mergeSortDescendingInternal`. -/
def mergeSortDescendingInternal (greater : T → T → Bool) := mergeSortInternal greater

/-- `mergeSortAscending`; a range of as many elements is never cut more often than that. -/
def mergeSortAscending (less : T → T → Bool) (pTElements : Cells T) (lElementsNumber : ℤ) :
    Except Fault (ℤ × Cells T) := do
  mergeSortAscendingInternal less (lElementsNumber.toNat + 1) 0 (← long (lElementsNumber - 1))
    pTElements

/-- `mergeSortDescending`. -/
def mergeSortDescending (greater : T → T → Bool) (pTElements : Cells T) (lElementsNumber : ℤ) :
    Except Fault (ℤ × Cells T) := do
  mergeSortDescendingInternal greater (lElementsNumber.toNat + 1) 0
    (← long (lElementsNumber - 1)) pTElements

/-! ### Where elements stand -/

/-- The elements `s` stand in the block from `i` on. -/
def Stands (m : Cells T) (i : ℕ) (s : List T) : Prop := ∃ rest, m.drop i = s.map some ++ rest

theorem Stands.load {m : Cells T} {i : ℕ} {a : T} {s : List T} (h : Stands m i (a :: s)) :
    loadAt m i = .ok a := by
  obtain ⟨rest, hrest⟩ := h
  have hget : m[i]? = some (some a) := by
    rw [← Nat.add_zero i, ← List.getElem?_drop, hrest]
    rfl
  rw [loadAt, if_pos (Int.natCast_nonneg i), Int.toNat_natCast, Memory.load, hget]

theorem Stands.tail {m : Cells T} {i : ℕ} {a : T} {s : List T} (h : Stands m i (a :: s)) :
    Stands m (i + 1) s := by
  obtain ⟨rest, hrest⟩ := h
  exact ⟨rest, by rw [← List.drop_drop, hrest]; rfl⟩

theorem Stands.of_append (before s : List T) (x : Cells T) :
    Stands ((before ++ s).map some ++ x) before.length s := by
  refine ⟨x, ?_⟩
  rw [List.map_append, List.append_assoc]
  exact List.drop_left' (List.length_map _)

/-- A block whose elements have been written up to the cells `x`. -/
def written (done : List T) (x : Cells T) : Cells T := done.map some ++ x

theorem storeAt_written (done : List T) (a : T) (c : Option T) (x : Cells T) :
    storeAt (written done (c :: x)) done.length a = .ok (written (done ++ [a]) x) := by
  rw [written, storeAt_append (done.map some) x c a (by rw [List.length_map])]
  simp [written]

/-- The place behind one more element. -/
theorem length_concat_cast (done : List T) (a : T) :
    ((done ++ [a]).length : ℤ) = done.length + 1 := by
  rw [List.length_append, List.length_singleton, Nat.cast_add, Nat.cast_one]

theorem turns_succ {i l : ℤ} (h : i ≤ l) : turns i l = turns (i + 1) l + 1 := by
  unfold turns
  omega

theorem turns_of_lt {i l : ℤ} (h : l < i) : turns i l = 1 := by
  unfold turns
  omega

/-! ### The merge -/

/-- What is left of a range is copied behind the merged elements. -/
theorem mergeRest_eq {m : Cells T} {i : ℕ} {s : List T} (hs : Stands m i s) {l : ℤ}
    (hl : l = i + s.length - 1) (done : List T) {old : Cells T} (hold : old.length = s.length)
    (x : Cells T) :
    mergeRest m l (turns i l) i done.length (written done (old ++ x))
      = .ok ((done ++ s).length, written (done ++ s) x) := by
  induction s generalizing i done old with
  | nil =>
    obtain rfl := List.length_eq_zero_iff.mp hold
    have hend : ¬ (i : ℤ) ≤ l := by rw [hl, List.length_nil]; omega
    rw [turns_of_lt (Int.lt_of_not_ge hend), mergeRest, if_neg hend, List.append_nil,
      List.nil_append]
  | cons a s ih =>
    obtain ⟨c, old, rfl⟩ := List.exists_cons_of_length_eq_add_one hold
    rw [List.length_cons] at hl hold
    have hmore : (i : ℤ) ≤ l := by omega
    have hrest := ih (i := i + 1) hs.tail (by push_cast; omega) (done ++ [a])
      (Nat.succ_injective hold)
    rw [length_concat_cast, List.append_assoc] at hrest
    rw [turns_succ hmore, mergeRest, if_pos hmore, hs.load, ok_bind, List.cons_append,
      storeAt_written, ok_bind]
    exact hrest

/-- **The merge**, from any place: the loop and what it leaves of the ranges write the merge of the
lists that stand there. -/
theorem mergeLoop_eq (before : T → T → Bool) {m : Cells T} (fuel : ℕ) {i j : ℕ} {s t : List T}
    (hs : Stands m i s) (ht : Stands m j t) {k l : ℤ} (hk : k = i + s.length - 1)
    (hl : l = j + t.length - 1) (done : List T) {old : Cells T}
    (hold : old.length = s.length + t.length) (x : Cells T) (hfuel : s.length + t.length < fuel) :
    (mergeLoop before m k m l fuel i j done.length (written done (old ++ x)) >>= fun r =>
      mergeRest m k (turns r.1 k) r.1 r.2.2.1 r.2.2.2 >>= fun r' =>
        mergeRest m l (turns r.2.1 l) r.2.1 r'.1 r'.2)
      = .ok ((done ++ s.merge t before).length, written (done ++ s.merge t before) x) := by
  induction fuel generalizing i j s t done old with
  | zero => exact absurd hfuel (Nat.not_lt_zero _)
  | succ fuel ih =>
    rw [mergeLoop]
    by_cases hmore : (i : ℤ) ≤ k ∧ (j : ℤ) ≤ l
    · obtain ⟨a, s, rfl⟩ := List.exists_cons_of_length_pos (l := s) (by omega)
      obtain ⟨b, t, rfl⟩ := List.exists_cons_of_length_pos (l := t) (by omega)
      obtain ⟨c, old, rfl⟩ := List.exists_cons_of_length_pos (l := old) (by
        rw [hold, List.length_cons]
        omega)
      rw [if_pos hmore, hs.load, ok_bind, ht.load, ok_bind, List.cons_merge_cons]
      simp only [List.length_cons] at hk hl hold hfuel
      by_cases hab : before a b
      · have hnext := ih (i := i + 1) hs.tail ht (by push_cast; omega)
          (by rw [List.length_cons]; exact hl) (done ++ [a])
          (show old.length = s.length + (b :: t).length by rw [List.length_cons]; omega)
          (by rw [List.length_cons]; omega)
        rw [length_concat_cast, List.append_assoc] at hnext
        rw [if_pos hab, if_pos hab, List.cons_append, storeAt_written, ok_bind]
        exact hnext
      · have hnext := ih (j := j + 1) hs ht.tail (by rw [List.length_cons]; exact hk)
          (by push_cast; omega) (done ++ [b])
          (show old.length = (a :: s).length + t.length by rw [List.length_cons]; omega)
          (by rw [List.length_cons]; omega)
        rw [length_concat_cast, List.append_assoc] at hnext
        rw [if_neg hab, if_neg hab, List.cons_append, storeAt_written, ok_bind]
        exact hnext
    · -- one of the ranges is finished, and the merge is the other
      rw [if_neg hmore, ok_bind]
      have hsplit : s = [] ∨ t = [] := by
        by_contra hboth
        have hs' := List.length_pos_iff.mpr (not_or.mp hboth).1
        have ht' := List.length_pos_iff.mpr (not_or.mp hboth).2
        omega
      have hcut : old = old.take s.length ++ old.drop s.length := (List.take_append_drop _ _).symm
      have hfirst := mergeRest_eq hs hk done
        (show (old.take s.length).length = s.length by rw [List.length_take]; omega)
        (old.drop s.length ++ x)
      have hsecond := mergeRest_eq ht hl (done ++ s)
        (show (old.drop s.length).length = t.length by rw [List.length_drop]; omega) x
      rw [← List.append_assoc, ← hcut] at hfirst
      have hmerge : s.merge t before = s ++ t := by
        rcases hsplit with rfl | rfl
        · simp
        · simp
      show (mergeRest m k (turns i k) i done.length (written done (old ++ x)) >>= fun r' => _) = _
      rw [hfirst, ok_bind, hmerge, ← List.append_assoc]
      exact hsecond

/-- **The merge of two ranges**, into a buffer with room for both. -/
theorem merge_eq (before : T → T → Bool) {m : Cells T} {i j : ℕ} {s t : List T}
    (hs : Stands m i s) (ht : Stands m j t) {k l : ℤ} (hk : k = i + s.length - 1)
    (hl : l = j + t.length - 1) (hlong : s.length + t.length < 2 ^ 63) {n : ℕ}
    (hroom : s.length + t.length ≤ n) :
    ∃ x, merge before m i k m j l (List.replicate n none)
      = .ok (0, written (s.merge t before) x, ((s.merge t before).length : ℤ)) := by
  have hturns : s.length + t.length < turns i k + turns j l := by
    unfold turns
    omega
  have hloop := mergeLoop_eq before (turns i k + turns j l) hs ht hk hl []
    (List.length_replicate (a := none))
    (List.replicate (n - (s.length + t.length)) none) hturns
  have hbuffer : written ([] : List T)
      (List.replicate (s.length + t.length) none
        ++ List.replicate (n - (s.length + t.length)) none) = List.replicate n none := by
    rw [List.replicate_append_replicate, Nat.add_sub_cancel' hroom]
    rfl
  rw [hbuffer, List.length_nil, Nat.cast_zero, List.nil_append] at hloop
  refine ⟨List.replicate (n - (s.length + t.length)) none, ?_⟩
  have hnumber : long ((k - i + 1) + (l - j + 1)) = .ok ((s.merge t before).length : ℤ) := by
    rw [List.length_merge, long, if_pos (by omega)]
    exact congrArg Except.ok (by push_cast; omega)
  obtain ⟨r, hr, hrest⟩ := bind_eq_ok.mp hloop
  obtain ⟨r', hr', hlast⟩ := bind_eq_ok.mp hrest
  rw [merge, hr, ok_bind]
  dsimp only
  rw [hr', ok_bind, hlast, ok_bind, hnumber, ok_bind]
  rfl

/-! ### The copy -/

/-- The merged elements go to the place of the range. -/
theorem copyBuffersLoop_eq {src : Cells T} {k l : ℤ} {i j : ℕ} {s : List T} (hs : Stands src i s)
    (hk : k = i + s.length - 1) (hl : l = j + s.length - 1) {pre old : Cells T}
    (hj : j = pre.length) (hold : old.length = s.length) (post : Cells T) :
    copyBuffersLoop src k l (turns i k) i j (pre ++ old ++ post)
      = .ok (pre ++ s.map some ++ post) := by
  induction s generalizing i j pre old with
  | nil =>
    obtain rfl := List.length_eq_zero_iff.mp hold
    have hend : ¬ (i : ℤ) ≤ k := by rw [hk, List.length_nil]; omega
    rw [turns_of_lt (Int.lt_of_not_ge hend), copyBuffersLoop, if_neg hend]
    rfl
  | cons a s ih =>
    obtain ⟨c, old, rfl⟩ := List.exists_cons_of_length_eq_add_one hold
    rw [List.length_cons] at hk hl hold
    have hmore : (i : ℤ) ≤ k := by omega
    have hplace : (j : ℤ) ≤ l := by omega
    have hrest := ih (i := i + 1) (j := j + 1) hs.tail (by push_cast; omega) (by push_cast; omega)
      (show j + 1 = (pre ++ [some a]).length by
        rw [hj, List.length_append, List.length_singleton])
      (Nat.succ_injective hold)
    have hstore : storeAt (pre ++ c :: old ++ post) j a = .ok (pre ++ [some a] ++ old ++ post) := by
      have := storeAt_append pre (old ++ post) c a (i := j) (by rw [hj])
      simpa using this
    rw [turns_succ hmore, copyBuffersLoop, if_pos hmore, if_pos hplace, hs.load, ok_bind, hstore,
      ok_bind]
    push_cast at hrest
    rw [hrest]
    simp

theorem copyBuffers_eq {s : List T} (x : Cells T) {pre old : Cells T} {i l : ℤ}
    (hi : i = pre.length) (hl : l = pre.length + s.length - 1) (hold : old.length = s.length)
    (post : Cells T) :
    copyBuffers (written s x) 0 (s.length - 1) (pre ++ old ++ post) i l
      = .ok (0, pre ++ s.map some ++ post) := by
  have hstands : Stands (written s x) 0 s := Stands.of_append [] s x
  have hloop := copyBuffersLoop_eq (j := pre.length) hstands (k := s.length - 1)
    (by rw [Nat.cast_zero, Int.zero_add]) hl rfl hold post
  rw [Nat.cast_zero, ← hi] at hloop
  rw [copyBuffers, hloop, ok_bind]
  rfl

/-! ### The sort -/

/-- **The sort of a range** leaves it sorted, and the cells around it as they are. -/
theorem mergeSortInternal_eq (before : T → T → Bool) [IsStrictWeakOrder T (before · ·)]
    (depth : ℕ) (pre : Cells T) (s : List T) (post : Cells T) {i l : ℤ} (hi : i = pre.length)
    (hl : l = pre.length + s.length - 1) (hlong : pre.length + s.length < 2 ^ 62)
    (hdepth : s.length ≤ depth) (hpos : 0 < depth) :
    ∃ s', mergeSortInternal before depth i l (pre ++ s.map some ++ post)
        = .ok (0, pre ++ s'.map some ++ post) ∧ Sorts before s s' := by
  induction depth generalizing pre s post i l with
  | zero => exact absurd hpos (Nat.lt_irrefl 0)
  | succ depth ih =>
    rw [mergeSortInternal]
    by_cases hone : s.length ≤ 1
    · exact ⟨s, by rw [if_pos (by omega)], Sorts.of_length_le_one hone⟩
    · -- the range is cut behind its element in the middle
      obtain ⟨u, v, rfl, hu⟩ : ∃ u v, s = u ++ v ∧ u.length = (s.length - 1) / 2 + 1 := by
        refine ⟨s.take ((s.length - 1) / 2 + 1), s.drop ((s.length - 1) / 2 + 1),
          (List.take_append_drop _ _).symm, ?_⟩
        rw [List.length_take]
        omega
      rw [List.length_append] at hl hlong hdepth hone hu
      obtain ⟨u', hu', hsortu⟩ := ih pre u (v.map some ++ post) hi rfl (by omega) (by omega)
        (by omega)
      have hulen := hsortu.length_eq
      have hprelen : (pre ++ u'.map some).length = pre.length + u.length := by
        rw [List.length_append, List.length_map, hulen]
      obtain ⟨v', hv', hsortv⟩ := ih (pre ++ u'.map some) v post (i := pre.length + u.length) (l := l)
        (by rw [hprelen, Nat.cast_add]) (by rw [hprelen]; omega) (by omega) (by omega) (by omega)
      have hvlen := hsortv.length_eq
      -- both halves stand where they are merged from
      have hstandsu : Stands (pre ++ u'.map some ++ v'.map some ++ post) pre.length u' :=
        ⟨v'.map some ++ post, by simp⟩
      have hstandsv : Stands (pre ++ u'.map some ++ v'.map some ++ post) (pre.length + u.length) v' :=
        ⟨post, by rw [← hprelen, List.append_assoc]; exact List.drop_left⟩
      obtain ⟨x, hmerge⟩ := merge_eq before hstandsu hstandsv
        (k := pre.length + u.length - 1) (l := l) (by rw [hulen]) (by push_cast; omega) (by omega)
        (n := (l + 1).toNat) (by omega)
      have hcopy := copyBuffers_eq (s := u'.merge v' before) x hi
        (show l = pre.length + (u'.merge v' before).length - 1 by rw [List.length_merge]; omega)
        (show ((u' ++ v').map some).length = (u'.merge v' before).length by
          rw [List.length_map, List.length_append, List.length_merge]) post
      refine ⟨u'.merge v' before, ?_, hsortu.merge hsortv⟩
      have hmiddle : (i + l).tdiv 2 = pre.length + u.length - 1 := by
        rw [Int.tdiv_eq_ediv_of_nonneg (by omega)]
        omega
      have hsum : long (i + l) = .ok (i + l) := long_ok (by omega) (by omega)
      have hnext : long (pre.length + u.length - 1 + 1) = .ok (pre.length + u.length : ℤ) := by
        rw [long_ok (by omega) (by omega), Int.sub_add_cancel]
      have hbuffer : long (l + 1) = .ok (l + 1) := long_ok (by omega) (by omega)
      have hwhole : pre ++ (u ++ v).map some ++ post
          = pre ++ u.map some ++ (v.map some ++ post) := by simp
      rw [if_neg (by omega), hsum, ok_bind]
      dsimp only
      rw [hmiddle, hwhole, hu', ok_bind]
      dsimp only
      rw [if_neg (by decide), hnext, ok_bind, ← List.append_assoc, hv', ok_bind]
      dsimp only
      rw [if_neg (by decide), hbuffer, ok_bind, hi]
      rw [Nat.cast_add] at hmerge
      rw [hi, List.map_append, ← List.append_assoc] at hcopy
      rw [hmerge, ok_bind]
      dsimp only
      rw [if_neg (by decide), hcopy, ok_bind]
      dsimp only
      rw [if_neg (by decide)]
      rfl

/-- An array whose first elements, those that are to be sorted, have been initialised.  An address
has 57 bits at most, so that no array has 2⁶² elements. -/
structure Elements (T : Type) where
  front : List T
  behind : Cells T
  length_lt : front.length + behind.length < 2 ^ 62

/-- The cells of the array. -/
def Elements.cells (a : Elements T) : Cells T := a.front.map some ++ a.behind

/-- The sort of the first elements, for either of the comparisons. -/
theorem mergeSortInternal_front (before : T → T → Bool) [IsStrictWeakOrder T (before · ·)]
    (a : Elements T) :
    ∃ s, (long (a.front.length - 1) >>= fun l =>
        mergeSortInternal before ((a.front.length : ℤ).toNat + 1) 0 l a.cells)
      = .ok (0, s.map some ++ a.behind) ∧ Sorts before a.front s := by
  have hlength := a.length_lt
  obtain ⟨s, hs, hsorts⟩ := mergeSortInternal_eq before (a.front.length + 1) [] a.front a.behind
    (i := 0) (l := a.front.length - 1) rfl (by simp) (by simp; omega) (by omega) (by omega)
  refine ⟨s, ?_, hsorts⟩
  rw [long_ok (by omega) (by omega), ok_bind, Int.toNat_natCast]
  exact hs

/-- **Merge sort.**  For a strict weak order, the first elements of the array are left sorted and a
permutation of the original ones, in the order or in the reversed one, the cells behind them are
as they were, and every index is inside the array or the buffer. -/
theorem mergeSort_sorts (less : T → T → Bool) [IsStrictWeakOrder T (less · ·)] (a : Elements T) :
    (∃ s, mergeSortAscending less a.cells a.front.length = .ok (0, s.map some ++ a.behind) ∧
        Sorts less a.front s) ∧
      ∃ s, mergeSortDescending (fun x y => less y x) a.cells a.front.length
          = .ok (0, s.map some ++ a.behind) ∧ Sorts (fun x y => less y x) a.front s := by
  have hreversed : IsStrictWeakOrder T ((fun x y => less y x) · ·) :=
    inferInstanceAs (IsStrictWeakOrder T (Function.swap (less · ·)))
  exact ⟨mergeSortInternal_front less a, mergeSortInternal_front (fun x y => less y x) a⟩

/-- Five numbers, of which the first four are sorted. -/
def fiveNumbers : Elements ℕ := ⟨[3, 1, 2, 1], [some 0], by decide⟩

theorem mergeSort_sorts_fiveNumbers :
    (∃ s, mergeSortAscending (fun x y => decide (x < y)) fiveNumbers.cells 4
        = .ok (0, s.map some ++ [some 0]) ∧
        Sorts (fun x y : ℕ => decide (x < y)) [3, 1, 2, 1] s) ∧
      mergeSortDescending (fun x y => decide (y < x)) fiveNumbers.cells 4
        = .ok (0, [some 3, some 2, some 1, some 1, some 0]) := by
  have horder : IsStrictWeakOrder ℕ (fun x y : ℕ => decide (x < y) = true) :=
    { irrefl := fun x => by simp
      trans := fun x y z hxy hyz => by simp only [decide_eq_true_eq] at *; omega
      incomp_trans := fun x y z hxy hyz => by simp only [decide_eq_true_eq] at *; omega }
  exact ⟨(mergeSort_sorts (fun x y => decide (x < y)) fiveNumbers).1, by decide +kernel⟩

end MergeSort

end CatraLibraries
