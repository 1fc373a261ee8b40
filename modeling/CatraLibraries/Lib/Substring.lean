/-
# Occurrences of a sublist

Searching a list for a contiguous sublist, stripping copies of one from either end,
and replacing its occurrences from the left without overlap.  The recursive
definitions go element by element; the lemmas restate them by the place of the first
occurrence, which is how a search loop meets them.
-/
import Mathlib.Data.List.Infix

namespace Substring

variable {α : Type*} [DecidableEq α]

/-- Where `pat` first occurs in `s`. -/
def findSub (pat : List α) : List α → Option Nat
  | [] => if pat = [] then some 0 else none
  | c :: s => if pat <+: c :: s then some 0 else (findSub pat s).map (· + 1)

/-- `s` without the copies of `pat` it starts with. -/
def stripLeading (pat s : List α) : List α :=
  if _h : pat ≠ [] ∧ pat <+: s then stripLeading pat (s.drop pat.length) else s
termination_by s.length
decreasing_by
  obtain ⟨hne, hpre⟩ := _h
  have hpos : 0 < pat.length := List.length_pos_iff.mpr hne
  have := hpre.length_le
  simp only [List.length_drop]
  omega

/-- `s` without the copies of `pat` it ends with. -/
def stripTrailing (pat s : List α) : List α :=
  (stripLeading pat.reverse s.reverse).reverse

/-- `s` with `new` for each occurrence of `pat`, taken from the left without overlap. -/
def replaceAll (pat new : List α) (s : List α) : List α :=
  if _h : pat ≠ [] ∧ pat <+: s then new ++ replaceAll pat new (s.drop pat.length)
  else
    match s with
    | [] => []
    | c :: s => c :: replaceAll pat new s
termination_by s.length
decreasing_by
  · obtain ⟨hne, hpre⟩ := _h
    have hpos : 0 < pat.length := List.length_pos_iff.mpr hne
    have := hpre.length_le
    simp only [List.length_drop]
    omega
  · simp

/-- How many occurrences of `pat` a replacement from the left meets. -/
def countSub (pat : List α) (s : List α) : Nat :=
  if _h : pat ≠ [] ∧ pat <+: s then countSub pat (s.drop pat.length) + 1
  else
    match s with
    | [] => 0
    | _ :: s => countSub pat s
termination_by s.length
decreasing_by
  · obtain ⟨hne, hpre⟩ := _h
    have hpos : 0 < pat.length := List.length_pos_iff.mpr hne
    have := hpre.length_le
    simp only [List.length_drop]
    omega
  · simp

variable {pat new s : List α}

/-! ### The first occurrence -/

section

attribute [local simp] findSub

/-- The first occurrence cuts the list in three. -/
theorem findSub_eq_some {i : Nat} (h : findSub pat s = some i) :
    s = s.take i ++ pat ++ s.drop (i + pat.length) := by
  induction s generalizing i with
  | nil =>
    unfold findSub at h
    split at h
    · next hp => simp [hp]
    · exact absurd h (by simp)
  | cons c s ih =>
    unfold findSub at h
    split at h
    · next hpre =>
      obtain rfl : i = 0 := by simpa using h.symm
      obtain ⟨t, ht⟩ := hpre
      rw [← ht]
      simp
    · obtain ⟨j, hj, rfl⟩ := Option.map_eq_some_iff.mp h
      have := ih hj
      rw [Nat.add_right_comm, List.take_succ_cons, List.drop_succ_cons, List.cons_append,
        List.cons_append, ← this]

end

theorem findSub_le {i : Nat} (h : findSub pat s = some i) : i + pat.length ≤ s.length := by
  induction s generalizing i with
  | nil =>
    unfold findSub at h
    split at h
    · next hp => simp [hp, ← Option.some.inj h]
    · exact absurd h (by simp)
  | cons c s ih =>
    unfold findSub at h
    split at h
    · next hpre =>
      obtain rfl : i = 0 := by simpa using h.symm
      simpa using hpre.length_le
    · obtain ⟨j, hj, rfl⟩ := Option.map_eq_some_iff.mp h
      have := ih hj
      simp only [List.length_cons]
      omega

/-- **The first occurrence**, by what starts where. -/
theorem findSub_eq_some_iff {i : Nat} :
    findSub pat s = some i ↔
      i ≤ s.length ∧ pat <+: s.drop i ∧ ∀ j < i, ¬ pat <+: s.drop j := by
  induction s generalizing i with
  | nil =>
    unfold findSub
    by_cases hp : pat = []
    · rw [if_pos hp, hp]
      constructor
      · intro h
        obtain rfl : i = 0 := by simpa using h.symm
        simp
      · rintro ⟨hle, -, -⟩
        exact congrArg some (Nat.le_zero.mp hle).symm
    · simp [hp]
  | cons c s ih =>
    unfold findSub
    by_cases hpre : pat <+: c :: s
    · rw [if_pos hpre]
      constructor
      · intro h
        obtain rfl : i = 0 := by simpa using h.symm
        exact ⟨Nat.zero_le _, hpre, by simp⟩
      · rintro ⟨-, -, hmin⟩
        cases i with
        | zero => rfl
        | succ i => exact absurd hpre (hmin 0 (Nat.succ_pos i))
    · rw [if_neg hpre]
      cases i with
      | zero => simp [hpre]
      | succ i =>
        simp only [Option.map_eq_some_iff, Nat.add_right_cancel_iff, exists_eq_right, ih,
          List.length_cons, Nat.add_le_add_iff_right, List.drop_succ_cons]
        refine and_congr_right fun _ => and_congr_right fun _ => ?_
        constructor
        · intro hmin j hj
          cases j with
          | zero => exact hpre
          | succ j => exact hmin j (by omega)
        · intro hmin j hj
          exact hmin (j + 1) (by omega)

theorem findSub_isSome_iff : (findSub pat s).isSome = true ↔ pat <:+: s := by
  induction s with
  | nil =>
    rw [findSub, List.infix_nil]
    by_cases hpat : pat = []
    · simp [hpat]
    · simp [hpat]
  | cons c s ih =>
    rw [findSub, List.infix_cons_iff, ← ih]
    by_cases hpre : pat <+: c :: s
    · simp [hpre]
    · simp [hpre]

/-- A pattern whose first element does not occur in it again is found behind any text that does not
contain it. -/
theorem findSub_behind {c : α} {pat : List α} (hc : c ∉ pat) {x : List α}
    (hx : ¬ c :: pat <:+: x) (rest : List α) :
    findSub (c :: pat) (x ++ (c :: pat ++ rest)) = some x.length := by
  refine findSub_eq_some_iff.mpr ⟨by simp, by simp, fun j hj hpre => ?_⟩
  rw [List.drop_append_of_le_length hj.le] at hpre
  rcases List.prefix_or_prefix_of_prefix hpre (List.prefix_append _ _) with hin | hover
  · exact hx (hin.isInfix.trans (List.drop_suffix j x).isInfix)
  · -- the rest of the text begins the pattern, which would begin once more inside itself
    obtain ⟨z, hz⟩ := hover
    rw [← hz, List.prefix_append_right_inj] at hpre
    obtain ⟨d, y, hdrop⟩ := List.exists_cons_of_length_pos (l := x.drop j)
      (by rw [List.length_drop]; omega)
    rw [hdrop] at hpre
    rw [hdrop, List.cons_append] at hz
    obtain ⟨hd, rfl⟩ := List.cons.inj hz
    cases z with
    | nil =>
      refine hx ?_
      rw [← hz, List.append_nil, ← hdrop]
      exact (List.drop_suffix j x).isInfix
    | cons e z =>
      obtain ⟨rfl, -⟩ := List.cons_prefix_cons.mp hpre
      exact hc (by simp [← hd])

/-- Cutting before the first occurrence brings it nearer. -/
theorem findSub_drop {i k : Nat} (h : findSub pat s = some i) (hk : k ≤ i) :
    findSub pat (s.drop k) = some (i - k) := by
  obtain ⟨hle, hpre, hmin⟩ := findSub_eq_some_iff.mp h
  refine findSub_eq_some_iff.mpr ⟨?_, ?_, fun j hj => ?_⟩
  · rw [List.length_drop]
    omega
  · rwa [List.drop_drop, Nat.add_sub_cancel' hk]
  · rw [List.drop_drop]
    exact hmin (k + j) (by omega)

/-- In a prefix of the list the first occurrence is the same, if it is all there. -/
theorem findSub_take {n p : Nat} :
    findSub pat (s.take n) = some p ↔
      findSub pat s = some p ∧ p + pat.length ≤ (s.take n).length := by
  have hstart : ∀ j, j + pat.length ≤ (s.take n).length →
      (pat <+: (s.take n).drop j ↔ pat <+: s.drop j) := by
    intro j hj
    rw [List.length_take] at hj
    rw [List.drop_take]
    refine ⟨fun h => h.trans (List.take_prefix _ _), fun h => ?_⟩
    exact List.prefix_take_iff.mpr ⟨h, by omega⟩
  constructor
  · intro h
    have hlen := findSub_le h
    obtain ⟨hle, hpre, hmin⟩ := findSub_eq_some_iff.mp h
    refine ⟨findSub_eq_some_iff.mpr ⟨?_, (hstart p hlen).mp hpre, fun j hj hp => ?_⟩, hlen⟩
    · exact hle.trans (by rw [List.length_take]; omega)
    · exact hmin j hj ((hstart j (by omega)).mpr hp)
  · rintro ⟨h, hlen⟩
    obtain ⟨hle, hpre, hmin⟩ := findSub_eq_some_iff.mp h
    refine findSub_eq_some_iff.mpr ⟨by omega, (hstart p hlen).mpr hpre, fun j hj hp => ?_⟩
    exact hmin j hj ((hstart j (by omega)).mp hp)

section

attribute [local simp] replaceAll

theorem replaceAll_of_prefix (hne : pat ≠ []) (t : List α) :
    replaceAll pat new (pat ++ t) = new ++ replaceAll pat new t := by
  rw [replaceAll, dif_pos ⟨hne, List.prefix_append _ _⟩, List.drop_left]

end

theorem countSub_of_prefix (hne : pat ≠ []) (t : List α) :
    countSub pat (pat ++ t) = countSub pat t + 1 := by
  rw [countSub, dif_pos ⟨hne, List.prefix_append _ _⟩, List.drop_left]

/-- **Replacement, by the first occurrence.** -/
theorem replaceAll_eq (hne : pat ≠ []) (new s : List α) :
    replaceAll pat new s =
      match findSub pat s with
      | none => s
      | some i => s.take i ++ new ++ replaceAll pat new (s.drop (i + pat.length)) := by
  induction s with
  | nil =>
    have hno : ¬ (pat ≠ [] ∧ pat <+: []) := fun h => h.1 (List.prefix_nil.mp h.2)
    rw [replaceAll, dif_neg hno, findSub, if_neg hne]
  | cons c s ih =>
    unfold findSub
    by_cases hpre : pat <+: c :: s
    · obtain ⟨t, ht⟩ := hpre
      rw [if_pos ⟨t, ht⟩, ← ht, replaceAll_of_prefix hne]
      simp
    · rw [replaceAll, dif_neg (fun h => hpre h.2), if_neg hpre]
      simp only [ih]
      cases findSub pat s with
      | none => rfl
      | some i =>
        simp only [Option.map_some, List.take_succ_cons, List.cons_append,
          Nat.add_right_comm i 1, List.drop_succ_cons]

/-- **Counting, by the first occurrence.** -/
theorem countSub_eq (hne : pat ≠ []) (s : List α) :
    countSub pat s =
      match findSub pat s with
      | none => 0
      | some i => countSub pat (s.drop (i + pat.length)) + 1 := by
  induction s with
  | nil =>
    have hno : ¬ (pat ≠ [] ∧ pat <+: []) := fun h => h.1 (List.prefix_nil.mp h.2)
    rw [countSub, dif_neg hno, findSub, if_neg hne]
  | cons c s ih =>
    unfold findSub
    by_cases hpre : pat <+: c :: s
    · obtain ⟨t, ht⟩ := hpre
      rw [if_pos ⟨t, ht⟩, ← ht, countSub_of_prefix hne]
      simp
    · rw [countSub, dif_neg (fun h => hpre h.2), if_neg hpre]
      simp only [ih]
      cases findSub pat s with
      | none => rfl
      | some i =>
        simp only [Option.map_some, Nat.add_right_comm i 1, List.drop_succ_cons]

/-- Each replacement trades the length of `pat` for that of `new`. -/
theorem length_replaceAll (hne : pat ≠ []) (new s : List α) :
    (replaceAll pat new s).length + countSub pat s * pat.length
      = s.length + countSub pat s * new.length := by
  induction hn : s.length using Nat.strong_induction_on generalizing s with
  | _ n ih =>
    rw [replaceAll_eq hne, countSub_eq hne]
    cases hfind : findSub pat s with
    | none => simp [hn]
    | some i =>
      have hle := findSub_le hfind
      have hpos : 0 < pat.length := List.length_pos_iff.mpr hne
      have hrec := ih (s.length - (i + pat.length)) (by omega) (s.drop (i + pat.length))
        (List.length_drop ..)
      simp only [List.length_append, List.length_take, Nat.min_eq_left (show i ≤ s.length by omega),
        Nat.add_mul, Nat.one_mul] at hrec ⊢
      omega

/-! ### Stripping -/

theorem stripLeading_of_not (h : ¬ pat <+: s) : stripLeading pat s = s := by
  rw [stripLeading, dif_neg (fun h' => h h'.2)]

theorem stripLeading_of_prefix (hne : pat ≠ []) (h : pat <+: s) :
    stripLeading pat s = stripLeading pat (s.drop pat.length) := by
  conv_lhs => rw [stripLeading, dif_pos ⟨hne, h⟩]

/-- **The leading copies**: they are stripped, and no copy is left at the beginning. -/
theorem stripLeading_spec (hne : pat ≠ []) (s : List α) :
    (∃ k, s = (List.replicate k pat).flatten ++ stripLeading pat s) ∧ ¬ pat <+: stripLeading pat s := by
  induction s using stripLeading.induct pat with
  | case1 s hpre ih =>
    obtain ⟨⟨k, hk⟩, hstop⟩ := ih
    rw [ stripLeading_of_prefix hne hpre.2]
    refine ⟨⟨k + 1, ?_⟩, hstop⟩
    rw [List.replicate_succ, List.flatten_cons, List.append_assoc, ← hk]
    exact (List.prefix_append_drop hpre.2)
  | case2 s hpre =>
    have hnot : ¬ pat <+: s := fun h => hpre ⟨hne, h⟩
    rw [stripLeading_of_not hnot]
    exact ⟨⟨0, rfl⟩, hnot⟩

theorem stripTrailing_of_not (h : ¬ pat <:+ s) : stripTrailing pat s = s := by
  have h' : ¬ pat.reverse <+: s.reverse := fun hp => h (List.reverse_prefix.mp hp)
  rw [stripTrailing, stripLeading_of_not h', List.reverse_reverse]

theorem stripTrailing_of_suffix (hne : pat ≠ []) (h : pat <:+ s) :
    stripTrailing pat s = stripTrailing pat (s.take (s.length - pat.length)) := by
  rw [stripTrailing, stripTrailing,
    stripLeading_of_prefix (by simpa using hne) (List.reverse_prefix.mpr h),
    List.length_reverse, List.drop_reverse]

omit [DecidableEq α] in
theorem flatten_replicate_reverse (k : Nat) (pat : List α) :
    (List.replicate k pat).flatten.reverse = (List.replicate k pat.reverse).flatten := by
  rw [List.reverse_flatten, List.map_replicate, List.reverse_replicate]

/-- **The trailing copies**: they are stripped, and no copy is left at the end. -/
theorem stripTrailing_spec (hne : pat ≠ []) (s : List α) :
    (∃ k, s = stripTrailing pat s ++ (List.replicate k pat).flatten) ∧ ¬ pat <:+ stripTrailing pat s := by
  obtain ⟨⟨k, hk⟩, hstop⟩ := stripLeading_spec (mt List.reverse_eq_nil_iff.mp hne) s.reverse
  unfold stripTrailing
  refine ⟨⟨k, ?_⟩, fun h => hstop ?_⟩
  · have hrev := congrArg List.reverse hk
    rw [List.reverse_reverse, List.reverse_append, flatten_replicate_reverse,
      List.reverse_reverse] at hrev
    exact hrev
  · have hrev := List.reverse_prefix.mpr h
    rwa [List.reverse_reverse] at hrev

end Substring
