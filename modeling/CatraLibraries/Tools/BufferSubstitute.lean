/-
# substitute

`substitute` counts the occurrences, makes room once, and then rewrites the storage
occurrence by occurrence, saving the tail each time.  The lengths handed to
`strncpy` are narrowed to `unsigned int`, so the copies are complete only below
4 GiB; under that condition the storage ends up with every occurrence replaced.
-/
import Mathlib.Tactic.Linarith
import CatraLibraries.Tools.BufferRefinement

namespace CatraLibraries

open Memory CString Substring

namespace Buffer

variable {b : Buffer} {s : List UInt8} {pat : List UInt8}

/-! ### The two loops -/

theorem countSubstitutions_spec {m : Cells UInt8} (hm : Holds m s) (hpat : 0 ∉ pat)
    (hne : pat ≠ []) :
    ∀ fuel pos, pos ≤ s.length → s.length - pos < fuel →
      countSubstitutions m pat fuel pos = .ok (countSub pat (s.drop pos)) := by
  have hpos : 0 < pat.length := List.length_pos_iff.mpr hne
  intro fuel
  induction fuel with
  | zero => intro pos _ hf; omega
  | succ fuel ih =>
    intro pos hp hf
    rw [countSubstitutions, (hm.drop hp).strstr_eq hpat, ok_bind, countSub_eq hne]
    cases hfind : findSub pat (s.drop pos) with
    | none => rfl
    | some i =>
      have hle := findSub_le hfind
      rw [List.length_drop] at hle
      have hrec := ih (pos + i + pat.length) (by omega) (by omega)
      simp only [List.drop_drop, ← Nat.add_assoc, hrec, ok_bind]
      rfl

theorem unsignedInt_of_lt {l : Nat} (h : l < 2 ^ 32) : unsignedInt l = l :=
  Nat.mod_eq_of_lt h

/-- Copying a whole string with `strncpy` and no padding. -/
theorem strncpy_string (dst : Cells UInt8) (i : Nat) {src : Cells UInt8} {t : List UInt8}
    (hsrc : Holds src t) (hlt : t.length < 2 ^ 32) :
    strncpy dst i src (unsignedInt t.length) = writeAt dst i (t.map some) := by
  rw [strncpy, unsignedInt_of_lt hlt, hsrc.strncpyCells_eq le_rfl, ok_bind, List.take_length]

/-- An occurrence overwritten by a string of its own length. -/
theorem substituteAt_same {m : Cells UInt8} {x z : List UInt8} {new : CStr}
    (hm : Holds m (x ++ pat ++ z)) (hlen : new.bytes.length = pat.length)
    (hlt : new.bytes.length < 2 ^ 32) :
    ∃ m', substituteAt m pat new.cells new.bytes.length true x.length = .ok m' ∧
      m'.length = m.length ∧ Holds m' (x ++ new.bytes ++ z) := by
  obtain ⟨hnul, rest, rfl⟩ := hm
  have hw := writeAt_append (x.map some) (z.map some ++ some 0 :: rest)
    (o := pat.map some) (n := new.bytes.map some) (by simpa using hlen.symm)
  have hsplit : (x ++ pat ++ z).map some ++ some 0 :: rest
      = x.map some ++ pat.map some ++ (z.map some ++ some 0 :: rest) := by simp
  refine ⟨x.map some ++ new.bytes.map some ++ (z.map some ++ some 0 :: rest), ?_, ?_, ?_,
    rest, ?_⟩
  · rw [substituteAt, if_pos rfl, strncpy_string _ _ new.holds hlt, hsplit]
    simpa using hw
  · simp [hlen]
  · have := new.nulFree
    simp only [List.mem_append, not_or] at hnul ⊢
    exact ⟨⟨hnul.1.1, this⟩, hnul.2⟩
  · simp

/-- An occurrence replaced by a string of another length, and the tail moved. -/
theorem substituteAt_moved {m : Cells UInt8} {x z : List UInt8} {new : CStr}
    (hm : Holds m (x ++ pat ++ z)) (hroom : x.length + new.bytes.length + z.length < m.length)
    (hlt : new.bytes.length < 2 ^ 32) (hz : z.length < 2 ^ 32) :
    ∃ m', substituteAt m pat new.cells new.bytes.length false x.length = .ok m' ∧
      m'.length = m.length ∧ Holds m' (x ++ new.bytes ++ z) := by
  have htail : Holds (m.drop (x.length + pat.length)) z := by
    have hdrop : (x ++ pat ++ z).drop (x.length + pat.length) = z := by
      rw [← List.length_append, List.drop_left]
    have := hm.drop (i := x.length + pat.length) (by simp)
    rwa [hdrop] at this
  have hcopy : Holds (z.map some ++ [some 0]) z := ⟨htail.nulFree, [], rfl⟩
  obtain ⟨hnul, rest, hmem⟩ := hm
  -- the storage behind `x`: cells for the new string, for the tail, and for the NUL
  have hx : m = x.map some ++ (pat.map some ++ z.map some ++ some 0 :: rest) := by
    rw [hmem]; simp
  obtain ⟨f, w, c, d, hy, hf, hw⟩ := exists_split
    (pat.map some ++ z.map some ++ some 0 :: rest) (n := new.bytes.length) (k := z.length)
    (by rw [hx, List.length_append, List.length_map] at hroom; omega)
  rw [hy] at hx
  have h₁ := writeAt_append (x.map some ++ f) (c :: d) (o := w) (n := z.map some)
    (by simpa using hw)
  have h₂ := store_append (x.map some ++ f ++ z.map some) d c 0
  have h₃ := writeAt_append (x.map some) (z.map some ++ some 0 :: d) (o := f)
    (n := new.bytes.map some) (by simpa using hf)
  simp only [List.length_append, List.length_map, hf, List.append_assoc] at h₁ h₂ h₃
  refine ⟨x.map some ++ (new.bytes.map some ++ (z.map some ++ some 0 :: d)), ?_, ?_, ?_, d, ?_⟩
  · rw [substituteAt, if_neg (by simp), htail.cstr_eq, ok_bind]
    simp only [strncpy_string _ _ hcopy hz, strncpy_string _ _ new.holds hlt, hx,
      List.append_assoc, h₁, ok_bind, ← Nat.add_assoc] at h₂ ⊢
    rw [h₂, ok_bind, h₃]
  · rw [hx]; simp [hf, hw]
  · have := new.nulFree
    simp only [List.mem_append, not_or] at hnul ⊢
    exact ⟨⟨hnul.1.1, this⟩, hnul.2⟩
  · simp

/-- What a substitution needs of the lengths: they survive `unsigned int`. -/
def CopiesFit (pat new s : List UInt8) : Prop :=
  ∀ i, findSub pat s = some i →
    new.length < 2 ^ 32 ∧ (new.length ≠ pat.length → s.length - (i + pat.length) < 2 ^ 32)

theorem CopiesFit.rest {new : List UInt8} {i : Nat} (h : CopiesFit pat new s)
    (hfind : findSub pat s = some i) : CopiesFit pat new (s.drop (i + pat.length)) := by
  intro j _
  obtain ⟨hnew, htail⟩ := h i hfind
  refine ⟨hnew, fun hlen => ?_⟩
  have := htail hlen
  rw [List.length_drop]
  omega

/-- One occurrence, whichever way the storage is rewritten. -/
theorem substituteAt_spec (new : CStr) {m : Cells UInt8} {x z : List UInt8} {same : Bool}
    (hm : Holds m (x ++ pat ++ z)) (hroom : x.length + new.bytes.length + z.length < m.length)
    (hlt : new.bytes.length < 2 ^ 32)
    (hz : new.bytes.length ≠ pat.length → z.length < 2 ^ 32)
    (hsame : same = decide (new.bytes.length = pat.length)) :
    ∃ m', substituteAt m pat new.cells new.bytes.length same x.length = .ok m' ∧
      m'.length = m.length ∧ Holds m' (x ++ new.bytes ++ z) := by
  by_cases hlen : new.bytes.length = pat.length
  · rw [hsame, decide_eq_true hlen]
    exact substituteAt_same hm hlen hlt
  · rw [hsame, decide_eq_false hlen]
    exact substituteAt_moved hm hroom hlt (hz hlen)

/-- Replacing never takes more than the longer of the two ends of the process. -/
theorem length_le_replaceAll (hne : pat ≠ []) (new z : List UInt8)
    (hlen : pat.length ≤ new.length) : z.length ≤ (replaceAll pat new z).length := by
  have h := length_replaceAll hne new z
  have := Nat.mul_le_mul_left (countSub pat z) hlen
  omega

theorem substituteLoop_spec {new : CStr} {same : Bool} (hpat : 0 ∉ pat) (hne : pat ≠ [])
    (hsame : same = decide (new.bytes.length = pat.length)) :
    ∀ fuel (a u : List UInt8) (m : Cells UInt8), Holds m (a ++ u) → u.length < fuel →
      a.length + (replaceAll pat new.bytes u).length < m.length →
      CopiesFit pat new.bytes u →
      ∃ m', substituteLoop pat new.cells new.bytes.length same fuel m a.length = .ok m' ∧
        m'.length = m.length ∧ Holds m' (a ++ replaceAll pat new.bytes u) := by
  have hpos : 0 < pat.length := List.length_pos_iff.mpr hne
  intro fuel
  induction fuel with
  | zero => intro a u m _ hf; omega
  | succ fuel ih =>
    intro a u m hm hf hroom hfits
    have hdrop : Holds (m.drop a.length) u := by
      have := hm.drop (i := a.length) (by simp)
      rwa [List.drop_left] at this
    rw [substituteLoop, hdrop.strstr_eq hpat, ok_bind]
    rw [replaceAll_eq hne] at hroom ⊢
    cases hfind : findSub pat u with
    | none => exact ⟨m, rfl, rfl, hm⟩
    | some i =>
      -- `u` is `x`, the occurrence and `z`; the next turn starts behind the new string
      simp only [hfind] at hroom ⊢
      obtain ⟨hlt, htail⟩ := hfits i hfind
      have hle := findSub_le hfind
      have hsplit := findSub_eq_some hfind
      have hrest := hfits.rest hfind
      have hlong := length_le_replaceAll hne new.bytes (u.drop (i + pat.length))
      have hx : (u.take i).length = i := by rw [List.length_take]; omega
      have hzlen : (u.drop (i + pat.length)).length = u.length - (i + pat.length) :=
        List.length_drop ..
      have hmlen := hm.length_lt
      generalize u.take i = x at *
      generalize u.drop (i + pat.length) = z at *
      subst hsplit
      simp only [List.length_append] at hroom hmlen hf hzlen htail
      obtain ⟨m₁, hm₁, hlen₁, hholds₁⟩ := substituteAt_spec new (m := m) (x := a ++ x) (z := z)
        (by simpa using hm) (by rw [List.length_append]; omega) hlt
        (fun hne' => by have := htail hne'; omega) hsame
      obtain ⟨m₂, hm₂, hlen₂, hholds₂⟩ := ih (a ++ x ++ new.bytes) z m₁ (by simpa using hholds₁)
        (by omega) (by simp only [List.length_append]; omega) hrest
      rw [List.length_append, hx] at hm₁
      simp only [List.length_append, hx] at hm₂
      refine ⟨m₂, by rw [hm₁, ok_bind, hm₂], hlen₂.trans hlen₁, by simpa using hholds₂⟩

/-! ### substitute -/

/-- The difference of the lengths is a `long` where it does not add too much: what it takes away is no
more than the string. -/
theorem difference_range (h : Contents b s) (hs : 0 ∉ s) {new : List UInt8} (hne : pat ≠ [])
    (hlong : countSub pat s * (new.length - pat.length) < 2 ^ 63) :
    -2 ^ 63 ≤ ((new.length : Int) - pat.length) * countSub pat s ∧
      ((new.length : Int) - pat.length) * countSub pat s < 2 ^ 63 := by
  have hlength := length_replaceAll hne new s
  have hsize := h.bounded
  have hlt := (h.holds hs).length_lt
  rw [h.length_eq] at hlt
  rw [Int.mul_comm]
  rcases Nat.le_total pat.length new.length with hle | hle
  · have hcast : (countSub pat s : Int) * ((new.length : Int) - pat.length)
        = ((countSub pat s * (new.length - pat.length) : Nat) : Int) := by
      rw [Nat.cast_mul, Nat.cast_sub hle]
    rw [hcast]
    omega
  · have hcast : (countSub pat s : Int) * ((new.length : Int) - pat.length)
        = -((countSub pat s * (pat.length - new.length) : Nat) : Int) := by
      rw [Nat.cast_mul, Nat.cast_sub hle, ← Int.mul_neg, Int.neg_sub]
    have htaken : countSub pat s * (pat.length - new.length) ≤ s.length := by
      rw [Nat.mul_sub]
      omega
    rw [hcast]
    unfold maxAllocation at hsize
    omega

theorem substitute_simulates (h : Contents b s) (hs : 0 ∉ s) (pat new : CStr)
    (hne : pat.bytes ≠ []) (hfits : CopiesFit pat.bytes new.bytes s)
    (hlong : countSub pat.bytes s * (new.bytes.length - pat.bytes.length) < 2 ^ 63) :
    EndsWith (b.substitute (some pat.cells) (some new.cells)) .errNoError
      (some (replaceAll pat.bytes new.bytes s)) := by
  have hcount := countSubstitutions_spec (h.holds hs) pat.nulFree hne (b.pBuffer.length + 1) 0
    (Nat.zero_le _) (by have := (h.holds hs).length_lt; omega)
  rw [List.drop_zero] at hcount
  have hlenr := length_replaceAll hne new.bytes s
  rw [substitute, if_neg (by simp [h.status]), if_neg h.blocks, new.holds.strlen_eq, ok_bind,
    pat.holds.cstr_eq, ok_bind, hcount, ok_bind]
  by_cases hzero : countSub pat.bytes s = 0
  · rw [if_pos hzero]
    have hnone : replaceAll pat.bytes new.bytes s = s := by
      rw [countSub_eq hne] at hzero
      rw [replaceAll_eq hne]
      cases hfind : findSub pat.bytes s with
      | none => rfl
      | some i => simp [hfind] at hzero
    rw [hnone]
    exact EndsWith.here (a := some s) ⟨h, hs⟩ _
  · rw [if_neg hzero]
    generalize hd : ((new.bytes.length : Int) - pat.bytes.length) * countSub pat.bytes s = d
    have hdlen : ((replaceAll pat.bytes new.bytes s).length : Int) = s.length + d := by
      have : ((replaceAll pat.bytes new.bytes s).length : Int)
          + countSub pat.bytes s * pat.bytes.length
          = s.length + countSub pat.bytes s * new.bytes.length := by exact_mod_cast hlenr
      rw [← hd, Int.sub_mul]
      linarith [Int.mul_comm (new.bytes.length : Int) (countSub pat.bytes s),
        Int.mul_comm (pat.bytes.length : Int) (countSub pat.bytes s)]
    have hrange := difference_range h hs hne hlong
    rw [hd] at hrange
    rw [long_ok hrange.1 hrange.2, ok_bind]
    have hsame : decide (d = 0) = decide (new.bytes.length = pat.bytes.length) := by
      rw [← hd, decide_eq_decide, Int.mul_eq_zero]
      omega
    -- whether or not room was made, the result fits the storage
    have hroom : ∀ b', Contents b' s → (replaceAll pat.bytes new.bytes s).length < b'.capacity →
        EndsWith (do
          let mem ← substituteLoop pat.bytes new.cells new.bytes.length (decide (d = 0))
            (b'.pBuffer.length + 1) b'.pBuffer 0
          return (.errNoError, { b' with
            pBuffer := mem
            ullCharsNumber := (b'.ullCharsNumber + d).toNat })) .errNoError
          (some (replaceAll pat.bytes new.bytes s)) := by
      intro b' h' hcap
      obtain ⟨m', hm', hlen', hholds'⟩ := substituteLoop_spec pat.nulFree hne hsame
        (b'.pBuffer.length + 1) [] s b'.pBuffer (by simpa using h'.holds hs)
        (by have := (h'.holds hs).length_lt; omega)
        (by rw [h'.length_eq]; simpa using hcap) hfits
      have hsim := h'.update (by simpa using hholds') hlen'
      have hchars : ((b'.ullCharsNumber : Int) + d).toNat
          = (replaceAll pat.bytes new.bytes s).length := by
        rw [h'.chars, ← hdlen, Int.toNat_natCast]
      rw [List.length_nil] at hm'
      refine Or.inr ⟨_, by rw [hm', ok_bind]; rfl, ?_⟩
      rw [hchars]
      exact hsim
    by_cases hgrow : d > 0
    · simp only [if_pos hgrow]
      rcases alloc_contents h hs d.toNat with hbad | ⟨b', hb', hc', hcap⟩
      · exact Or.inl (by rw [hbad, error_bind])
      · rw [hb', ok_bind]
        exact hroom b' hc' (by omega)
    · simp only [if_neg hgrow, ok_bind]
      have hcap := (h.holds hs).length_lt
      rw [h.length_eq] at hcap
      exact hroom b h (by omega)

end Buffer

end CatraLibraries
