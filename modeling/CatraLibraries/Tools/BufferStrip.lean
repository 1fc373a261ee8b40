/-
# strip

`Buffer::strip` by a string and by a count, on any bytes: both work with `_ullCharsNumber` and never
look for a NUL.  The string form strips all the copies there are and stays inside the storage.  The
count form does what it should, but for the doubled count, which is formed modulo 2⁶⁴.
-/
import CatraLibraries.Tools.BufferRefinement

namespace CatraLibraries

open Memory CString Substring

namespace Buffer

variable {b : Buffer} {s t : List UInt8} {pat : List UInt8}

/-! ### The storage, moved and cut -/

/-- The storage moved down over its first `i` bytes. -/
theorem Contents.shift (h : Contents b s) {i : Nat} (hi : i ≤ s.length) :
    ∃ m₁ m₂, copyDown b.pBuffer 0 i (s.length - i) = .ok m₁ ∧
      store m₁ (s.length - i) 0 = .ok m₂ ∧
      Contents { b with pBuffer := m₂, ullCharsNumber := s.length - i } (s.drop i) := by
  obtain ⟨m₁, m₂, hcopy, hst, hlen, hm⟩ := Terminated.shift h.split hi
  have hc := h.rewrite hm hlen
  rw [List.length_drop] at hc
  exact ⟨m₁, m₂, hcopy, hst, hc⟩

/-- The storage cut at `i`. -/
theorem Contents.cut (h : Contents b s) {i : Nat} (hi : i ≤ s.length) :
    ∃ m, store b.pBuffer i 0 = .ok m ∧
      Contents { b with pBuffer := m, ullCharsNumber := i } (s.take i) := by
  obtain ⟨m, hst, hlen, hm⟩ := Terminated.store_nul h.split hi
  have hc := h.rewrite hm hlen
  rw [List.length_take, Nat.min_eq_left hi] at hc
  exact ⟨m, hst, hc⟩

/-! ### A string -/

/-- The search from the front ends where no copy of the pattern follows. -/
theorem stripLeadingLoop_spec {m : Cells UInt8} (hm : Terminated m s)
    (hpat : 0 ∉ pat) (hne : pat ≠ []) :
    ∀ fuel i, i ≤ s.length → s.length - i < fuel →
      ∃ j, stripLeadingLoop m pat s.length fuel i = .ok j ∧ i ≤ j ∧ j ≤ s.length ∧
        s.drop j = stripLeading pat (s.drop i) := by
  have hpos : 0 < pat.length := List.length_pos_iff.mpr hne
  intro fuel
  induction fuel with
  | zero => intro i _ hf; omega
  | succ fuel ih =>
    intro i hi hf
    rw [stripLeadingLoop]
    have hstop : ¬ pat <+: s.drop i →
        s.drop i = stripLeading pat (s.drop i) := fun h => (stripLeading_of_not h).symm
    by_cases hlt : i < s.length
    · rw [if_pos hlt]
      by_cases hshort : s.length - i < pat.length
      · rw [if_pos hshort]
        refine ⟨i, rfl, le_rfl, hi, hstop fun hpre => ?_⟩
        have := hpre.length_le
        rw [List.length_drop] at this
        omega
      · rw [if_neg hshort, (hm.drop hi).strncmp_eq hpat, ok_bind]
        by_cases hpre : pat <+: s.drop i
        · rw [decide_eq_true hpre, if_pos rfl]
          obtain ⟨j, hj, hij, hjl, hdrop⟩ := ih (i + pat.length) (by omega) (by omega)
          refine ⟨j, hj, by omega, hjl, ?_⟩
          rw [hdrop, stripLeading_of_prefix hne hpre, List.drop_drop]
        · rw [decide_eq_false hpre, if_neg (by simp)]
          exact ⟨i, rfl, le_rfl, hi, hstop hpre⟩
    · rw [if_neg hlt]
      refine ⟨i, rfl, le_rfl, hi, hstop fun hpre => ?_⟩
      have := hpre.length_le
      rw [List.length_drop] at this
      omega

theorem stripLeadingString_spec (h : Contents b s) (hpat : 0 ∉ pat) (hne : pat ≠ []) :
    ∃ b', b.stripLeadingString pat = .ok b' ∧
      Contents b' (stripLeading pat s) := by
  obtain ⟨j, hj, -, hjl, hdrop⟩ := stripLeadingLoop_spec h.split hpat hne
    (s.length + 1) 0 (Nat.zero_le _) (by omega)
  rw [List.drop_zero] at hdrop
  rw [stripLeadingString, h.length_eq_chars, hj, ok_bind]
  by_cases hz : j = 0
  · rw [if_neg (by simpa using hz)]
    refine ⟨b, rfl, ?_⟩
    rw [← hdrop, hz, List.drop_zero]
    exact h
  · obtain ⟨m₁, m₂, hcopy, hst, hsim⟩ := h.shift hjl
    rw [if_pos hz, hcopy, ok_bind, hst, ok_bind]
    exact ⟨_, rfl, hdrop ▸ hsim⟩

/-- A pattern ends the first `e` bytes exactly when it starts `pat.length` before `e`. -/
theorem prefix_drop_iff_suffix_take {pat : List UInt8} {e : Nat} (he : e ≤ s.length)
    (hp : pat.length ≤ e) : pat <+: s.drop (e - pat.length) ↔ pat <:+ s.take e := by
  have hdrop : (s.take e).drop (e - pat.length) = (s.drop (e - pat.length)).take pat.length := by
    rw [List.drop_take]
    congr 1
    omega
  constructor
  · intro hpre
    have : (s.take e).drop (e - pat.length) = pat := by
      rw [hdrop]; exact (List.prefix_iff_eq_take.mp hpre).symm
    exact this ▸ List.drop_suffix _ _
  · intro hsuf
    have hlen : (s.take e).length = e := by rw [List.length_take]; omega
    have := List.suffix_iff_eq_drop.mp hsuf
    rw [hlen, hdrop] at this
    exact List.prefix_iff_eq_take.mpr this

/-- The search from the back ends where no copy of the pattern precedes. -/
theorem stripTrailingLoop_spec {m : Cells UInt8} (hm : Terminated m s)
    (hpat : 0 ∉ pat) (hne : pat ≠ []) :
    ∀ fuel e, e ≤ s.length → e < fuel →
      ∃ k : Nat, stripTrailingLoop m pat fuel ((e : Int) - pat.length)
          = .ok ((k : Int) - pat.length) ∧
        k ≤ e ∧ s.take k = stripTrailing pat (s.take e) := by
  have hpos : 0 < pat.length := List.length_pos_iff.mpr hne
  intro fuel
  induction fuel with
  | zero => intro e _ hf; omega
  | succ fuel ih =>
    intro e he hf
    have hstop : ¬ pat <:+ s.take e →
        s.take e = stripTrailing pat (s.take e) := fun h => (stripTrailing_of_not h).symm
    have hlen : (s.take e).length = e := by rw [List.length_take]; omega
    rw [stripTrailingLoop]
    by_cases hge : pat.length ≤ e
    · have hidx : ((e : Int) - pat.length).toNat = e - pat.length := by omega
      rw [if_pos (by omega), hidx, (hm.drop (by omega)).strncmp_eq hpat, ok_bind]
      by_cases hpre : pat <+: s.drop (e - pat.length)
      · have hsuf := (prefix_drop_iff_suffix_take he hge).mp hpre
        obtain ⟨k, hk, hke, htake⟩ := ih (e - pat.length) (by omega) (by omega)
        rw [show ((e - pat.length : Nat) : Int) = e - pat.length by omega] at hk
        rw [decide_eq_true hpre, if_pos rfl]
        refine ⟨k, hk, by omega, ?_⟩
        rw [htake, stripTrailing_of_suffix hne hsuf, hlen, List.take_take,
          Nat.min_eq_left (Nat.sub_le _ _)]
      · rw [decide_eq_false hpre, if_neg (by simp)]
        exact ⟨e, rfl, le_rfl,
          hstop fun hsuf => hpre ((prefix_drop_iff_suffix_take he hge).mpr hsuf)⟩
    · rw [if_neg (by omega)]
      refine ⟨e, rfl, le_rfl, hstop fun hsuf => ?_⟩
      have := hsuf.length_le
      omega

theorem stripTrailingString_spec (h : Contents b s) (hpat : 0 ∉ pat) (hne : pat ≠ []) :
    ∃ b', b.stripTrailingString pat = .ok b' ∧
      Contents b' (stripTrailing pat s) := by
  obtain ⟨k, hk, hks, htake⟩ := stripTrailingLoop_spec h.split hpat hne
    (s.length + 1) s.length le_rfl (by omega)
  rw [List.take_length] at htake
  rw [stripTrailingString, h.length_eq_chars, hk, ok_bind]
  by_cases hsame : k = s.length
  · rw [if_neg (by simp [hsame])]
    refine ⟨b, rfl, ?_⟩
    rw [← htake, hsame, List.take_length]
    exact h
  · obtain ⟨m, hst, hsim⟩ := h.cut hks
    have hidx : ((k : Int) - pat.length + pat.length).toNat = k := by omega
    rw [if_pos (by omega), hidx]
    simp only [hst, ok_bind]
    exact ⟨_, rfl, htake ▸ hsim⟩

/-- `r` is `s` without the copies it begins with. -/
def LeadingStripped (pat s r : List UInt8) : Prop :=
  (∃ k, s = (List.replicate k pat).flatten ++ r) ∧ ¬ pat <+: r

/-- `r` is `s` without the copies it ends with. -/
def TrailingStripped (pat s r : List UInt8) : Prop :=
  (∃ k, s = r ++ (List.replicate k pat).flatten) ∧ ¬ pat <:+ r

/-- What `strip` by a string leaves of `s`: `r`, when all the copies there are have gone. -/
def Stripped (pat s r : List UInt8) : StripType → Prop
  | .leading => LeadingStripped pat s r
  | .trailing => TrailingStripped pat s r
  | .both => ∃ t, LeadingStripped pat s t ∧ TrailingStripped pat t r

theorem stripped_stripSpec (hne : pat ≠ []) (s : List UInt8) (ty : StripType) :
    Stripped pat s (BufferOp.stripSpec ty pat s) ty := by
  cases ty with
  | leading => exact stripLeading_spec hne s
  | trailing => exact stripTrailing_spec hne s
  | both => exact ⟨stripLeading pat s, stripLeading_spec hne s, stripTrailing_spec hne _⟩

theorem stripString_contents (h : Contents b s) (ty : StripType) (pat : CStr) (hne : pat.bytes ≠ []) :
    ∃ b', b.stripString ty pat.cells = .ok (.errNoError, b') ∧
      Contents b' (BufferOp.stripSpec ty pat.bytes s) := by
  obtain ⟨b₁, hb₁, hc₁⟩ := stripLeadingString_spec h pat.nulFree hne
  rw [stripString, if_neg (by simp [h.status]), pat.holds.cstr_eq, ok_bind]
  cases ty with
  | leading =>
    refine ⟨b₁, ?_, hc₁⟩
    simp only [ne_eq, reduceCtorEq, not_false_eq_true, if_true, hb₁, ok_bind,
      not_true_eq_false, if_false]
    rfl
  | trailing =>
    obtain ⟨b₂, hb₂, hc₂⟩ := stripTrailingString_spec h pat.nulFree hne
    refine ⟨b₂, ?_, hc₂⟩
    simp only [ne_eq, reduceCtorEq, not_false_eq_true, if_true, hb₂, ok_bind,
      not_true_eq_false, if_false]
    rfl
  | both =>
    obtain ⟨b₂, hb₂, hc₂⟩ := stripTrailingString_spec hc₁ pat.nulFree hne
    refine ⟨b₂, ?_, hc₂⟩
    simp only [ne_eq, reduceCtorEq, not_false_eq_true, if_true, hb₁, hb₂, ok_bind]
    rfl

/-- **`strip` by a string strips all its copies**, and stays inside the storage. -/
theorem stripString_strips (h : Contents b s) (ty : StripType) (pat : CStr) (hne : pat.bytes ≠ []) :
    ∃ b' r, b.stripString ty pat.cells = .ok (.errNoError, b') ∧ Contents b' r ∧
      Stripped pat.bytes s r ty := by
  obtain ⟨b', hb', hc'⟩ := stripString_contents h ty pat hne
  exact ⟨b', _, hb', hc', stripped_stripSpec hne s ty⟩

/-- The buffer with the bytes `ABA` in four cells. -/
def holdingABA : Buffer := ⟨.initialized, true, 2, 2, 3, [some 65, some 66, some 65, some 0]⟩

theorem holdingABA_contents : Contents holdingABA [65, 66, 65] :=
  ⟨rfl, rfl, by decide, by decide, rfl, by decide, rfl, [], rfl⟩

/-- The pattern is longer than the buffer. -/
theorem stripString_strips_long :
    ∃ b' r, holdingABA.stripString .both (CStr.cells ⟨[65, 66, 65, 66], by decide⟩) =
        .ok (.errNoError, b') ∧
      Contents b' r ∧ Stripped [65, 66, 65, 66] [65, 66, 65] r .both :=
  stripString_strips holdingABA_contents .both ⟨[65, 66, 65, 66], by decide⟩ (by decide)

theorem Stripped.subset {r : List UInt8} {ty : StripType} (h : Stripped pat s r ty) : r ⊆ s := by
  cases ty with
  | leading =>
    obtain ⟨⟨k, rfl⟩, -⟩ := h
    exact List.subset_append_right _ _
  | trailing =>
    obtain ⟨⟨k, rfl⟩, -⟩ := h
    exact List.subset_append_left _ _
  | both =>
    obtain ⟨t, ⟨⟨k, rfl⟩, -⟩, ⟨l, rfl⟩, -⟩ := h
    exact fun c hc => List.mem_append_right _ (List.mem_append_left _ hc)

theorem stripString_simulates (h : Contents b s) (hs : 0 ∉ s) (ty : StripType) (pat : CStr)
    (hne : pat.bytes ≠ []) :
    EndsWith (b.stripString ty pat.cells) .errNoError
      (some (BufferOp.stripSpec ty pat.bytes s)) := by
  obtain ⟨b', hb', hc'⟩ := stripString_contents h ty pat hne
  exact Or.inr ⟨b', hb', hc', fun h0 => hs ((stripped_stripSpec hne s ty).subset h0)⟩

/-! ### A count -/

theorem unsignedLongSub_of_le {l n : Nat} (hn : n ≤ l) (hl : l < 2 ^ 64) :
    unsignedLongSub l n = l - n := by
  unfold unsignedLongSub
  omega

theorem Contents.length_lt (h : Contents b s) : s.length < 2 ^ 63 - 1 := by
  have hlt := Terminated.length_lt h.split
  rw [h.length_eq] at hlt
  exact Nat.lt_of_lt_of_le hlt h.bounded

theorem stripLeadingCount_contents (h : Contents b s) {n : Nat} (hn : n ≤ s.length) :
    ∃ b', b.stripLeadingCount n = .ok b' ∧ Contents b' (s.drop n) := by
  obtain ⟨m₁, m₂, hcopy, hst, hc⟩ := h.shift hn
  have hlt := h.length_lt
  refine ⟨_, ?_, hc⟩
  rw [stripLeadingCount, h.chars, unsignedLongSub_of_le hn (by omega), hcopy, ok_bind, hst]
  rfl

theorem stripTrailingCount_contents (h : Contents b s) {n : Nat} (hn : n ≤ s.length) :
    ∃ b', b.stripTrailingCount n = .ok b' ∧ Contents b' (s.take (s.length - n)) := by
  obtain ⟨m, hst, hc⟩ := h.cut (Nat.sub_le s.length n)
  have hlt := h.length_lt
  refine ⟨_, ?_, hc⟩
  rw [stripTrailingCount, h.chars, unsignedLongSub_of_le hn (by omega), hst]
  rfl

/-- The call behind the status. -/
theorem stripCount_eq (h : Contents b s) (ty : StripType) (n : Nat) : b.stripCount ty n =
    if (ty = .both ∧ n * 2 % 2 ^ 64 > s.length) ∨ (ty ≠ .both ∧ n > s.length) then
      .ok (.activationWrong, b)
    else
      (if ty ≠ .trailing then b.stripLeadingCount n else .ok b) >>= fun b =>
      (if ty ≠ .leading then b.stripTrailingCount n else .ok b) >>= fun b => .ok (.errNoError, b) := by
  unfold stripCount
  rw [if_neg (not_not.mpr h.status), h.chars]

/-- More bytes than there are are not stripped. -/
theorem stripCount_refused (h : Contents b s) {ty : StripType} {n : Nat}
    (hn : (ty = .both ∧ n * 2 % 2 ^ 64 > s.length) ∨ (ty ≠ .both ∧ n > s.length)) :
    b.stripCount ty n = .ok (.activationWrong, b) := by
  rw [stripCount_eq h, if_pos hn]

/-- As many bytes as there are are stripped. -/
theorem stripCount_contents (h : Contents b s) (ty : StripType) {n : Nat} (hn : n ≤ s.length)
    (hboth : ty = .both → 2 * n ≤ s.length) :
    ∃ b', b.stripCount ty n = .ok (.errNoError, b') ∧
      Contents b' (BufferOp.stripCountSpec ty n s) := by
  have hlt := h.length_lt
  have hguard : ¬((ty = .both ∧ n * 2 % 2 ^ 64 > s.length) ∨ (ty ≠ .both ∧ n > s.length)) := by
    rintro (⟨hty, hmany⟩ | ⟨-, hmany⟩)
    · have htwice := hboth hty
      rw [Nat.mod_eq_of_lt (by omega)] at hmany
      omega
    · omega
  rw [stripCount_eq h, if_neg hguard]
  cases ty with
  | leading =>
    obtain ⟨b₁, hb₁, hc₁⟩ := stripLeadingCount_contents h hn
    refine ⟨b₁, ?_, hc₁⟩
    rw [if_pos nofun, hb₁, ok_bind, if_neg (not_not.mpr rfl), ok_bind]
  | trailing =>
    obtain ⟨b₁, hb₁, hc₁⟩ := stripTrailingCount_contents h hn
    refine ⟨b₁, ?_, hc₁⟩
    rw [if_neg (not_not.mpr rfl), ok_bind, if_pos nofun, hb₁, ok_bind]
  | both =>
    have htwice := hboth rfl
    obtain ⟨b₁, hb₁, hc₁⟩ := stripLeadingCount_contents h hn
    have hn₁ : n ≤ (s.drop n).length := by
      rw [List.length_drop]
      omega
    obtain ⟨b₂, hb₂, hc₂⟩ := stripTrailingCount_contents hc₁ hn₁
    refine ⟨b₂, ?_, ?_⟩
    · rw [if_pos nofun, hb₁, ok_bind, if_pos nofun, hb₂, ok_bind]
    · have hlength : (s.drop n).length - n = s.length - 2 * n := by
        rw [List.length_drop]
        omega
      rw [hlength] at hc₂
      exact hc₂

theorem stripCount_simulates (h : Contents b s) (hs : 0 ∉ s) (ty : StripType) {n : Nat}
    (hn : n ≤ s.length) :
    EndsWith (b.stripCount ty n) ((BufferOp.stripCount ty n).specString s).1
      ((BufferOp.stripCount ty n).specString s).2 := by
  change EndsWith _ (if ty = .both ∧ s.length < 2 * n then (ToolsError.activationWrong, some s)
    else (ToolsError.errNoError, some (BufferOp.stripCountSpec ty n s))).1
    (if ty = .both ∧ s.length < 2 * n then (ToolsError.activationWrong, some s)
    else (ToolsError.errNoError, some (BufferOp.stripCountSpec ty n s))).2
  by_cases hmany : ty = .both ∧ s.length < 2 * n
  · have hmod : n * 2 % 2 ^ 64 = n * 2 := by
      refine Nat.mod_eq_of_lt ?_
      have := h.length_lt
      omega
    rw [if_pos hmany, stripCount_refused h (Or.inl ⟨hmany.1, by omega⟩)]
    exact EndsWith.here (a := some s) ⟨h, hs⟩ _
  · rw [if_neg hmany]
    obtain ⟨b', hb', hc'⟩ := stripCount_contents h ty hn fun hty =>
      Nat.not_lt.mp fun hlt => hmany ⟨hty, hlt⟩
    refine Or.inr ⟨b', hb', hc', fun h0 => hs ?_⟩
    cases ty with
    | leading => exact List.mem_of_mem_drop h0
    | trailing => exact List.mem_of_mem_take h0
    | both => exact List.mem_of_mem_drop (List.mem_of_mem_take h0)

/-- How many bytes a `strip` by a count asks for. -/
def requested (n : Nat) : StripType → Nat
  | .leading => n
  | .trailing => n
  | .both => 2 * n

/-- **What `strip` by a count should do**: an error where there are not so many bytes, and otherwise
`n` bytes less at each end that was asked for. -/
def StripsCount (b : Buffer) (s : List UInt8) (ty : StripType) (n : Nat) : Prop :=
  if s.length < requested n ty then b.stripCount ty n = .ok (.activationWrong, b)
  else ∃ b', b.stripCount ty n = .ok (.errNoError, b') ∧
    Contents b' (BufferOp.stripCountSpec ty n s)

/-- It does, unless the doubled count wraps around to a number of bytes that there are. -/
theorem stripsCount_iff (h : Contents b s) (ty : StripType) (n : UInt64) :
    StripsCount b s ty n.toNat ↔
      (ty = .both → 2 * n.toNat < 2 ^ 64 ∨ s.length < 2 * n.toNat - 2 ^ 64) := by
  have hlt := h.length_lt
  have hword : n.toNat < 2 ^ 64 := n.toNat_lt
  generalize n.toNat = n at hword
  unfold StripsCount
  by_cases hmany : s.length < requested n ty
  · rw [if_pos hmany]
    cases ty with
    | leading => exact iff_of_true (stripCount_refused h (Or.inr ⟨by decide, hmany⟩)) (fun hty => by cases hty)
    | trailing => exact iff_of_true (stripCount_refused h (Or.inr ⟨by decide, hmany⟩)) (fun hty => by cases hty)
    | both =>
      have hmany : s.length < 2 * n := hmany
      by_cases hwrap : n * 2 % 2 ^ 64 > s.length
      · exact iff_of_true (stripCount_refused h (Or.inl ⟨rfl, hwrap⟩)) fun _ => by omega
      · -- the first store is behind the storage
        have hindex : b.pBuffer.length ≤ unsignedLongSub s.length n := by
          have hmem : b.pBuffer.length ≤ 2 ^ 63 - 1 := h.length_eq ▸ h.bounded
          unfold unsignedLongSub
          omega
        refine iff_of_false ?_ fun hcond => by have := hcond rfl; omega
        rw [stripCount_eq h, if_neg fun hguard => hguard.elim (fun hg => hwrap hg.2) fun hg => hg.1 rfl,
          if_pos (by decide), stripLeadingCount, h.chars, show s.length - n = 0 by omega, copyDown, ok_bind,
          store, if_neg (Nat.not_lt.mpr hindex)]
        exact fun hres => by cases hres
  · rw [if_neg hmany]
    refine iff_of_true (stripCount_contents h ty ?_ ?_) fun hty => Or.inl ?_
    · cases ty <;> simp only [requested] at hmany <;> omega
    · rintro rfl
      exact Nat.not_lt.mp hmany
    · subst hty
      have hfew : ¬s.length < 2 * n := hmany
      omega

theorem stripsCount_iff_two : StripsCount holdingABA [65, 66, 65] .both 2 ↔
    (StripType.both = .both → 2 * 2 < 2 ^ 64 ∨ [65, 66, 65].length < 2 * 2 - 2 ^ 64) :=
  stripsCount_iff holdingABA_contents .both 2

/-- Twice 2⁶³ is nothing: the guard lets it pass. -/
theorem not_stripsCount_wrapped : Contents holdingABA [65, 66, 65] ∧
    ¬StripsCount holdingABA [65, 66, 65] .both (9223372036854775808 : UInt64).toNat := by
  refine ⟨holdingABA_contents, fun h => ?_⟩
  have hrun : holdingABA.stripCount .both (9223372036854775808 : UInt64).toNat = .error .outOfBounds := by
    decide +kernel
  unfold StripsCount at h
  rw [if_pos (by decide +kernel), hrun] at h
  cases h

end Buffer

end CatraLibraries
