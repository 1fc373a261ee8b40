/-
# Setting a buffer to counted bytes

`setBuffer (p, n)` takes the length of what it is given, but copies with `strncpy`: from the
first zero byte on, the storage gets zeros.  The bytes before it are what any later reader of
the string finds, while `ullCharsNumber` is `n` all the same.

Such a buffer is still in order for the calls that follow: a substitution that keeps the
length works on the visible part, and the next `setBuffer` starts afresh.
-/
import CatraLibraries.Tools.BufferSubstitute

namespace CatraLibraries

open Memory CString Substring

namespace Buffer

variable {b : Buffer}

/-- What `strncpy` makes of `n` bytes: zeros from the first zero on. -/
def padded (bytes : List UInt8) : List UInt8 :=
  visible bytes ++ List.replicate (bytes.length - (visible bytes).length) 0

theorem padded_cons (c : UInt8) (bytes : List UInt8) :
    padded (c :: bytes) =
      if c = 0 then List.replicate (bytes.length + 1) 0 else c :: padded bytes := by
  unfold padded
  rw [visible_cons]
  by_cases hc : c = 0
  · simp [hc]
  · simp [hc]

theorem length_padded (bytes : List UInt8) : (padded bytes).length = bytes.length := by
  induction bytes with
  | nil => rfl
  | cons c bytes ih =>
    rw [padded_cons]
    split_ifs
    · simp
    · simp [ih]

theorem visible_padded (bytes : List UInt8) : visible (padded bytes) = visible bytes := by
  induction bytes with
  | nil => rfl
  | cons c bytes ih =>
    rw [padded_cons]
    by_cases hc : c = 0
    · rw [if_pos hc, hc, List.replicate_succ, visible_cons, visible_cons]
      rfl
    · rw [if_neg hc, visible_cons, if_neg hc, visible_cons, if_neg hc, ih]

theorem strncpyCells_bytes (bytes : List UInt8) :
    strncpyCells (bytes.map some) bytes.length = .ok ((padded bytes).map some) := by
  induction bytes with
  | nil => rfl
  | cons c bytes ih =>
    rw [List.map_cons, List.length_cons, strncpyCells, padded_cons]
    by_cases hc : c = 0
    · rw [if_pos hc, if_pos hc, List.map_replicate]
    · rw [if_neg hc, if_neg hc, ih, ok_bind]
      rfl

/-- `setBuffer` with a length, by what `strncpy` finds in the source. -/
theorem setBuffer_copied (h : Ready b) {src : Cells UInt8} {t : List UInt8}
    (hsrc : strncpyCells src t.length = .ok (t.map some)) :
    b.setBuffer (some src) t.length = .error .badAlloc ∨
      ∃ b', b.setBuffer (some src) t.length = .ok (.errNoError, b') ∧ Contents b' t := by
  obtain ⟨m, hcpy, hst⟩ := h.emptied
  have hblocks : b.lBufferBlockNumber ≠ 0 := hst.blocks
  have hnonneg : ¬ ((t.length : Int) < 0 ∧ (t.length : Int) ≠ -1) := by omega
  have hne : ¬ (t.length : Int) = -1 := by omega
  have heq : b.setBuffer (some src) t.length = (do
      let b ← ({ b with pBuffer := m } : Buffer).allocMemoryBlockForBufferIfNecessary t.length
      let mem ← writeAt b.pBuffer 0 (t.map some)
      let mem ← store mem t.length 0
      return (.errNoError, { b with pBuffer := mem, ullCharsNumber := t.length })) := by
    rw [setBuffer, if_neg hnonneg, if_neg (by simp [h.status]), ok_bind]
    simp only [ne_eq, not_true_eq_false, if_false, hblocks, not_false_eq_true, if_true, hcpy,
      ok_bind, hne, Int.toNat_natCast, strncpy, hsrc]
  rw [heq]
  rcases alloc_emptied (b := { b with pBuffer := m }) (Or.inr ⟨h.allocated, hst⟩)
    hst.size_pos t.length with
    hbad | ⟨b', hb', hst', halloc, hroom, hstatus⟩
  · exact Or.inl (by rw [hbad, error_bind])
  · obtain ⟨a, x, c, d, hcut, ha, hx⟩ := exists_split b'.pBuffer (n := 0) (k := t.length)
      (by rw [hst'.length_eq]; omega)
    obtain rfl := List.length_eq_zero_iff.mp ha
    rw [List.nil_append] at hcut
    have hlen : (t.map some).length = t.length := List.length_map _
    have hw := writeAt_append [] (c :: d) (hx.trans hlen.symm)
    have hstore := store_append (t.map some) d c 0
    rw [hlen] at hstore
    refine Or.inr ⟨{ b' with
      pBuffer := t.map some ++ some 0 :: d
      ullCharsNumber := t.length }, ?_, ?_⟩
    · rw [hb', ok_bind, hcut]
      simp only [List.nil_append, List.length_nil] at hw
      rw [hw, ok_bind, hstore, ok_bind]
      rfl
    · refine ⟨hstatus.trans h.status, halloc, hst'.size_pos, hst'.blocks, ?_, hst'.bounded,
        rfl, d, rfl⟩
      have := congrArg List.length hcut
      rw [hst'.length_eq] at this
      simp only [List.length_append, List.length_cons, hlen, hx] at this ⊢
      exact this.symm

/-- **`setBuffer` with the length of its source.** -/
theorem setBuffer_bytes (h : Ready b) (bytes : List UInt8) :
    b.setBuffer (some (bytes.map some)) bytes.length = .error .badAlloc ∨
      ∃ b', b.setBuffer (some (bytes.map some)) bytes.length = .ok (.errNoError, b') ∧
        Contents b' (padded bytes) := by
  have hsrc : strncpyCells (bytes.map some) (padded bytes).length = .ok ((padded bytes).map some) := by
    rw [length_padded, strncpyCells_bytes]
  have hcopied := setBuffer_copied h hsrc
  rwa [length_padded] at hcopied

/-- **`setBuffer` with the beginning of a string.** -/
theorem setBuffer_part (h : Idle b ∨ ∃ s, Contents b s) {src : Cells UInt8} {s : List UInt8}
    (hsrc : Holds src s) {n : Nat} (hn : n ≤ s.length) :
    EndsWith (b.setBuffer (some src) n) .errNoError (some (s.take n)) := by
  have hlen : (s.take n).length = n := by rw [List.length_take]; omega
  have hcopy : strncpyCells src (s.take n).length = .ok ((s.take n).map some) := by
    rw [hlen, hsrc.strncpyCells_eq hn]
  have hfree : 0 ∉ s.take n := fun h0 => hsrc.nulFree (List.mem_of_mem_take h0)
  have hready : ∀ {b : Buffer}, Ready b →
      EndsWith (b.setBuffer (some src) n) .errNoError (some (s.take n)) := by
    intro b hb
    have hcopied := setBuffer_copied hb hcopy
    rw [hlen] at hcopied
    rcases hcopied with hbad | ⟨b', hb', hc⟩
    · exact Or.inl hbad
    · exact Or.inr ⟨b', hb', hc, hfree⟩
  rcases h with hidle | ⟨t, hc⟩
  · have hnonneg : ¬ ((n : Int) < 0 ∧ (n : Int) ≠ -1) := by omega
    rcases initEmpty_spec hidle with hbad | ⟨b', hb', hc⟩
    · exact Or.inl (by rw [setBuffer, if_neg hnonneg, if_pos hidle.status, hbad, error_bind])
    · have heq : b.setBuffer (some src) n = b'.setBuffer (some src) n := by
        conv_lhs => rw [setBuffer, if_neg hnonneg, if_pos hidle.status, hb', ok_bind]
        conv_rhs => rw [setBuffer, if_neg hnonneg, if_neg (by simp [hc.status]), ok_bind]
      rw [heq]
      exact hready hc.ready
  · exact hready hc.ready

/-- A substitution that keeps the length needs no memory and leaves the buffer in order. -/
theorem substitute_ready (h : Ready b) (pat new : CStr) (hne : pat.bytes ≠ [])
    (hlen : new.bytes.length = pat.bytes.length) (hlt : new.bytes.length < 2 ^ 32) :
    ∃ b', b.substitute (some pat.cells) (some new.cells) = .ok (.errNoError, b') ∧ Ready b' := by
  obtain ⟨t, ht⟩ := h.storage
  have hcount := countSubstitutions_spec ht.holds pat.nulFree hne (b.pBuffer.length + 1) 0
    (Nat.zero_le _) (by have := ht.holds.length_lt; omega)
  rw [List.drop_zero] at hcount
  have hzero : ((new.bytes.length : Int) - pat.bytes.length) * countSub pat.bytes t = 0 := by
    rw [hlen, Int.sub_self, Int.zero_mul]
  have hlenr := length_replaceAll hne new.bytes t
  rw [hlen, Nat.add_right_cancel_iff] at hlenr
  rw [substitute, if_neg (by simp [h.status]), if_neg ht.blocks, new.holds.strlen_eq, ok_bind,
    pat.holds.cstr_eq, ok_bind, hcount, ok_bind]
  by_cases hnone : countSub pat.bytes t = 0
  · rw [if_pos hnone]
    exact ⟨b, rfl, h⟩
  · rw [if_neg hnone]
    rw [hzero, long_ok (by decide) (by decide), ok_bind]
    simp only [gt_iff_lt, lt_self_iff_false, if_false, ok_bind, decide_true, Int.add_zero,
      Int.toNat_natCast]
    have hsame : true = decide (new.bytes.length = pat.bytes.length) := by simp [hlen]
    obtain ⟨m', hm', hlen', hholds'⟩ := substituteLoop_spec pat.nulFree hne hsame (b.pBuffer.length + 1) [] t b.pBuffer ht.holds
      (by have := ht.holds.length_lt; omega)
      (by have := ht.holds.length_lt; simp only [List.length_nil]; omega)
      fun i hi => ⟨hlt, fun hdiff => absurd hlen hdiff⟩
    rw [List.length_nil] at hm'
    refine ⟨{ b with pBuffer := m' }, by rw [hm', ok_bind]; rfl, h.status, h.allocated,
      replaceAll pat.bytes new.bytes t, ?_⟩
    exact ⟨ht.size_pos, ht.blocks, hlen'.trans ht.length_eq, ht.bounded, hholds'⟩

end Buffer

end CatraLibraries
