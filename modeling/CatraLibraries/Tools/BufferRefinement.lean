/-
# The buffer refines its specification

One lemma for each call: on a buffer that simulates an abstract one, the call
returns the error code of the specification and a buffer that simulates the abstract
result, or `new` throws.  `Simulates` is the invariant that all the mutators
maintain: the storage holds the string and its NUL, `ullCharsNumber` counts the
string, and a buffer between `finish` and `init` keeps its storage intact.
-/
import CatraLibraries.Tools.BufferSpec

namespace CatraLibraries

open Memory CString Substring

namespace Buffer

/-- The invariant: the string of an initialized buffer is in its storage. -/
def Simulates (b : Buffer) : AbsBuffer → Prop
  | none => Idle b
  | some s => Contents b s ∧ 0 ∉ s

/-- A call ends with the error code `e` on a buffer that simulates `a`, or gets no memory. -/
def EndsWith (r : Outcome) (e : ToolsError) (a : AbsBuffer) : Prop :=
  r = .error .badAlloc ∨ ∃ b', r = .ok (e, b') ∧ Simulates b' a

theorem EndsWith.here {b : Buffer} {a : AbsBuffer} (h : Simulates b a) (e : ToolsError) :
    EndsWith (.ok (e, b)) e a := Or.inr ⟨b, rfl, h⟩

variable {b : Buffer} {s t : List UInt8} {src : Cells UInt8}

theorem Contents.holds (h : Contents b s) (hs : 0 ∉ s) : Holds b.pBuffer s :=
  ⟨hs, h.split⟩

/-- Storage rewritten in place, with the length of what it holds now. -/
theorem Contents.rewrite (h : Contents b s) {m : Cells UInt8} (hm : Terminated m t)
    (hlen : m.length = b.pBuffer.length) :
    Contents { b with pBuffer := m, ullCharsNumber := t.length } t :=
  ⟨h.status, h.allocated, h.size_pos, h.blocks, hlen.trans h.length_eq, h.bounded, rfl, hm⟩

theorem Contents.update (h : Contents b s) {m : Cells UInt8} (hm : Holds m t)
    (hlen : m.length = b.pBuffer.length) :
    Simulates { b with pBuffer := m, ullCharsNumber := t.length } (some t) :=
  ⟨h.rewrite hm.split hlen, hm.nulFree⟩

/-! ### init, finish, setBuffer, append -/

theorem init_simulates (h : Idle b) (hsrc : Holds src t) {size : Int} (hsize : 0 < size) :
    EndsWith (b.init (some src) (-1) size) .errNoError (some t) := by
  rcases init_string h hsrc hsize with hbad | ⟨b', hb', hc⟩
  · exact Or.inl hbad
  · exact Or.inr ⟨b', hb', hc, hsrc.nulFree⟩

theorem finish_simulates (h : Contents b s) (reuse : Bool) :
    EndsWith (b.finish reuse) .errNoError none := by
  rw [finish, if_neg (by simp [h.status])]
  split
  · exact EndsWith.here (a := none) ⟨rfl, by simp⟩ _
  · refine EndsWith.here (a := none) ⟨rfl, fun _ => ⟨visible s, ?_⟩⟩ _
    exact ⟨h.size_pos, h.blocks, h.length_eq, h.bounded, h.storage.holds⟩

/-- With the string's own length, `append` is the append of its bytes. -/
theorem append_string_eq (h : b.bsBufferStatus = .initialized) (hsrc : Holds src t) :
    b.append (some src) (-1) = b.append (some src) t.length := by
  rw [append_length_eq h, append, if_neg (by simp), if_neg (by simp [h]), ok_bind]
  simp [hsrc.strlen_eq]

theorem append_simulates (h : Contents b s) (hs : 0 ∉ s) (hsrc : Holds src t) :
    EndsWith (b.append (some src) (-1)) .errNoError (some (s ++ t)) := by
  rw [append_string_eq h.status hsrc]
  have htake : src.take t.length = t.map some := by
    rw [hsrc.take_eq le_rfl, List.take_length]
  rcases append_contents h hs htake (Nat.le_of_lt hsrc.length_lt) with hbad | ⟨b', hb', hc⟩
  · exact Or.inl hbad
  · exact Or.inr ⟨b', hb', hc, by simp [hs, hsrc.nulFree]⟩

/-- On a buffer that is not initialized, `append` calls `init ("")` first. -/
theorem append_idle (h : Idle b) (hsrc : Holds src t) :
    EndsWith (b.append (some src) (-1)) .errNoError (some t) := by
  rcases initEmpty_spec h with hbad | ⟨b', hb', hc⟩
  · refine Or.inl ?_
    rw [append, if_neg (by simp), if_pos h.status, hbad, error_bind]
  · have heq : b.append (some src) (-1) = b'.append (some src) (-1) := by
      conv_lhs => rw [append, if_neg (by simp), if_pos h.status, hb', ok_bind]
      conv_rhs => rw [append, if_neg (by simp), if_neg (by simp [hc.status]), ok_bind]
    rw [heq]
    exact append_simulates hc (by simp) hsrc

/-- Room for `n` more bytes and a NUL behind the string. -/
theorem alloc_contents (h : Contents b s) (hs : 0 ∉ s) (n : Nat) :
    b.allocMemoryBlockForBufferIfNecessary n = .error .badAlloc ∨
      ∃ b', b.allocMemoryBlockForBufferIfNecessary n = .ok b' ∧ Contents b' s ∧
        s.length + n < b'.capacity := by
  have hst := h.storage
  rw [visible_eq_self hs] at hst
  have hroom := lt_grownCapacity h.size_pos (s.length + n)
  rw [alloc_storage hst]
  split
  · split
    · next hmax =>
      have hgr := grown_storage (s.length + n) h.size_pos hs (Nat.le_add_right _ _) hmax
      exact Or.inr ⟨_, rfl, ⟨h.status, rfl, hgr.size_pos, hgr.blocks, hgr.length_eq,
        hgr.bounded, h.chars, hgr.holds.split⟩, hroom⟩
    · exact Or.inl rfl
  · next hno =>
    refine Or.inr ⟨b, rfl, h, ?_⟩
    unfold Grows at hno
    omega

/-- An initialized buffer whose storage is in order, whatever it holds. -/
structure Ready (b : Buffer) : Prop where
  status : b.bsBufferStatus = .initialized
  allocated : b.bMemoryAllocated = true
  storage : ∃ t, Storage b t

theorem Contents.ready (h : Contents b s) : Ready b :=
  ⟨h.status, h.allocated, visible s, h.storage⟩

/-- The start of `setBuffer`: the storage is emptied. -/
theorem Ready.emptied (h : Ready b) :
    ∃ m, strcpy b.pBuffer 0 [some 0] = .ok m ∧ Storage { b with pBuffer := m } [] := by
  obtain ⟨t, ht⟩ := h.storage
  obtain ⟨m, hcpy, hlen, hm, -⟩ := Holds.strcpy_eq (m := [some 0]) (s := [])
    ⟨by simp, [], rfl⟩ b.pBuffer
    (by rw [ht.length_eq]; exact Nat.lt_of_le_of_lt (Nat.zero_le _) ht.lt_capacity)
  exact ⟨m, hcpy, ht.size_pos, ht.blocks, hlen.trans ht.length_eq, ht.bounded, hm⟩

/-- The part of `setBuffer` behind the `init` it may call. -/
theorem setBuffer_ready (h : Ready b) (hsrc : Holds src t) :
    EndsWith (b.setBuffer (some src) (-1)) .errNoError (some t) := by
  obtain ⟨m, hcpy, hst⟩ := h.emptied
  have hblocks : b.lBufferBlockNumber ≠ 0 := hst.blocks
  have heq : b.setBuffer (some src) (-1) = (do
      let b ← ({ b with pBuffer := m } : Buffer).allocMemoryBlockForBufferIfNecessary t.length
      let mem ← strcpy b.pBuffer 0 src
      return (.errNoError, { b with pBuffer := mem, ullCharsNumber := t.length })) := by
    rw [setBuffer, if_neg (by simp), if_neg (by simp [h.status]), ok_bind]
    simp only [ne_eq, not_true_eq_false, if_false, hblocks, not_false_eq_true, if_true, hcpy,
      ok_bind, hsrc.strlen_eq]
  rw [heq]
  rcases alloc_emptied (b := { b with pBuffer := m }) (Or.inr ⟨h.allocated, hst⟩)
    hst.size_pos t.length with
    hbad | ⟨b', hb', hst', halloc, hroom, hstatus⟩
  · exact Or.inl (by rw [hbad, error_bind])
  · obtain ⟨m', hcpy', hlen', hm', -⟩ :=
      hsrc.strcpy_eq b'.pBuffer (by rw [hst'.length_eq]; exact hroom)
    refine Or.inr ⟨_, by rw [hb', ok_bind, hcpy']; rfl, ?_, hsrc.nulFree⟩
    exact ⟨hstatus.trans h.status, halloc, hst'.size_pos, hst'.blocks,
      hlen'.trans hst'.length_eq, hst'.bounded, rfl, hm'.split⟩

theorem setBuffer_initialized (h : Contents b s) (hsrc : Holds src t) :
    EndsWith (b.setBuffer (some src) (-1)) .errNoError (some t) :=
  setBuffer_ready h.ready hsrc

theorem setBuffer_idle (h : Idle b) (hsrc : Holds src t) :
    EndsWith (b.setBuffer (some src) (-1)) .errNoError (some t) := by
  rcases initEmpty_spec h with hbad | ⟨b', hb', hc⟩
  · refine Or.inl ?_
    rw [setBuffer, if_neg (by simp), if_pos h.status, hbad, error_bind]
  · have heq : b.setBuffer (some src) (-1) = b'.setBuffer (some src) (-1) := by
      conv_lhs => rw [setBuffer, if_neg (by simp), if_pos h.status, hb', ok_bind]
      conv_rhs => rw [setBuffer, if_neg (by simp), if_neg (by simp [hc.status]), ok_bind]
    rw [heq]
    exact setBuffer_initialized hc hsrc

/-- `setBuffer ("")` empties every buffer that is in order. -/
theorem setBuffer_clears (h : Idle b ∨ ∃ s, Contents b s) :
    EndsWith (b.setBuffer (some [some 0]) (-1)) .errNoError (some []) := by
  have hempty : Holds [some 0] [] := ⟨by simp, [], rfl⟩
  rcases h with hidle | ⟨s, hc⟩
  · exact setBuffer_idle hidle hempty
  · exact setBuffer_initialized hc hempty

/-! ### insertAt, removeChar, setChar, truncation -/

theorem insertAt_simulates (h : Contents b s) (hs : 0 ∉ s) (hsrc : Holds src t) {i : Nat}
    (hi : i ≤ s.length) :
    EndsWith (b.insertAt i (some src)) .errNoError (some (s.take i ++ t ++ s.drop i)) := by
  have hhold := h.holds hs
  rw [insertAt, if_neg (by omega), if_neg (by simp [h.status]),
    if_neg (by rw [h.length_eq_chars]; omega), h.length_eq_chars]
  by_cases hend : i = s.length
  · rw [if_pos (by exact_mod_cast hend)]
    rcases append_simulates h hs hsrc with hbad | ⟨b', hb', hsim⟩
    · exact Or.inl (by rw [hbad, error_bind])
    · refine Or.inr ⟨b', by rw [hb', ok_bind]; rfl, ?_⟩
      rwa [hend, List.take_length, List.drop_length, List.append_nil]
  · -- the tail is saved, the string cut, and both parts appended
    rw [if_neg (by exact_mod_cast hend)]
    have htail : Holds (b.pBuffer.drop i) (s.drop i) := hhold.drop hi
    simp only [Int.toNat_natCast, htail.strlen_eq, ok_bind]
    by_cases hmax : (s.drop i).length + 1 ≤ maxAllocation
    · rw [alloc_ok hmax, ok_bind]
      obtain ⟨rem, hcpy, -, hrem, -⟩ := htail.strcpy_eq
        (List.replicate ((s.drop i).length + 1) none) (by simp)
      obtain ⟨m, hst, hlen, hm⟩ := hhold.store_nul hi
      have hcut := h.update hm hlen
      rw [hcpy, ok_bind, hst, ok_bind]
      have htake : (s.take i).length = i := by rw [List.length_take]; omega
      rw [htake] at hcut
      rcases append_simulates hcut.1 hcut.2 hsrc with hbad | ⟨b₁, hb₁, hc₁, hs₁⟩
      · exact Or.inl (by rw [hbad, error_bind])
      · rw [hb₁, ok_bind]
        rcases append_simulates hc₁ hs₁ hrem with hbad | ⟨b₂, hb₂, hsim⟩
        · refine Or.inl ?_
          simp only [ne_eq, not_true_eq_false, if_false, hbad, error_bind]
        · refine Or.inr ⟨b₂, ?_, hsim⟩
          simp only [ne_eq, not_true_eq_false, if_false, hb₂, ok_bind]
          rfl
    · exact Or.inl (by rw [alloc_badAlloc (Nat.not_le.mp hmax), error_bind])

theorem removeChar_simulates (h : Contents b s) (hs : 0 ∉ s) {i : Nat} (hi : i < s.length) :
    EndsWith (b.removeChar i) .errNoError (some (s.eraseIdx i)) := by
  obtain ⟨m, hcopy, hlen, hm⟩ := Terminated.erase h.split hi
  have hsim := h.update ⟨fun h0 => hs (List.mem_of_mem_eraseIdx h0), hm⟩ hlen
  rw [List.length_eraseIdx_of_lt hi, ← h.chars] at hsim
  rw [removeChar, if_neg (by simp [h.status]), if_neg (by rw [h.length_eq_chars]; omega),
    h.chars, hcopy]
  exact EndsWith.here (h.chars ▸ hsim) _

theorem setChar_nul (h : Contents b s) (hs : 0 ∉ s) {i : Nat} (hi : i < s.length) :
    EndsWith (b.setChar i 0) .errNoError (some (s.take i)) := by
  obtain ⟨m, hst, hlen, hm⟩ := (h.holds hs).store_nul (Nat.le_of_lt hi)
  have hsim := h.update hm hlen
  rw [List.length_take, Nat.min_eq_left (Nat.le_of_lt hi)] at hsim
  rw [setChar, if_neg (by simp [h.status]), if_neg (by rw [h.length_eq_chars]; omega), hst]
  exact EndsWith.here hsim _

theorem setChar_byte (h : Contents b s) (hs : 0 ∉ s) {i : Nat} (hi : i < s.length)
    {c : UInt8} (hc : c ≠ 0) :
    EndsWith (b.setChar i c) .errNoError (some (s.set i c)) := by
  obtain ⟨m, hst, hlen, hm⟩ := (h.holds hs).store_byte hi hc
  have hsim := h.update hm hlen
  rw [List.length_set, ← h.chars] at hsim
  rw [setChar, if_neg (by simp [h.status]), if_neg (by rw [h.length_eq_chars]; omega), hst,
    ok_bind, if_neg hc]
  exact EndsWith.here hsim _

/-- At the NUL or behind it `setChar` reports a wrong argument. -/
theorem setChar_beyond (h : Contents b s) (hs : 0 ∉ s) {i : Nat} (hi : s.length ≤ i)
    (c : UInt8) : EndsWith (b.setChar i c) .activationWrong (some s) := by
  rw [setChar, if_neg (by simp [h.status]), if_pos (by rw [h.length_eq_chars]; exact hi)]
  exact EndsWith.here (a := some s) ⟨h, hs⟩ _

theorem truncateIfBigger_simulates (h : Contents b s) (hs : 0 ∉ s) (n : Nat) :
    EndsWith (b.truncateIfBigger n) .errNoError (some (s.take n)) := by
  rw [truncateIfBigger, if_neg (by simp [h.status]), h.chars]
  split
  · next hlt => exact setChar_nul h hs hlt
  · next hge =>
    rw [List.take_of_length_le (by omega)]
    exact EndsWith.here (a := some s) ⟨h, hs⟩ _

theorem truncateStartingFrom_simulates (h : Contents b s) (hs : 0 ∉ s) (ty : StripType)
    (c : UInt8) :
    EndsWith (b.truncateStartingFrom ty c) (BufferOp.truncateSpec ty c s).1
      (some (BufferOp.truncateSpec ty c s).2) := by
  have hhold := h.holds hs
  have hpos : c ∈ s → 0 < s.length := List.length_pos_of_mem
  unfold truncateStartingFrom
  rw [if_neg (by simp [h.status]), BufferOp.truncateSpec]
  by_cases hc : c = 0
  · -- the search finds the NUL, and there is nothing to cut there
    cases ty with
    | both => exact EndsWith.here (a := some s) ⟨h, hs⟩ _
    | leading =>
      simp only [hhold.strchr_eq, if_pos hc, ok_bind, reduceCtorEq, if_false]
      exact setChar_beyond h hs le_rfl 0
    | trailing =>
      simp only [hhold.strrchr_eq, if_pos hc, ok_bind, reduceCtorEq, if_false]
      exact setChar_beyond h hs le_rfl 0
  · by_cases hmem : c ∈ s
    · cases ty with
      | both => exact EndsWith.here (a := some s) ⟨h, hs⟩ _
      | leading =>
        simp only [hhold.strchr_eq, if_neg hc, ok_bind, reduceCtorEq, if_false,
          if_true, not_true_eq_false, hmem]
        exact setChar_nul h hs (List.idxOf_lt_length_of_mem hmem)
      | trailing =>
        simp only [hhold.strrchr_eq, if_neg hc, ok_bind, reduceCtorEq, if_false,
          not_true_eq_false, hmem]
        exact setChar_nul h hs (by have := hpos hmem; omega)
    · cases ty with
      | both => exact EndsWith.here (a := some s) ⟨h, hs⟩ _
      | leading =>
        simp only [hhold.strchr_eq, if_neg hc, ok_bind, reduceCtorEq, if_false,
          not_false_eq_true, if_true, hmem]
        exact EndsWith.here (a := some s) ⟨h, hs⟩ _
      | trailing =>
        simp only [hhold.strrchr_eq, if_neg hc, ok_bind, reduceCtorEq, if_false,
          not_false_eq_true, if_true, hmem]
        exact EndsWith.here (a := some s) ⟨h, hs⟩ _

end Buffer

end CatraLibraries
