/-
# Runs of the buffer

Every call refines its specification, so a whole run does: after any sequence of
calls the buffer stands for the string that the list operations give.  The one
condition is on `substitute`, whose copies are narrowed to `unsigned int` and whose difference of the
lengths is a `long`;
`substitute_four_gib` is a run that loses the replacement because of it.
-/
import CatraLibraries.Tools.BufferStrip
import CatraLibraries.Tools.BufferSubstitute

namespace CatraLibraries

open Memory CString Substring

namespace Buffer

variable {b : Buffer} {s : List UInt8}

/-! ### One call -/

/-- **Every call refines its specification.** -/
theorem exec_simulates {a : AbsBuffer} (h : Simulates b a) (op : BufferOp)
    (hscope : op.InScope a) (hfits : op.SubstituteFits a) :
    EndsWith (op.exec b) (op.spec a).1 (op.spec a).2 := by
  cases a with
  | none =>
    have hidle : Idle b := h
    cases op with
    | init t k =>
      simp only [BufferOp.exec, BufferOp.spec, BufferOp.specIdle]
      by_cases hk : k ≤ 0
      · rw [if_pos hk, init, if_pos (Or.inr hk)]
        exact EndsWith.here h _
      · rw [if_neg hk]
        exact init_simulates hidle t.holds (by omega)
    | finish reuse =>
      refine Or.inr ⟨b, ?_, h⟩
      rw [BufferOp.exec, finish, if_pos (by simp [hidle.status])]
      rfl
    | setBuffer t => exact setBuffer_idle hidle t.holds
    | append t => exact append_idle hidle t.holds
    | insertAt i t =>
      refine Or.inr ⟨b, ?_, h⟩
      simp only [BufferOp.exec, BufferOp.spec, BufferOp.specIdle, insertAt, hidle.status,
        if_true]
      split_ifs <;> rfl
    | removeChar | setChar | truncateIfBigger | truncateStartingFrom | stripString
      | stripCount | substitute =>
      refine Or.inr ⟨b, ?_, h⟩
      simp [BufferOp.exec, BufferOp.spec, BufferOp.specIdle, removeChar, setChar,
        truncateIfBigger, truncateStartingFrom, stripString, stripCount, substitute,
        hidle.status]
  | some s =>
    obtain ⟨hc, hs⟩ := h
    have hlen := hc.length_eq_chars
    cases op with
    | init t k =>
      refine Or.inr ⟨b, ?_, hc, hs⟩
      simp only [BufferOp.exec, BufferOp.spec, BufferOp.specString, init, hc.status]
      by_cases hk : k ≤ 0 <;> simp [hk]
    | finish reuse => exact finish_simulates hc reuse
    | setBuffer t => exact setBuffer_initialized hc t.holds
    | append t => exact append_simulates hc hs t.holds
    | insertAt i t =>
      simp only [BufferOp.exec, BufferOp.spec, BufferOp.specString]
      by_cases hi : i < 0 ∨ i > s.length
      · rw [if_pos hi]
        refine Or.inr ⟨b, ?_, hc, hs⟩
        rw [insertAt]
        rcases hi with hi | hi
        · rw [if_pos hi]
        · rw [if_neg (by omega), if_neg (by simp [hc.status]), if_pos (by rw [hlen]; exact hi)]
      · rw [if_neg hi]
        obtain ⟨n, rfl⟩ := Int.eq_ofNat_of_zero_le (show 0 ≤ i by omega)
        exact insertAt_simulates hc hs t.holds (by omega)
    | removeChar i =>
      simp only [BufferOp.exec, BufferOp.spec, BufferOp.specString]
      by_cases hi : i < s.length
      · rw [if_pos hi]
        exact removeChar_simulates hc hs hi
      · rw [if_neg hi, removeChar, if_neg (by simp [hc.status]), if_pos (by rw [hlen]; omega)]
        exact EndsWith.here (a := some s) ⟨hc, hs⟩ _
    | setChar i c =>
      simp only [BufferOp.exec, BufferOp.spec, BufferOp.specString]
      by_cases hi : i < s.length
      · rw [if_pos hi]
        by_cases hz : c = 0
        · rw [if_pos hz, hz]
          exact setChar_nul hc hs hi
        · rw [if_neg hz]
          exact setChar_byte hc hs hi hz
      · rw [if_neg hi]
        exact setChar_beyond hc hs (by omega) c
    | truncateIfBigger n => exact truncateIfBigger_simulates hc hs n
    | truncateStartingFrom ty c => exact truncateStartingFrom_simulates hc hs ty c
    | stripString ty pat => exact stripString_simulates hc hs ty pat hscope
    | stripCount ty n => exact stripCount_simulates hc hs ty hscope
    | substitute pat new => exact substitute_simulates hc hs pat new hscope hfits.1 hfits.2

/-! ### Sequences of calls -/

theorem Simulates.represents {a : AbsBuffer} (h : Simulates b a) : Represents b a := by
  cases a with
  | none =>
    have hidle : Idle b := h
    exact hidle.status
  | some s =>
    obtain ⟨hc, hs⟩ := h
    have hlt := visible_eq_self hs ▸ hc.storage.lt_capacity
    exact ⟨hc.status, (hc.holds hs).cstr_eq, hc.chars, hc.chars ▸ hlt, hc.length_eq⟩

/-- A run in scope simulates the run of the specification. -/
theorem run_simulates (ops : List BufferOp) :
    ∀ {b : Buffer} {a : AbsBuffer}, Simulates b a → RunInScope a ops → RunSubstituteFits a ops →
      runBuffer b ops = .error .badAlloc ∨
        ∃ b', runBuffer b ops = .ok b' ∧ Simulates b' (specRun a ops) := by
  induction ops with
  | nil => exact fun h _ _ => Or.inr ⟨_, rfl, h⟩
  | cons op ops ih =>
    intro b a h hscope hfits
    rw [runBuffer]
    rcases exec_simulates h op hscope.1 hfits.1 with hbad | ⟨b₁, hb₁, hsim⟩
    · exact Or.inl (by rw [hbad, error_bind])
    · rw [hb₁, ok_bind]
      exact ih hsim hscope.2 hfits.2

/-- **Runs of the buffer.**  After every run in scope whose substitutions fit, the
buffer stands for the string of the list operations, and a further call that reports
an error leaves it standing for that string. -/
theorem buffer_run (ops : List BufferOp) (hscope : RunInScope none ops)
    (hfits : RunSubstituteFits none ops) :
    runBuffer .built ops = .error .badAlloc ∨
      ∃ b, runBuffer .built ops = .ok b ∧ Represents b (specRun none ops) ∧
        ∀ op : BufferOp, op.InScope (specRun none ops) → op.SubstituteFits (specRun none ops) →
          ∀ e b', op.exec b = .ok (e, b') → e ≠ .errNoError →
            Represents b' (specRun none ops) := by
  rcases run_simulates ops (a := none) built_idle hscope hfits with hbad | ⟨b, hb, hsim⟩
  · exact Or.inl hbad
  · refine Or.inr ⟨b, hb, hsim.represents, fun op hop hfit e b' hexec he => ?_⟩
    rcases exec_simulates hsim op hop hfit with hbad | ⟨b₂, hb₂, hsim₂⟩
    · exact absurd (hexec.symm.trans hbad) (by simp)
    · obtain ⟨rfl, rfl⟩ := Prod.mk.inj (Except.ok.inj (hexec.symm.trans hb₂))
      rw [op.spec_error _ he] at hsim₂
      exact hsim₂.represents

/-- The string `"ab"`. -/
def textAB : CStr := ⟨[97, 98], by decide⟩

/-- The string `"b"`. -/
theorem textB_nulFree : (0 : UInt8) ∉ [98] := by decide

def textB : CStr := ⟨[98], textB_nulFree⟩

theorem buffer_run_insert :
    ∃ b, runBuffer .built [.append textAB, .insertAt 1 textB, .finish true, .init textB 2,
        .append textAB, .removeChar 1] = .ok b ∧ Represents b (some [98, 98]) := by
  rcases buffer_run [.append textAB, .insertAt 1 textB, .finish true, .init textB 2,
      .append textAB, .removeChar 1] ⟨trivial, trivial, trivial, trivial, trivial, trivial, trivial⟩
      ⟨trivial, trivial, trivial, trivial, trivial, trivial, trivial⟩ with hbad | ⟨b, hb, hrep, -⟩
  · exact absurd hbad (by rintro ⟨⟩)
  · exact ⟨b, hb, hrep⟩

/-! ### A replacement of four GiB -/

theorem writeAt_nil {α : Type} {m : Cells α} {i : Nat} (h : i ≤ m.length) :
    writeAt m i [] = .ok m := by
  rw [writeAt, if_pos (by simpa using h)]
  simp

/-- A one-character string whose only character is replaced by a string whose length
`unsigned int` takes to zero: nothing is copied, and the length is counted as if it were. -/
theorem substituteLoop_narrowed {mem : Cells UInt8} (hm : Holds mem [97]) (new : CStr)
    (hmod : unsignedInt new.bytes.length = 0) (hlong : 1 < new.bytes.length)
    (hroom : new.bytes.length < mem.length) (fuel : Nat) :
    ∃ m', substituteLoop [97] new.cells new.bytes.length false (fuel + 2) mem 0 = .ok m' ∧
      Holds m' [97] := by
  have hfind : strstr mem [97] = .ok (some 0) := hm.strstr_eq (by decide)
  have htail : cstr (mem.drop 1) = .ok [] := (hm.drop (i := 1) (by simp)).cstr_eq
  have hset : new.bytes.length < (mem.set new.bytes.length (some 0)).length := by simpa using hroom
  have hat : substituteAt mem [97] new.cells new.bytes.length false 0
      = .ok (mem.set new.bytes.length (some 0)) := by
    have hzero : unsignedInt 0 = 0 := rfl
    rw [substituteAt, if_neg (by simp), List.length_singleton, Nat.zero_add, htail, ok_bind]
    simp only [List.length_nil, hzero, hmod, strncpy, strncpyCells, ok_bind, Nat.zero_add,
      writeAt_nil (Nat.le_of_lt hroom), Nat.add_zero, store_ok _ hroom, writeAt_nil (Nat.zero_le _)]
  -- the next search starts at the NUL behind the bytes that were not written
  have hnext : strstr ((mem.set new.bytes.length (some 0)).drop new.bytes.length) [97]
      = .ok none := by
    rw [List.drop_eq_getElem_cons hset, List.getElem_set_self]
    rfl
  refine ⟨mem.set new.bytes.length (some 0), ?_, ?_⟩
  · rw [substituteLoop, List.drop_zero, hfind, ok_bind]
    simp only [Nat.zero_add, hat, ok_bind]
    rw [substituteLoop, hnext]
    rfl
  · obtain ⟨rest, rfl⟩ := hm.split
    refine ⟨by decide, rest.set (new.bytes.length - 2) (some 0), ?_⟩
    obtain ⟨k, hk⟩ : ∃ k, new.bytes.length = k + 2 := ⟨new.bytes.length - 2, by omega⟩
    rw [hk]
    rfl

/-- The buffer that holds `"a"` after one append to a fresh one. -/
def holdingA : Buffer := ⟨.initialized, true, 2, 2, 1, [some 97, some 0, none, none]⟩

theorem holdingA_contents : Contents holdingA [97] :=
  ⟨rfl, rfl, by decide, by decide, rfl, by decide, rfl, [none, none], rfl⟩

/-- The call `substitute ("a", new)` on `"a"`, when `new` is 2³² bytes long. -/
theorem substitute_narrowed (a new : CStr) (ha : a.bytes = [97])
    (hnew : new.bytes.length = 2 ^ 32) :
    ∃ b', holdingA.substitute (some a.cells) (some new.cells) = .ok (.errNoError, b') ∧
      Holds b'.pBuffer [97] ∧ b'.ullCharsNumber = 2 ^ 32 := by
  obtain ⟨n, hn⟩ : ∃ n, n = 2 ^ 32 := ⟨_, rfl⟩
  rw [← hn] at hnew ⊢
  have hgrown : holdingA.grownCapacity n = n + 2 := by rw [hn]; decide
  have hmax : holdingA.grownCapacity n ≤ maxAllocation := by rw [hn]; decide
  have halloc : holdingA.allocMemoryBlockForBufferIfNecessary (n - 1)
      = .ok (holdingA.grown [97] n) := by
    have hgrows : holdingA.Grows 1 (n - 1) := by rw [hn]; decide
    have := alloc_storage holdingA_contents.storage (n - 1)
    rw [visible_eq_self (by decide), List.length_singleton, if_pos hgrows,
      show 1 + (n - 1) = n by omega, if_pos hmax] at this
    exact this
  have hst : Storage (holdingA.grown [97] n) [97] :=
    grown_storage n (by decide) (by decide) (by simp; omega) hmax
  have hlen : (holdingA.grown [97] n).pBuffer.length + 1 = n + 1 + 2 := by
    rw [hst.length_eq]
    exact congrArg (· + 1) hgrown
  obtain ⟨m, hm, hmholds⟩ := substituteLoop_narrowed hst.holds new
    (by rw [hnew, hn]; decide) (by omega) (by omega) (n + 1)
  have hcount : countSubstitutions holdingA.pBuffer [97] (holdingA.pBuffer.length + 1) 0
      = .ok 1 := rfl
  have hdiff : ((n : Int) - ([97] : List UInt8).length) * (1 : Nat) = ((n - 1 : Nat) : Int) := by
    simp only [List.length_singleton]
    omega
  have hpos : ((n - 1 : Nat) : Int) > 0 := by omega
  refine ⟨{ holdingA.grown [97] n with pBuffer := m, ullCharsNumber := n }, ?_, hmholds, rfl⟩
  rw [substitute, if_neg (by decide), if_neg (by decide), new.holds.strlen_eq, ok_bind,
    a.holds.cstr_eq, ha, ok_bind, hcount, ok_bind, if_neg (by decide), hnew, hdiff,
    long_ok (by omega) (by omega), ok_bind]
  rw [hnew] at hm
  simp only [if_pos hpos, Int.toNat_natCast, halloc, ok_bind, hlen,
    decide_eq_false (show ¬ ((n - 1 : Nat) : Int) = 0 by omega), hm, grown_ullCharsNumber]
  rw [show ((holdingA.ullCharsNumber : Int) + (n - 1 : Nat)).toNat = n by
    show ((1 : Nat) + ((n - 1 : Nat) : Int)).toNat = n
    omega]
  rfl

/-- **A replacement of four GiB.**  `"a"` appended and then replaced: the storage still
shows `"a"`, while `ullCharsNumber` counts 2³² bytes. -/
theorem substitute_four_gib :
    ¬ ∀ ops, RunInScope none ops → runBuffer .built ops = .error .badAlloc ∨
      ∃ b, runBuffer .built ops = .ok b ∧ Represents b (specRun none ops) := by
  intro h
  obtain ⟨new, hnew⟩ : ∃ new : CStr, new.bytes.length = 2 ^ 32 :=
    ⟨⟨List.replicate (2 ^ 32) 120, fun h0 => absurd (List.eq_of_mem_replicate h0) (by decide)⟩,
      List.length_replicate⟩
  let a : CStr := ⟨[97], by decide⟩
  have happend : (BufferOp.append a).exec .built = .ok (.errNoError, holdingA) := rfl
  obtain ⟨b₂, hsubst, hholds, hchars⟩ := substitute_narrowed a new rfl hnew
  have hrun : runBuffer .built [.append a, .substitute a new] = .ok b₂ := by
    change ((BufferOp.append a).exec .built >>= fun r =>
      (BufferOp.substitute a new).exec r.2 >>= fun r => .ok r.2) = _
    rw [happend, ok_bind]
    change (holdingA.substitute (some a.cells) (some new.cells) >>= _) = _
    rw [hsubst, ok_bind]
  obtain hbad | ⟨b', hb', hrep⟩ := h [.append a, .substitute a new]
    ⟨trivial, by simp [BufferOp.InScope, a], trivial⟩
  · exact absurd (hrun.symm.trans hbad) (by simp)
  · -- one byte of storage cannot be a string of 2³² bytes
    obtain rfl := Except.ok.inj (hrun.symm.trans hb')
    obtain ⟨-, hcstr, hlen, -⟩ := hrep
    have hs := Except.ok.inj (hholds.cstr_eq.symm.trans hcstr)
    rw [← hs, hchars, List.length_singleton] at hlen
    exact absurd hlen (by decide)

end Buffer

end CatraLibraries
