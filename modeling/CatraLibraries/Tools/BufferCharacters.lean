/-
# Control characters

`Buffer::removeCTRLCharacters`.  A control character is removed by moving the rest over it, and the
loop goes on behind: the byte that has taken its place is never looked at.
-/
import Mathlib.Data.List.Chain
import CatraLibraries.Tools.BufferStrip

namespace CatraLibraries

open Memory CString

namespace Buffer

variable {b : Buffer} {s t : List UInt8} {m : Cells UInt8}

/-! ### The call -/

/-- `iscntrl` in the "C" locale; a negative `char` is no control character. -/
def iscntrl (c : UInt8) : Bool := c < 32 || c = 127

/-- The loop of `removeCTRLCharacters`. -/
def removeCTRLLoop : Nat → Cells UInt8 → Nat → Nat → Except Fault (Cells UInt8 × Nat)
  | 0, _, _, _ => .error .outOfFuel
  | fuel + 1, mem, ullCharsNumber, ulIndex =>
    if ulIndex < ullCharsNumber then do
      let c ← load mem ulIndex
      if iscntrl c then
        let mem ← copyDown mem ulIndex (ulIndex + 1) (ullCharsNumber - ulIndex)
        removeCTRLLoop fuel mem (ullCharsNumber - 1) (ulIndex + 1)
      else if c = 160 then
        let mem ← store mem ulIndex 32
        removeCTRLLoop fuel mem ullCharsNumber (ulIndex + 1)
      else removeCTRLLoop fuel mem ullCharsNumber (ulIndex + 1)
    else .ok (mem, ullCharsNumber)

/-- `removeCTRLCharacters ()`. -/
def removeCTRLCharacters (b : Buffer) : Outcome :=
  if b.bsBufferStatus ≠ .initialized then .ok (.operationNotAllowed, b)
  else do
    let (mem, ullCharsNumber) ← removeCTRLLoop (b.ullCharsNumber + 1) b.pBuffer b.ullCharsNumber 0
    return (.errNoError, { b with pBuffer := mem, ullCharsNumber := ullCharsNumber })

/-! ### What it leaves -/

/-- The byte that is written for one that is no control character. -/
def spaced (c : UInt8) : UInt8 := if c = 160 then 32 else c

/-- The bytes the loop leaves: the one behind a control character is kept as it is. -/
def scanned : List UInt8 → List UInt8
  | [] => []
  | [c] => if iscntrl c then [] else [spaced c]
  | c :: d :: s => if iscntrl c then d :: scanned s else spaced c :: scanned (d :: s)

/-- The bytes that should be left. -/
def cleaned (s : List UInt8) : List UInt8 := (s.filter fun c => !iscntrl c).map spaced

/-- The byte at the index takes its final value, and the index goes on. -/
theorem removeCTRLLoop_keep {fuel : Nat} {x rest : List UInt8} {c : UInt8}
    (hm : Terminated m (x ++ c :: rest)) (hc : iscntrl c = false) :
    ∃ m', removeCTRLLoop (fuel + 1) m (x ++ c :: rest).length x.length =
        removeCTRLLoop fuel m' ((x ++ [spaced c]) ++ rest).length (x ++ [spaced c]).length ∧
      m'.length = m.length ∧ Terminated m' ((x ++ [spaced c]) ++ rest) := by
  have hlt : x.length < (x ++ c :: rest).length := by
    rw [List.length_append, List.length_cons]
    omega
  have hlength : ((x ++ [spaced c]) ++ rest).length = (x ++ c :: rest).length := by
    rw [List.length_append, List.length_append, List.length_append, List.length_cons, List.length_cons,
      List.length_nil]
    omega
  have hnext : (x ++ [spaced c]).length = x.length + 1 := List.length_append
  rw [hlength, hnext, removeCTRLLoop, if_pos hlt, hm.load_eq rfl, ok_bind, hc, if_neg nofun]
  by_cases hspace : c = 160
  · obtain ⟨m', hstore, hlen, hm'⟩ := hm.store_byte hlt 32
    refine ⟨m', ?_, hlen, ?_⟩
    · rw [if_pos hspace, hstore, ok_bind]
    · rw [List.set_append_right _ _ (le_refl _), Nat.sub_self] at hm'
      rw [spaced, if_pos hspace, List.append_assoc]
      exact hm'
  · refine ⟨m, by rw [if_neg hspace], rfl, ?_⟩
    rw [spaced, if_neg hspace, List.append_assoc]
    exact hm

/-- A control character goes, and the index passes over the byte behind it. -/
theorem removeCTRLLoop_drop {fuel : Nat} {x rest : List UInt8} {c : UInt8}
    (hm : Terminated m (x ++ c :: rest)) (hc : iscntrl c = true) :
    ∃ m', removeCTRLLoop (fuel + 1) m (x ++ c :: rest).length x.length =
        removeCTRLLoop fuel m' (x ++ rest).length (x.length + 1) ∧
      m'.length = m.length ∧ Terminated m' (x ++ rest) := by
  have hlt : x.length < (x ++ c :: rest).length := by
    rw [List.length_append, List.length_cons]
    omega
  obtain ⟨m', hcopy, hlen, hm'⟩ := hm.erase hlt
  have herase : (x ++ c :: rest).eraseIdx x.length = x ++ rest := by
    rw [List.eraseIdx_append_of_length_le (le_refl _), Nat.sub_self]
    rfl
  have hchars : (x ++ c :: rest).length - 1 = (x ++ rest).length := by
    rw [List.length_append, List.length_append, List.length_cons]
    omega
  rw [herase] at hm'
  refine ⟨m', ?_, hlen, hm'⟩
  rw [removeCTRLLoop, if_pos hlt, hm.load_eq rfl, ok_bind, if_pos hc, hcopy, ok_bind, hchars]

theorem removeCTRLLoop_end {fuel : Nat} {n i : Nat} (h : n ≤ i) :
    removeCTRLLoop (fuel + 1) m n i = .ok (m, n) := by
  rw [removeCTRLLoop, if_neg (Nat.not_lt.mpr h)]

/-- The loop from the index `x.length` on. -/
theorem removeCTRLLoop_scanned (s : List UInt8) (fuel : Nat) (m : Cells UInt8) (x : List UInt8)
    (hm : Terminated m (x ++ s)) (hfuel : s.length < fuel) :
    ∃ m', removeCTRLLoop fuel m (x ++ s).length x.length = .ok (m', (x ++ scanned s).length) ∧
      m'.length = m.length ∧ Terminated m' (x ++ scanned s) := by
  induction s using scanned.induct generalizing fuel m x with
  | case1 =>
    obtain ⟨fuel, rfl⟩ := Nat.exists_eq_add_of_lt hfuel
    exact ⟨m, removeCTRLLoop_end (by rw [List.append_nil]), rfl, hm⟩
  | case2 c hc =>
    obtain ⟨fuel, rfl⟩ := Nat.exists_eq_add_of_lt hfuel
    obtain ⟨m₁, hrun, hlen₁, hm₁⟩ := removeCTRLLoop_drop hm hc
    refine ⟨m₁, ?_, hlen₁, ?_⟩
    · rw [hrun, scanned, if_pos hc, Nat.add_comm [c].length]
      refine removeCTRLLoop_end ?_
      rw [List.append_nil]
      exact Nat.le_succ _
    · rw [scanned, if_pos hc]
      exact hm₁
  | case3 c hc =>
    obtain ⟨fuel, rfl⟩ := Nat.exists_eq_add_of_lt hfuel
    obtain ⟨m₁, hrun, hlen₁, hm₁⟩ := removeCTRLLoop_keep hm (Bool.eq_false_iff.mpr hc)
    rw [List.append_nil] at hrun hm₁
    refine ⟨m₁, ?_, hlen₁, ?_⟩
    · rw [hrun, scanned, if_neg hc, Nat.add_comm [c].length]
      exact removeCTRLLoop_end (le_refl _)
    · rw [scanned, if_neg hc]
      exact hm₁
  | case4 c d s hc ih =>
    obtain ⟨fuel, rfl⟩ := Nat.exists_eq_add_of_lt hfuel
    obtain ⟨m₁, hrun, hlen₁, hm₁⟩ := removeCTRLLoop_drop hm hc
    have hsplit : x ++ d :: s = (x ++ [d]) ++ s := by rw [List.append_assoc]; rfl
    have hnext : x.length + 1 = (x ++ [d]).length := by rw [List.length_append]; rfl
    rw [hsplit] at hm₁
    obtain ⟨m₂, hrest, hlen₂, hm₂⟩ := ih ((c :: d :: s).length + fuel) m₁ (x ++ [d]) hm₁ (by
      rw [List.length_cons, List.length_cons]
      omega)
    rw [scanned, if_pos hc, show x ++ d :: scanned s = (x ++ [d]) ++ scanned s by
      rw [List.append_assoc]; rfl]
    refine ⟨m₂, ?_, hlen₂.trans hlen₁, hm₂⟩
    rw [hrun, hsplit, hnext]
    exact hrest
  | case5 c d s hc ih =>
    obtain ⟨fuel, rfl⟩ := Nat.exists_eq_add_of_lt hfuel
    obtain ⟨m₁, hrun, hlen₁, hm₁⟩ := removeCTRLLoop_keep hm (Bool.eq_false_iff.mpr hc)
    obtain ⟨m₂, hrest, hlen₂, hm₂⟩ := ih ((c :: d :: s).length + fuel) m₁ (x ++ [spaced c]) hm₁ (by
      rw [List.length_cons, List.length_cons, List.length_cons]
      omega)
    rw [scanned, if_neg hc, show x ++ spaced c :: scanned (d :: s) =
      (x ++ [spaced c]) ++ scanned (d :: s) by rw [List.append_assoc]; rfl]
    exact ⟨m₂, hrun.trans hrest, hlen₂.trans hlen₁, hm₂⟩

theorem removeCTRLCharacters_scanned (h : Contents b s) :
    ∃ b', b.removeCTRLCharacters = .ok (.errNoError, b') ∧ Contents b' (scanned s) := by
  obtain ⟨m', hrun, hlen, hm'⟩ := removeCTRLLoop_scanned s (s.length + 1) b.pBuffer [] h.split
    (Nat.lt_succ_self _)
  refine ⟨_, ?_, h.rewrite hm' hlen⟩
  rw [removeCTRLCharacters, if_neg (not_not.mpr h.status), h.chars]
  rw [List.nil_append] at hrun
  show (removeCTRLLoop (s.length + 1) b.pBuffer s.length ([] : List UInt8).length >>= _) = _
  rw [hrun]
  rfl

/-! ### Where it is what it should be -/

/-- A byte that should not be left. -/
def IsBad (c : UInt8) : Prop := iscntrl c = true ∨ c = 160

instance (c : UInt8) : Decidable (IsBad c) := inferInstanceAs (Decidable (_ ∨ _))

/-- No control character has such a byte right behind it. -/
def Apart (s : List UInt8) : Prop := s.IsChain fun c d => iscntrl c = true → ¬IsBad d

theorem not_isBad_of_mem_cleaned {c : UInt8} (h : c ∈ cleaned s) : ¬IsBad c := by
  obtain ⟨a, ha, rfl⟩ := List.mem_map.mp h
  have hcntrl : iscntrl a = false := by simpa using (List.mem_filter.mp ha).2
  unfold spaced
  split
  · decide
  · next hspace =>
    rintro (hbad | hbad)
    · exact absurd (hcntrl.symm.trans hbad) nofun
    · exact hspace hbad

theorem cleaned_cons_of_cntrl {c : UInt8} (hc : iscntrl c = true) (s : List UInt8) :
    cleaned (c :: s) = cleaned s := by
  unfold cleaned
  rw [List.filter_cons_of_neg (by rw [hc]; exact nofun)]

theorem cleaned_cons_of_not_cntrl {c : UInt8} (hc : ¬iscntrl c = true) (s : List UInt8) :
    cleaned (c :: s) = spaced c :: cleaned s := by
  unfold cleaned
  rw [List.filter_cons_of_pos (by rw [Bool.eq_false_iff.mpr hc]; rfl), List.map_cons]

theorem scanned_eq_cleaned_iff (s : List UInt8) : scanned s = cleaned s ↔ Apart s := by
  induction s using scanned.induct with
  | case1 => exact iff_of_true rfl List.IsChain.nil
  | case2 c hc =>
    rw [scanned, if_pos hc, cleaned_cons_of_cntrl hc]
    exact iff_of_true rfl (List.IsChain.singleton c)
  | case3 c hc =>
    rw [scanned, if_neg hc, cleaned_cons_of_not_cntrl hc]
    exact iff_of_true rfl (List.IsChain.singleton c)
  | case4 c d s hc ih =>
    rw [scanned, if_pos hc, cleaned_cons_of_cntrl hc]
    unfold Apart at ih ⊢
    rw [List.isChain_cons_cons]
    by_cases hd : IsBad d
    · -- the byte that is passed over should not be left
      refine iff_of_false (fun h => ?_) fun h => h.1 hc hd
      exact not_isBad_of_mem_cleaned (h ▸ List.mem_cons_self) hd
    · have hd' : ¬iscntrl d = true := fun h => hd (Or.inl h)
      have hspaced : spaced d = d := if_neg fun h => hd (Or.inr h)
      rw [cleaned_cons_of_not_cntrl hd', hspaced, List.cons_inj_right, ih]
      constructor
      · intro hs
        refine ⟨fun _ => hd, ?_⟩
        cases s with
        | nil => exact List.IsChain.singleton d
        | cons a s => exact List.isChain_cons_cons.mpr ⟨fun h => absurd h hd', hs⟩
      · exact fun h => h.2.tail
  | case5 c d s hc ih =>
    rw [scanned, if_neg hc, cleaned_cons_of_not_cntrl hc, List.cons_inj_right, ih]
    unfold Apart
    rw [List.isChain_cons_cons]
    exact ⟨fun h => ⟨fun hc' => absurd hc' hc, h⟩, fun h => h.2⟩

/-- A buffer has one contents. -/
theorem Contents.unique (h : Contents b s) (h' : Contents b t) : s = t := by
  obtain ⟨rest, hrest⟩ := h.split
  obtain ⟨rest', hrest'⟩ := h'.split
  have hlength : (s.map some).length = (t.map some).length := by
    rw [List.length_map, List.length_map]
    exact h.chars.symm.trans h'.chars
  have hcells := (List.append_inj (hrest.symm.trans hrest') hlength).1
  exact List.map_injective_iff.mpr (fun c d h => Option.some.inj h) hcells

/-- **`removeCTRLCharacters` removes the control characters** just when no control character has
another one, or a byte 0xA0, right behind it. -/
theorem removeCTRLCharacters_iff (h : Contents b s) :
    (∃ b', b.removeCTRLCharacters = .ok (.errNoError, b') ∧ Contents b' (cleaned s)) ↔ Apart s := by
  obtain ⟨b₁, hb₁, hc₁⟩ := removeCTRLCharacters_scanned h
  rw [← scanned_eq_cleaned_iff]
  constructor
  · rintro ⟨b', hb', hc'⟩
    obtain ⟨-, rfl⟩ := Prod.mk.inj (Except.ok.inj (hb₁.symm.trans hb'))
    exact hc₁.unique hc'
  · intro hs
    exact ⟨b₁, hb₁, hs ▸ hc₁⟩

theorem removeCTRLCharacters_iff_letters :
    (∃ b', holdingABA.removeCTRLCharacters = .ok (.errNoError, b') ∧
        Contents b' (cleaned [65, 66, 65])) ↔ Apart [65, 66, 65] :=
  removeCTRLCharacters_iff holdingABA_contents

/-- The bytes of a CR LF. -/
def holdingLineEnd : Buffer := ⟨.initialized, true, 2, 2, 2, [some 13, some 10, some 0, none]⟩

theorem holdingLineEnd_contents : Contents holdingLineEnd [13, 10] :=
  ⟨rfl, rfl, by decide, by decide, rfl, by decide, rfl, [none], rfl⟩

/-- Of a CR LF the LF stays. -/
theorem not_removeCTRLCharacters_lineEnd : Contents holdingLineEnd [13, 10] ∧
    (holdingLineEnd.removeCTRLCharacters).map (fun r => r.2.ullCharsNumber) = .ok 1 ∧
    ¬∃ b', holdingLineEnd.removeCTRLCharacters = .ok (.errNoError, b') ∧
      Contents b' (cleaned [13, 10]) := by
  have hrun : (holdingLineEnd.removeCTRLCharacters).map (fun r => r.2.ullCharsNumber) = .ok 1 := by
    decide +kernel
  refine ⟨holdingLineEnd_contents, hrun, ?_⟩
  rintro ⟨b', hb', hc'⟩
  rw [hb'] at hrun
  have hchars : b'.ullCharsNumber = 1 := Except.ok.inj hrun
  exact absurd (hchars.symm.trans hc'.chars) (by decide)

end Buffer

end CatraLibraries
