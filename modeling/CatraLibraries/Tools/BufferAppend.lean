/-
# Runs of append with an explicit length

`append (p, n)` grows the storage by what `strlen` sees of it and copies to
`ullCharsNumber`.  This file follows whole runs of appends from `init ("")`, whose
blocks may contain any bytes: the run keeps every byte, and stays inside its
storage, exactly when each append meets `AppendFits` in the state it starts from.
A run without zero bytes always does; a run with them may not, and a short one that
writes past the storage is given.
-/
import CatraLibraries.Tools.BufferGrowth

namespace CatraLibraries

open Memory CString

namespace Buffer

/-! ### Initialization -/

/-- A buffer between `finish` and `init`; storage it has kept is intact. -/
structure Idle (b : Buffer) : Prop where
  status : b.bsBufferStatus = .builded
  kept : b.bMemoryAllocated = true → ∃ t, Storage b t

theorem built_idle : Idle built := ⟨rfl, by simp [built]⟩

/-- Storage that holds no bytes: none at all yet, or blocks that start with a NUL. -/
def Emptied (b : Buffer) : Prop :=
  b.lBufferBlockNumber = 0 ∨ (b.bMemoryAllocated = true ∧ Storage b [])

/-- The first half of `init` leaves storage without bytes and the block size asked for. -/
theorem reuseMemory_spec {b : Buffer} (h : Idle b) (size : Nat) :
    ∃ b', b.reuseMemory size = .ok b' ∧ b'.bsBufferStatus = .builded ∧
      b'.lBufferBlockNumberOnOverflow = size ∧ Emptied b' := by
  unfold reuseMemory
  by_cases halloc : b.bMemoryAllocated = true
  · obtain ⟨t, ht⟩ := h.kept halloc
    by_cases hsame : b.lBufferBlockNumberOnOverflow = size
    · have hpos : b.lBufferBlockNumber * b.lBufferBlockNumberOnOverflow > 0 :=
        Nat.mul_pos (Nat.pos_of_ne_zero ht.blocks) ht.size_pos
      obtain ⟨m', hm', hlen, hholds⟩ := ht.holds.store_nul (Nat.zero_le _)
      refine ⟨{ b with pBuffer := m' }, ?_, h.status, hsame, Or.inr ⟨halloc, ?_⟩⟩
      · simp only [halloc, hsame, Bool.not_true, Bool.false_eq_true, ne_eq, not_true_eq_false,
          if_false, hsame ▸ hpos, if_true, hm', ok_bind]
        rfl
      · exact ⟨ht.size_pos, ht.blocks, hlen.trans ht.length_eq, ht.bounded,
          by simpa using hholds⟩
    · refine ⟨b.withoutStorage size, ?_, h.status, rfl, Or.inl rfl⟩
      simp [halloc, hsame]
  · refine ⟨b.withoutStorage size, ?_, h.status, rfl, Or.inl rfl⟩
    simp [halloc]

/-- Room for `n` bytes and a NUL in storage that holds no bytes. -/
theorem alloc_emptied {b : Buffer} (h : Emptied b) (hsize : 0 < b.lBufferBlockNumberOnOverflow)
    (n : Nat) :
    b.allocMemoryBlockForBufferIfNecessary n = .error .badAlloc ∨
      ∃ b', b.allocMemoryBlockForBufferIfNecessary n = .ok b' ∧ Storage b' [] ∧
        b'.bMemoryAllocated = true ∧ n < b'.capacity ∧
        b'.bsBufferStatus = b.bsBufferStatus := by
  have hroom := lt_grownCapacity hsize n
  have hgrown : b.grownCapacity n ≤ maxAllocation → Storage (b.grown [] n) [] :=
    grown_storage n hsize (by simp) (by simp)
  rcases h with hzero | ⟨halloc, hst⟩
  · rw [alloc_fresh hsize hzero]
    split
    · next hmax => exact Or.inr ⟨_, rfl, hgrown hmax, rfl, hroom, rfl⟩
    · exact Or.inl rfl
  · have heq := alloc_storage hst n
    simp only [List.length_nil, Nat.zero_add] at heq
    rw [heq]
    split
    · split
      · next hmax => exact Or.inr ⟨_, rfl, hgrown hmax, rfl, hroom, rfl⟩
      · exact Or.inl rfl
    · next hno =>
      refine Or.inr ⟨b, rfl, hst, halloc, ?_, rfl⟩
      unfold Grows at hno
      omega

/-- Storage that starts with `t` after a `strcpy` is the contents `t`. -/
theorem contents_of_holds {b : Buffer} {t : List UInt8} {m : Cells UInt8}
    (hst : Storage b []) (halloc : b.bMemoryAllocated = true) (hm : Holds m t)
    (hlen : m.length = b.pBuffer.length) :
    Contents { b with
      pBuffer := m
      ullCharsNumber := t.length
      bsBufferStatus := .initialized } t :=
  ⟨rfl, halloc, hst.size_pos, hst.blocks, hlen.trans hst.length_eq, hst.bounded, rfl, hm.split⟩

/-- **`init` with a string.**  It fails to get memory, or holds that string. -/
theorem init_string {b : Buffer} (h : Idle b) {src : Cells UInt8} {t : List UInt8}
    (hsrc : Holds src t) {size : Int} (hsize : 0 < size) :
    b.init (some src) (-1) size = .error .badAlloc ∨
      ∃ b', b.init (some src) (-1) size = .ok (.errNoError, b') ∧ Contents b' t := by
  obtain ⟨b₁, hb₁, hstatus, hsz, hemp⟩ := reuseMemory_spec h size.toNat
  have hinit : b.init (some src) (-1) size = (do
      let b ← b₁.allocMemoryBlockForBufferIfNecessary t.length
      let mem ← strcpy b.pBuffer 0 src
      return (.errNoError, { b with
        pBuffer := mem, ullCharsNumber := t.length, bsBufferStatus := .initialized })) := by
    unfold init
    simp only [h.status, hb₁, hsrc.strlen_eq, ok_bind, ne_eq, not_true_eq_false, if_false,
      if_true, and_false, false_or, if_neg (show ¬ size ≤ 0 by omega)]
  rcases alloc_emptied hemp (by omega) t.length with hbad | ⟨b₂, hb₂, hst, halloc, hroom, -⟩
  · exact Or.inl (by rw [hinit, hbad, error_bind])
  · obtain ⟨m, hcpy, hlen, hm, -⟩ := hsrc.strcpy_eq b₂.pBuffer (by rw [hst.length_eq]; exact hroom)
    refine Or.inr ⟨_, ?_, contents_of_holds hst halloc hm hlen⟩
    rw [hinit, hb₂, ok_bind, hcpy]
    rfl

theorem initEmpty_spec {b : Buffer} (h : Idle b) :
    b.initEmpty = .error .badAlloc ∨
      ∃ b', b.initEmpty = .ok (.errNoError, b') ∧ Contents b' [] :=
  init_string h (t := []) ⟨by simp, [], rfl⟩ (by decide)

/-! ### One append -/

/-- On an initialized buffer `append` with a length is just its last part. -/
theorem append_length_eq {b : Buffer} (h : b.bsBufferStatus = .initialized)
    (src : Cells UInt8) (n : Nat) : b.append (some src) n = b.appendBytes src n := by
  have hnonneg : ¬ ((n : Int) < 0 ∧ (n : Int) ≠ -1) := by omega
  have hne : ¬ (n : Int) = -1 := by omega
  rw [append, if_neg hnonneg, if_neg (by simp [h]), ok_bind]
  simp [hne]

section Step

variable {b : Buffer} {s p : List UInt8} {src : Cells UInt8}

/-- What an append does to storage that shows the string `t`, all cases. -/
theorem append_storage {t : List UInt8} (hstatus : b.bsBufferStatus = .initialized)
    (hst : Storage b t) (hsrc : src.take p.length = p.map some) (hlen : p.length ≤ src.length) :
    b.append (some src) p.length =
      if b.Grows t.length p.length then
        if b.grownCapacity (t.length + p.length) ≤ maxAllocation then
          if b.ullCharsNumber + p.length < b.grownCapacity (t.length + p.length) then
            .ok (.errNoError, (b.grown t (t.length + p.length)).extended p)
          else .error .outOfBounds
        else .error .badAlloc
      else
        if b.ullCharsNumber + p.length < b.capacity then .ok (.errNoError, b.extended p)
        else .error .outOfBounds := by
  have hgr := grown_storage (t.length + p.length) hst.size_pos
    hst.holds.nulFree (Nat.le_add_right _ _)
  rw [append_length_eq hstatus, appendBytes_eq b hsrc hlen, alloc_storage hst]
  by_cases hg : b.Grows t.length p.length
  · rw [if_pos hg, if_pos hg]
    by_cases hc : b.grownCapacity (t.length + p.length) ≤ maxAllocation
    · rw [if_pos hc, if_pos hc, ok_bind, (hgr hc).length_eq, grown_ullCharsNumber]
      rfl
    · rw [if_neg hc, if_neg hc, error_bind]
  · rw [if_neg hg, if_neg hg, ok_bind, hst.length_eq]

/-- **An append that fits keeps every byte.** -/
theorem append_of_fits (h : Contents b s) (hsrc : src.take p.length = p.map some)
    (hlen : p.length ≤ src.length) (hfit : b.AppendFits (visible s).length p.length) :
    b.append (some src) p.length = .error .badAlloc ∨
      ∃ b', b.append (some src) p.length = .ok (.errNoError, b') ∧ Contents b' (s ++ p) := by
  have hst := h.storage
  have hgr := grown_storage ((visible s).length + p.length) hst.size_pos
    hst.holds.nulFree (Nat.le_add_right _ _)
  rw [append_storage h.status hst hsrc hlen, h.chars]
  unfold AppendFits at hfit
  rw [h.chars] at hfit
  by_cases hg : b.Grows (visible s).length p.length
  · rw [if_pos hg] at hfit ⊢
    by_cases hc : b.grownCapacity ((visible s).length + p.length) ≤ maxAllocation
    · obtain ⟨hkeep, hroom⟩ := hfit hc
      rw [if_pos hc, if_pos hroom]
      refine Or.inr ⟨_, rfl, extended_contents p h.status rfl ⟨_, hgr hc⟩ h.chars ?_ ?_⟩
      · exact take_grown b _ hkeep
      · rw [(hgr hc).length_eq]; exact hroom
    · rw [if_neg hc]
      exact Or.inl rfl
  · rw [if_neg hg] at hfit ⊢
    rw [if_pos hfit]
    refine Or.inr ⟨_, rfl, extended_contents p h.status h.allocated ⟨_, hst⟩ h.chars
      h.take_eq ?_⟩
    rw [h.length_eq]; exact hfit

theorem extended_take (b : Buffer) (hchars : b.ullCharsNumber = s.length)
    (hroom : s.length ≤ b.pBuffer.length) (p : List UInt8) :
    (b.extended p).pBuffer.take s.length = b.pBuffer.take s.length := by
  simp only [extended, hchars, List.append_assoc]
  exact List.take_left' (by rw [List.length_take]; omega)

/-- **An append that keeps every byte fits.** -/
theorem fits_of_append (h : Contents b s) (hsrc : src.take p.length = p.map some)
    (hlen : p.length ≤ src.length)
    (hok : b.append (some src) p.length = .error .badAlloc ∨
      ∃ e b', b.append (some src) p.length = .ok (e, b') ∧ Stores b' (s ++ p)) :
    b.AppendFits (visible s).length p.length := by
  rw [append_storage h.status h.storage hsrc hlen, h.chars] at hok
  unfold AppendFits
  rw [h.chars]
  by_cases hg : b.Grows (visible s).length p.length
  · rw [if_pos hg] at hok ⊢
    intro hc
    rw [if_pos hc] at hok
    by_cases hroom : s.length + p.length < b.grownCapacity ((visible s).length + p.length)
    · refine ⟨?_, hroom⟩
      rw [if_pos hroom] at hok
      obtain hbad | ⟨e, b', hb', hstores, htake⟩ := hok
      · exact absurd hbad (by simp)
      · -- the bytes before the new ones come from the reallocated storage
        by_contra hlost
        have hgr : Storage (b.grown (visible s) ((visible s).length + p.length)) (visible s) :=
          grown_storage _ h.size_pos (zero_notMem_visible s) (Nat.le_add_right _ _) hc
        have hle : s.length
            ≤ (b.grown (visible s) ((visible s).length + p.length)).pBuffer.length := by
          rw [hgr.length_eq]
          exact Nat.le_of_lt (Nat.lt_of_le_of_lt (Nat.le_add_right _ _) hroom)
        obtain ⟨-, rfl⟩ := Prod.mk.inj (Except.ok.inj hb')
        refine take_grown_ne (b := b) (s := s) ((visible s).length + p.length)
          (by omega) (by omega) ?_
        rw [hstores, List.length_append] at htake
        have hpre := congrArg (List.take s.length) htake
        rw [List.take_take, Nat.min_eq_left (Nat.le_add_right _ _),
          extended_take (b.grown (visible s) _) h.chars hle p,
          List.map_append, List.take_left' (by simp)] at hpre
        exact hpre
    · rw [if_neg hroom] at hok
      obtain hbad | ⟨e, b', hb', -⟩ := hok
      · exact absurd hbad (by simp)
      · exact absurd hb' (by simp)
  · rw [if_neg hg] at hok ⊢
    by_contra hroom
    rw [if_neg hroom] at hok
    obtain hbad | ⟨e, b', hb', -⟩ := hok
    · exact absurd hbad (by simp)
    · exact absurd hb' (by simp)

end Step

/-! ### Runs -/

/-- The calls `append (p, n)`, one for each block. -/
def appendAll (b : Buffer) : List (List UInt8) → Except Fault Buffer
  | [] => .ok b
  | p :: ps => do
    let (_, b) ← b.append (some (p.map some)) p.length
    b.appendAll ps

theorem appendAll_concat (b : Buffer) (ps : List (List UInt8)) (p : List UInt8) :
    b.appendAll (ps ++ [p]) =
      (b.appendAll ps >>= fun b' =>
        b'.append (some (p.map some)) p.length >>= fun r => .ok r.2) := by
  induction ps generalizing b with
  | nil => rfl
  | cons q ps ih =>
    simp only [List.cons_append, appendAll, ih, bind_assoc]

/-- Every call of the run succeeds and keeps all the bytes appended so far, unless
`new` throws. -/
def AppendsStore (b : Buffer) (blocks : List (List UInt8)) : Prop :=
  ∀ done, done <+: blocks →
    b.appendAll done = .error .badAlloc ∨
      ∃ b', b.appendAll done = .ok b' ∧ Stores b' done.flatten

/-- Every call of the run starts from a state in which its block fits. -/
def AppendsFit (b : Buffer) (blocks : List (List UInt8)) : Prop :=
  ∀ done p, done ++ [p] <+: blocks → ∀ b', b.appendAll done = .ok b' →
    ∃ l, strlen b'.pBuffer = .ok l ∧ b'.AppendFits l p.length

theorem take_map_some (p : List UInt8) : (p.map some).take p.length = p.map some :=
  List.take_of_length_le (by simp)

/-- A run whose steps all fit keeps the invariant. -/
theorem appendAll_contents {b : Buffer} (h : Contents b []) {blocks : List (List UInt8)}
    (hfits : AppendsFit b blocks) :
    ∀ done, done <+: blocks → b.appendAll done = .error .badAlloc ∨
      ∃ b', b.appendAll done = .ok b' ∧ Contents b' done.flatten := by
  intro done
  induction done using List.reverseRecOn with
  | nil => exact fun _ => Or.inr ⟨b, rfl, h⟩
  | append_singleton done p ih =>
    intro hpre
    rw [appendAll_concat]
    rcases ih ((List.prefix_append _ _).trans hpre) with hbad | ⟨b₁, hb₁, hc₁⟩
    · exact Or.inl (by rw [hbad, error_bind])
    · obtain ⟨l, hl, hfit⟩ := hfits done p hpre b₁ hb₁
      obtain rfl : l = (visible done.flatten).length :=
        Except.ok.inj (hl.symm.trans hc₁.storage.holds.strlen_eq)
      rw [hb₁, ok_bind]
      rcases append_of_fits hc₁ (take_map_some p) (by simp) hfit with hbad | ⟨b₂, hb₂, hc₂⟩
      · exact Or.inl (by rw [hbad, error_bind])
      · exact Or.inr ⟨b₂, by rw [hb₂, ok_bind], by simpa using hc₂⟩

/-- A run that keeps all the bytes keeps the invariant. -/
theorem contents_of_stores {b : Buffer} (h : Contents b []) {blocks : List (List UInt8)}
    (hstores : AppendsStore b blocks) :
    ∀ done, done <+: blocks → ∀ b', b.appendAll done = .ok b' →
      Contents b' done.flatten := by
  intro done
  induction done using List.reverseRecOn with
  | nil =>
    intro _ b' hb'
    obtain rfl := Except.ok.inj hb'
    exact h
  | append_singleton done p ih =>
    intro hpre b' hb'
    have hdone := hstores _ hpre
    rw [appendAll_concat] at hb' hdone
    obtain ⟨b₁, hb₁, hstep⟩ := bind_eq_ok.mp hb'
    obtain ⟨⟨e, b₂⟩, hb₂, heq⟩ := bind_eq_ok.mp hstep
    obtain rfl : b₂ = b' := Except.ok.inj heq
    have hc₁ := ih ((List.prefix_append _ _).trans hpre) b₁ hb₁
    rw [hb₁, ok_bind, hb₂, ok_bind] at hdone
    obtain hbad | ⟨b₃, hb₃, hst⟩ := hdone
    · exact absurd hbad (by simp)
    · obtain rfl : b₂ = b₃ := Except.ok.inj hb₃
      have hfit := fits_of_append hc₁ (take_map_some p) (by simp)
        (Or.inr ⟨e, b₂, hb₂, by simpa using hst⟩)
      rcases append_of_fits hc₁ (take_map_some p) (by simp) hfit with hbad | ⟨b₄, hb₄, hc₄⟩
      · exact absurd (hb₂.symm.trans hbad) (by simp)
      · obtain ⟨-, rfl⟩ := Prod.mk.inj (Except.ok.inj (hb₂.symm.trans hb₄))
        simpa using hc₄

theorem fits_of_stores {b : Buffer} (h : Contents b []) {blocks : List (List UInt8)}
    (hstores : AppendsStore b blocks) : AppendsFit b blocks := by
  intro done p hpre b₁ hb₁
  have hc₁ := contents_of_stores h hstores done ((List.prefix_append _ _).trans hpre) b₁ hb₁
  refine ⟨_, hc₁.storage.holds.strlen_eq, fits_of_append hc₁ (take_map_some p) (by simp) ?_⟩
  have hdone := hstores _ hpre
  rw [appendAll_concat, hb₁, ok_bind] at hdone
  cases hres : b₁.append (some (p.map some)) p.length with
  | error f =>
    rw [hres, error_bind] at hdone
    obtain hbad | ⟨b₂, hb₂, -⟩ := hdone
    · exact Or.inl (congrArg Except.error (Except.error.inj hbad))
    · exact absurd hb₂ (by simp)
  | ok r =>
    rw [hres, ok_bind] at hdone
    obtain hbad | ⟨b₂, hb₂, hst⟩ := hdone
    · exact absurd hbad (by simp)
    · obtain rfl : r.2 = b₂ := Except.ok.inj hb₂
      exact Or.inr ⟨r.1, r.2, rfl, by simpa using hst⟩

/-- **Runs of `append` from `init ("")`.**  Every call keeps all the bytes and stays
inside the storage if and only if every call starts from a state in which its block
fits. -/
theorem appendsStore_iff {b₀ b : Buffer} (hidle : Idle b₀)
    (hinit : b₀.initEmpty = .ok (.errNoError, b)) (blocks : List (List UInt8)) :
    AppendsStore b blocks ↔ AppendsFit b blocks := by
  have h : Contents b [] := by
    rcases initEmpty_spec hidle with hbad | ⟨b', hb', hc⟩
    · exact absurd (hinit.symm.trans hbad) (by simp)
    · obtain ⟨-, rfl⟩ := Prod.mk.inj (Except.ok.inj (hinit.symm.trans hb'))
      exact hc
  constructor
  · exact fits_of_stores h
  · intro hfits done hpre
    rcases appendAll_contents h hfits done hpre with hbad | ⟨b', hb', hc⟩
    · exact Or.inl hbad
    · exact Or.inr ⟨b', hb', hc.stores⟩

theorem appendsStore_iff_text :
    ∃ b, built.initEmpty = .ok (.errNoError, b) ∧
      (AppendsStore b [[72], [105]] ↔ AppendsFit b [[72], [105]]) :=
  ⟨_, rfl, appendsStore_iff built_idle rfl [[72], [105]]⟩

/-- Two small blocks, the first with a zero byte: the second is copied past the end of
the four bytes of storage. -/
theorem append_zero_byte_overflows :
    (built.initEmpty >>= fun r => r.2.appendAll [[0, 65, 65], [65, 65]])
        = .error .outOfBounds ∧
      ¬ ∀ b blocks, built.initEmpty = .ok (.errNoError, b) → AppendsStore b blocks := by
  refine ⟨rfl, fun h => ?_⟩
  rcases h _ [[0, 65, 65], [65, 65]] rfl _ (List.prefix_refl _) with hbad | ⟨b', hb', -⟩
  · exact absurd hbad (by rintro ⟨⟩)
  · exact absurd hb' (by rintro ⟨⟩)

/-! ### The end of a run tells about all of it -/

/-- An initialized buffer with whole blocks of storage, whatever they show. -/
structure InUse (b : Buffer) : Prop where
  status : b.bsBufferStatus = .initialized
  size_pos : 0 < b.lBufferBlockNumberOnOverflow
  blocks : b.lBufferBlockNumber ≠ 0
  length_eq : b.pBuffer.length = b.capacity
  bounded : b.capacity ≤ maxAllocation

theorem Contents.inUse {b : Buffer} {s : List UInt8} (h : Contents b s) : InUse b :=
  ⟨h.status, h.size_pos, h.blocks, h.length_eq, h.bounded⟩

theorem InUse.length_eq_chars {b : Buffer} (h : InUse b) : b.length = b.ullCharsNumber := by
  rw [Buffer.length, if_neg (by simp [h.status]), if_neg h.blocks]

theorem take_append_cons {α : Type} (l : List α) (c : α) (x : List α) {n : Nat}
    (h : n ≤ l.length + 1) : (l ++ c :: x).take n = (l ++ [c]).take n := by
  rw [List.append_cons, List.take_append_of_le_length (by simpa using h)]

/-- Once the first `ullCharsNumber` cells are not the bytes `s`, they never are again:
bytes lost at a reallocation stay lost. -/
theorem append_back {b b' : Buffer} {e : ToolsError} {s p : List UInt8} {src : Cells UInt8}
    (hu : InUse b) (hchars : b.ullCharsNumber = s.length)
    (hsrc : src.take p.length = p.map some) (hlen : p.length ≤ src.length)
    (h : b.append (some src) p.length = .ok (e, b')) :
    e = .errNoError ∧ InUse b' ∧ b'.ullCharsNumber = (s ++ p).length ∧
      (Stores b' (s ++ p) → Stores b s) := by
  -- the append has found a NUL in the storage
  obtain ⟨t, ht⟩ : ∃ t, Holds b.pBuffer t := by
    cases hstr : cstr b.pBuffer with
    | ok t => exact ⟨t, holds_of_cstr_eq hstr⟩
    | error f =>
      rw [append_length_eq hu.status, appendBytes, allocMemoryBlockForBufferIfNecessary,
        if_pos hu.blocks, strlen, hstr] at h
      exact absurd h (by rintro ⟨⟩)
  have hst : Storage b t := ⟨hu.size_pos, hu.blocks, hu.length_eq, hu.bounded, ht⟩
  have key : ∀ x : Buffer, InUse x → x.ullCharsNumber = s.length →
      s.length + p.length < x.pBuffer.length →
      InUse (x.extended p) ∧ (x.extended p).ullCharsNumber = (s ++ p).length ∧
        (Stores (x.extended p) (s ++ p) → x.pBuffer.take s.length = s.map some) := by
    intro x hx hxc hroom
    have hin : InUse (x.extended p) := by
      refine ⟨hx.status, hx.size_pos, hx.blocks, ?_, hx.bounded⟩
      show (x.extended p).pBuffer.length = x.capacity
      simp only [extended, hxc, List.length_append, List.length_take, List.length_map,
        List.length_cons, List.length_drop, ← hx.length_eq]
      omega
    have hxn : (x.extended p).ullCharsNumber = (s ++ p).length := by
      simp only [extended, hxc, List.length_append]
    refine ⟨hin, hxn, fun hstores => ?_⟩
    obtain ⟨-, htake⟩ := hstores
    rw [hin.length_eq_chars, hxn] at htake
    have hpre := congrArg (List.take s.length) htake
    rwa [List.take_take, Nat.min_eq_left (by simp), extended_take x hxc (by omega) p,
      List.map_append, List.take_left' (by simp)] at hpre
  rw [append_storage hu.status hst hsrc hlen, hchars] at h
  have hstores : b.pBuffer.take s.length = s.map some → Stores b s := fun htake =>
    ⟨hu.length_eq_chars.trans hchars, by rw [hu.length_eq_chars, hchars, htake]⟩
  split_ifs at h with hg hmax hroom hroom
  · obtain ⟨rfl, rfl⟩ := Prod.mk.inj (Except.ok.inj h)
    have hgr := grown_storage (t.length + p.length) hu.size_pos ht.nulFree
      (Nat.le_add_right _ _) hmax
    obtain ⟨hin, hn, hback⟩ := key (b.grown t (t.length + p.length))
      ⟨hu.status, hgr.size_pos, hgr.blocks, hgr.length_eq, hgr.bounded⟩ hchars
      (by rw [hgr.length_eq]; exact hroom)
    refine ⟨rfl, hin, hn, fun hs => hstores ?_⟩
    -- no unwritten cell is among the first ones, so all of them were carried over
    have htake := hback hs
    have hcarried : s.length ≤ t.length + 1 := by
      by_contra hlost
      have hcell := congrArg (fun l => l[t.length + 1]?) htake
      simp only [grown, List.getElem?_map] at hcell
      rw [List.getElem?_take_of_lt (by omega), List.getElem?_append_right (by simp),
        List.length_map, Nat.add_sub_cancel_left, List.getElem?_cons_succ,
        List.getElem?_replicate, if_pos (by omega), List.getElem?_eq_getElem (by omega)] at hcell
      simp at hcell
    obtain ⟨rest, hrest⟩ := ht.split
    rw [← htake, hrest]
    exact (take_append_cons _ _ _ (by simpa using hcarried)).trans
      (take_append_cons _ _ _ (by simpa using hcarried)).symm
  · obtain ⟨rfl, rfl⟩ := Prod.mk.inj (Except.ok.inj h)
    obtain ⟨hin, hn, hback⟩ := key b hu hchars (by rw [hu.length_eq]; exact hroom)
    exact ⟨rfl, hin, hn, fun hs => hstores (hback hs)⟩

theorem append_inUse {b b' : Buffer} {e : ToolsError} {p : List UInt8} {src : Cells UInt8}
    (hu : InUse b) (hsrc : src.take p.length = p.map some) (hlen : p.length ≤ src.length)
    (h : b.append (some src) p.length = .ok (e, b')) : e = .errNoError ∧ InUse b' := by
  obtain ⟨s, hs⟩ : ∃ s : List UInt8, b.ullCharsNumber = s.length :=
    ⟨List.replicate b.ullCharsNumber 0, List.length_replicate.symm⟩
  obtain ⟨he, hin, -⟩ := append_back hu hs hsrc hlen h
  exact ⟨he, hin⟩

/-- Where a run of appends leads, and what its last state says about the others: a run
that ends with all its bytes in place had them in place all along. -/
theorem appendAll_back {b : Buffer} (h : Contents b []) :
    ∀ (done : List (List UInt8)) (b' : Buffer), b.appendAll done = .ok b' →
      InUse b' ∧ b'.ullCharsNumber = done.flatten.length ∧
        (Stores b' done.flatten → AppendsStore b done) := by
  intro done
  induction done using List.reverseRecOn with
  | nil =>
    intro b' hb'
    obtain rfl := Except.ok.inj hb'
    refine ⟨h.inUse, h.chars, fun _ done hpre => Or.inr ⟨b, ?_, ?_⟩⟩
    · rw [List.prefix_nil.mp hpre]; rfl
    · rw [List.prefix_nil.mp hpre]; exact h.stores
  | append_singleton done p ih =>
    intro b' hb'
    have hwhole := hb'
    rw [appendAll_concat] at hb'
    obtain ⟨b₁, hb₁, hstep⟩ := bind_eq_ok.mp hb'
    obtain ⟨⟨e, b₂⟩, hb₂, heq⟩ := bind_eq_ok.mp hstep
    obtain rfl : b₂ = b' := Except.ok.inj heq
    obtain ⟨hin, hn, hall⟩ := ih b₁ hb₁
    obtain ⟨-, hin₂, hn₂, hback⟩ := append_back hin hn (take_map_some p) (by simp) hb₂
    refine ⟨hin₂, by simpa using hn₂, fun hs q hpre => ?_⟩
    rcases List.prefix_concat_iff.mp hpre with rfl | hpre
    · exact Or.inr ⟨b₂, hwhole, hs⟩
    · exact hall (hback (by simpa using hs)) q hpre

/-- An append reads no more of its argument than the bytes it is told to. -/
theorem append_congr (b : Buffer) (p : List UInt8) (src : Cells UInt8)
    (hsrc : src.take p.length = p.map some) (hlen : p.length ≤ src.length) :
    b.append (some src) p.length = b.append (some (p.map some)) p.length := by
  have hbytes : ∀ b : Buffer,
      b.appendBytes src p.length = b.appendBytes (p.map some) p.length := by
    intro b
    rw [appendBytes_eq b hsrc hlen, appendBytes_eq b (take_map_some p) (by simp)]
  have hne : ¬ ((p.length : Int) = -1) := by omega
  simp only [append, if_neg hne, Int.toNat_natCast, hbytes]

/-! ### Blocks without zero bytes -/

/-- Behind contents without a zero byte every block fits. -/
theorem fits_of_nulFree {b : Buffer} {s : List UInt8} (h : Contents b s) (hs : 0 ∉ s)
    (n : Nat) : b.AppendFits (visible s).length n := by
  have hroom := lt_grownCapacity h.size_pos (s.length + n)
  unfold AppendFits
  rw [visible_eq_self hs, h.chars]
  split
  · exact fun _ => ⟨Nat.le_succ _, hroom⟩
  · next hno =>
    unfold Grows at hno
    omega

/-- Behind contents without a zero byte an append adds its block. -/
theorem append_contents {b : Buffer} {s p : List UInt8} {src : Cells UInt8}
    (h : Contents b s) (hs : 0 ∉ s) (hsrc : src.take p.length = p.map some)
    (hlen : p.length ≤ src.length) :
    b.append (some src) p.length = .error .badAlloc ∨
      ∃ b', b.append (some src) p.length = .ok (.errNoError, b') ∧ Contents b' (s ++ p) :=
  append_of_fits h hsrc hlen (fits_of_nulFree h hs p.length)

end Buffer

end CatraLibraries
