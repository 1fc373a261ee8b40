/-
# Growth of the buffer, and appending arbitrary bytes

What `allocMemoryBlockForBufferIfNecessary` does to storage that holds a string,
and what that means for `append` with an explicit length, where the appended bytes
may include zeros.

The decision to grow and the copy of the old storage both stop at the first NUL of
the storage, at `L = strlen (pBuffer)`, while the new bytes go to `N =
ullCharsNumber`.  Without zero bytes `L = N`.  With them the two part, and
`AppendFits` is the exact condition on the state before an append under which the
append still works.
-/
import CatraLibraries.Tools.Buffer

namespace CatraLibraries

open Memory CString

namespace Buffer

/-! ### The number of blocks -/

/-- **The `do … while` loop computes a maximum.**  It takes at least one step and
stops at the first number of blocks with more than `need` bytes. -/
theorem growBlockNumber_eq {size : Nat} (hsize : 0 < size) (need : Nat) :
    ∀ fuel k, need / size ≤ k + fuel →
      growBlockNumber size need (fuel + 1) k = .ok (max (k + 1) (need / size + 1)) := by
  intro fuel
  induction fuel with
  | zero =>
    intro k hk
    have hlt : need < (k + 1) * size := (Nat.div_lt_iff_lt_mul hsize).mp (by omega)
    rw [growBlockNumber, if_neg (by omega), max_eq_left (by omega)]
  | succ fuel ih =>
    intro k hk
    rw [growBlockNumber]
    split
    · next hge =>
      have hdiv : k + 1 ≤ need / size := (Nat.le_div_iff_mul_le hsize).mpr hge
      rw [ih (k + 1) (by omega), max_eq_right (by omega), max_eq_right (by omega)]
    · next hlt =>
      have hdiv : need / size < k + 1 := (Nat.div_lt_iff_lt_mul hsize).mpr (by omega)
      rw [max_eq_left (by omega)]

/-- The number of blocks after a reallocation for `need` bytes and a NUL. -/
def grownBlockNumber (b : Buffer) (need : Nat) : Nat :=
  max (b.lBufferBlockNumber + 1) (need / b.lBufferBlockNumberOnOverflow + 1)

/-- Bytes of storage after a reallocation for `need` bytes and a NUL. -/
def grownCapacity (b : Buffer) (need : Nat) : Nat :=
  b.grownBlockNumber need * b.lBufferBlockNumberOnOverflow

theorem lt_grownCapacity {b : Buffer} (hsize : 0 < b.lBufferBlockNumberOnOverflow)
    (need : Nat) : need < b.grownCapacity need := by
  refine (Nat.div_lt_iff_lt_mul hsize).mp ?_
  exact Nat.lt_of_lt_of_le (Nat.lt_succ_self _) (le_max_right _ _)

/-! ### Reallocation -/

/-- The buffer after a reallocation: the string `t`, its NUL, and fresh cells. -/
def grown (b : Buffer) (t : List UInt8) (need : Nat) : Buffer :=
  { b with
    pBuffer := t.map some ++
      some 0 :: List.replicate (b.grownCapacity need - (t.length + 1)) none
    lBufferBlockNumber := b.grownBlockNumber need
    bMemoryAllocated := true }

@[simp] theorem grown_ullCharsNumber (b : Buffer) (t : List UInt8) (need : Nat) :
    (b.grown t need).ullCharsNumber = b.ullCharsNumber := rfl

theorem reallocate_eq {b : Buffer} {t : List UInt8} (need : Nat)
    (hsize : 0 < b.lBufferBlockNumberOnOverflow)
    (hold : Holds (if b.lBufferBlockNumber ≠ 0 then b.pBuffer else [some 0]) t)
    (hneed : t.length ≤ need) :
    b.reallocate need =
      if b.grownCapacity need ≤ maxAllocation then .ok (b.grown t need)
      else .error .badAlloc := by
  have hgrow := growBlockNumber_eq hsize need need b.lBufferBlockNumber
    (Nat.le_trans (Nat.div_le_self _ _) (Nat.le_add_left _ _))
  rw [reallocate, hgrow, ok_bind]
  generalize (if b.lBufferBlockNumber ≠ 0 then b.pBuffer else [some 0]) = old at hold
  change (alloc maxAllocation (b.grownCapacity need) >>= _) = _
  by_cases hle : b.grownCapacity need ≤ maxAllocation
  · have hlt := lt_grownCapacity hsize need
    obtain ⟨m', hcpy, -, -, hm'⟩ := hold.strcpy_eq
      (List.replicate (b.grownCapacity need) none) (by rw [List.length_replicate]; omega)
    rw [alloc_ok hle, ok_bind, if_pos hle, hcpy, ok_bind, hm', List.drop_replicate]
    rfl
  · rw [alloc_badAlloc (Nat.not_le.mp hle), error_bind, if_neg hle]

/-- Storage that a call finds in use: whole blocks that start with the string `t`. -/
structure Storage (b : Buffer) (t : List UInt8) : Prop where
  size_pos : 0 < b.lBufferBlockNumberOnOverflow
  blocks : b.lBufferBlockNumber ≠ 0
  length_eq : b.pBuffer.length = b.capacity
  bounded : b.capacity ≤ maxAllocation
  holds : Holds b.pBuffer t

theorem Storage.lt_capacity {b : Buffer} {t : List UInt8} (h : Storage b t) :
    t.length < b.capacity := h.length_eq ▸ h.holds.length_lt

theorem grown_storage {b : Buffer} {t : List UInt8} (need : Nat)
    (hsize : 0 < b.lBufferBlockNumberOnOverflow) (ht : 0 ∉ t) (hneed : t.length ≤ need)
    (hmax : b.grownCapacity need ≤ maxAllocation) : Storage (b.grown t need) t where
  size_pos := hsize
  blocks := by
    have : b.lBufferBlockNumber + 1 ≤ b.grownBlockNumber need := le_max_left _ _
    show b.grownBlockNumber need ≠ 0
    omega
  length_eq := by
    have := lt_grownCapacity hsize need
    show (t.map some ++ some 0 :: List.replicate _ none).length = b.grownCapacity need
    simp only [List.length_append, List.length_map, List.length_cons, List.length_replicate]
    omega
  bounded := hmax
  holds := ⟨ht, _, rfl⟩

/-- Whether an insertion of `n` bytes behind a string of length `l` makes the storage grow. -/
def Grows (b : Buffer) (l n : Nat) : Prop := l + n + 1 ≥ b.capacity

instance (b : Buffer) (l n : Nat) : Decidable (b.Grows l n) :=
  inferInstanceAs (Decidable (_ ≥ _))

/-- **What the allocation step does to storage in use.** -/
theorem alloc_storage {b : Buffer} {t : List UInt8} (h : Storage b t) (n : Nat) :
    b.allocMemoryBlockForBufferIfNecessary n =
      if b.Grows t.length n then
        if b.grownCapacity (t.length + n) ≤ maxAllocation then
          .ok (b.grown t (t.length + n))
        else .error .badAlloc
      else .ok b := by
  have hre := reallocate_eq (t.length + n) h.size_pos
    (by rw [if_pos h.blocks]; exact h.holds) (by omega)
  rw [allocMemoryBlockForBufferIfNecessary, if_pos h.blocks, h.holds.strlen_eq, ok_bind]
  change (if b.lBufferBlockNumber = 0 ∨ b.Grows t.length n then _ else _) = _
  by_cases hg : b.Grows t.length n
  · rw [if_pos (Or.inr hg), if_pos hg, hre]
  · have hno : ¬ (b.lBufferBlockNumber = 0 ∨ b.Grows t.length n) :=
      fun h' => h'.elim h.blocks hg
    rw [if_neg hno, if_neg hg]
    rfl

/-- The first allocation, on a buffer without storage. -/
theorem alloc_fresh {b : Buffer} (hsize : 0 < b.lBufferBlockNumberOnOverflow)
    (hblocks : b.lBufferBlockNumber = 0) (n : Nat) :
    b.allocMemoryBlockForBufferIfNecessary n =
      if b.grownCapacity n ≤ maxAllocation then .ok (b.grown [] n) else .error .badAlloc := by
  have hre := reallocate_eq (t := []) n hsize
    (by rw [if_neg (by simpa using hblocks)]; exact ⟨by simp, [], rfl⟩) (by simp)
  rw [allocMemoryBlockForBufferIfNecessary, if_neg (by simpa using hblocks), ok_bind]
  change (if b.lBufferBlockNumber = 0 ∨ _ then b.reallocate (0 + n) else _) = _
  rw [if_pos (Or.inl hblocks), Nat.zero_add, hre]

/-! ### Appending bytes that may be zero -/

/-- The invariant of a run of appends: the storage starts with all the bytes `s`
appended so far and a NUL, and the length counts them. -/
structure Contents (b : Buffer) (s : List UInt8) : Prop where
  status : b.bsBufferStatus = .initialized
  allocated : b.bMemoryAllocated = true
  size_pos : 0 < b.lBufferBlockNumberOnOverflow
  blocks : b.lBufferBlockNumber ≠ 0
  length_eq : b.pBuffer.length = b.capacity
  bounded : b.capacity ≤ maxAllocation
  chars : b.ullCharsNumber = s.length
  split : ∃ rest, b.pBuffer = s.map some ++ some 0 :: rest

theorem Contents.storage {b : Buffer} {s : List UInt8} (h : Contents b s) :
    Storage b (visible s) where
  size_pos := h.size_pos
  blocks := h.blocks
  length_eq := h.length_eq
  bounded := h.bounded
  holds := by
    refine ⟨zero_notMem_visible s, ?_⟩
    obtain ⟨rest, hrest⟩ := h.split
    rcases visible_split s with hv | ⟨u, hu⟩
    · exact ⟨rest, by rw [hv]; exact hrest⟩
    · refine ⟨u.map some ++ some 0 :: rest, ?_⟩
      rw [hrest]
      conv_lhs => rw [hu]
      simp

/-- **When an append of `n` bytes works**, told from the buffer before it, whose
storage shows a string of length `l` and whose `ullCharsNumber` is the place the
bytes go to.  Storage that stays must have room behind that place; storage that
grows must also not lose bytes, since only the string and its NUL are carried over. -/
def AppendFits (b : Buffer) (l n : Nat) : Prop :=
  if b.Grows l n then
    b.grownCapacity (l + n) ≤ maxAllocation →
      b.ullCharsNumber ≤ l + 1 ∧ b.ullCharsNumber + n < b.grownCapacity (l + n)
  else b.ullCharsNumber + n < b.capacity

instance (b : Buffer) (l n : Nat) : Decidable (b.AppendFits l n) := by
  unfold AppendFits; infer_instance

/-- The copy of `n` bytes to place `i` of a block, and the NUL behind them. -/
theorem memcpy_store (mem src : Cells UInt8) (i : Nat) {p : List UInt8}
    (hsrc : src.take p.length = p.map some) (hlen : p.length ≤ src.length) :
    (memcpy mem i src p.length >>= fun m => store m (i + p.length) 0) =
      if i + p.length < mem.length then
        .ok (mem.take i ++ p.map some ++ some 0 :: mem.drop (i + p.length + 1))
      else .error .outOfBounds := by
  rw [memcpy_eq_writeAt hlen, hsrc]
  split
  · next hlt =>
    obtain ⟨a, q, c, d, rfl, ha, hq⟩ := exists_split mem hlt
    subst ha
    have hw := writeAt_append a (c :: d) (o := q) (n := p.map some) (by simpa using hq)
    have hs := store_append (a ++ p.map some) d c (0 : UInt8)
    have hcut : (a ++ q ++ c :: d).drop (a.length + p.length + 1) = d := by
      rw [show a ++ q ++ c :: d = (a ++ q ++ [c]) ++ d by simp]
      exact List.drop_left' (by simp only [List.length_append, List.length_singleton]; omega)
    rw [hw, ok_bind, hcut, List.append_assoc a q, List.take_left]
    simpa using hs
  · next hge =>
    unfold writeAt store
    simp only [List.length_map]
    by_cases hle : i + p.length ≤ mem.length
    · rw [if_pos hle, ok_bind, if_neg]
      simp only [List.length_append, List.length_take, List.length_map, List.length_drop]
      omega
    · rw [if_neg hle, error_bind]

/-- The buffer once `p` has been copied behind its `ullCharsNumber` bytes. -/
def extended (b : Buffer) (p : List UInt8) : Buffer :=
  { b with
    pBuffer := b.pBuffer.take b.ullCharsNumber ++ p.map some ++
      some 0 :: b.pBuffer.drop (b.ullCharsNumber + p.length + 1)
    ullCharsNumber := b.ullCharsNumber + p.length }

theorem appendBytes_eq (b : Buffer) {src : Cells UInt8} {p : List UInt8}
    (hsrc : src.take p.length = p.map some) (hlen : p.length ≤ src.length) :
    b.appendBytes src p.length = (do
      let b ← b.allocMemoryBlockForBufferIfNecessary p.length
      if b.ullCharsNumber + p.length < b.pBuffer.length then
        Except.ok (.errNoError, b.extended p)
      else Except.error .outOfBounds) := by
  unfold appendBytes
  congr 1
  funext b'
  have h := memcpy_store b'.pBuffer src b'.ullCharsNumber hsrc hlen
  rw [← bind_assoc, h]
  split <;> rfl

/-- The bytes carried by a reallocation are all of them when nothing, or just one
zero, follows the visible string. -/
theorem take_grown (b : Buffer) {s : List UInt8} (need : Nat)
    (hfit : s.length ≤ (visible s).length + 1) :
    (b.grown (visible s) need).pBuffer.take s.length = s.map some := by
  show ((visible s).map some ++ some 0 :: List.replicate _ none).take s.length = _
  rcases visible_split s with hv | ⟨u, hu⟩
  · rw [hv]
    exact List.take_left' (by simp)
  · have hlen := congrArg List.length hu
    simp only [List.length_append, List.length_cons] at hlen
    obtain rfl : u = [] := List.length_eq_zero_iff.mp (by omega)
    have hsome : s.map some = (visible s).map some ++ [some 0] := by
      conv_lhs => rw [hu]
      simp
    rw [hsome, List.append_cons]
    exact List.take_left' (by simp [hlen])

/-- Bytes that a reallocation has not carried stay unwritten. -/
theorem take_grown_ne {b : Buffer} {s : List UInt8} (need : Nat)
    (hfit : (visible s).length + 1 < s.length) (hroom : s.length < b.grownCapacity need) :
    (b.grown (visible s) need).pBuffer.take s.length ≠ s.map some := by
  intro heq
  have hcell := congrArg (fun l => l[(visible s).length + 1]?) heq
  have hnone : ((b.grown (visible s) need).pBuffer.take s.length)[(visible s).length + 1]?
      = some none := by
    show (((visible s).map some ++ some 0 :: List.replicate _ none).take s.length)[_]? = _
    rw [List.getElem?_take_of_lt hfit, List.getElem?_append_right (by simp)]
    simp only [List.length_map, Nat.add_sub_cancel_left, List.getElem?_cons_succ]
    rw [List.getElem?_replicate, if_pos (by omega)]
  simp only [hnone, List.getElem?_map, List.getElem?_eq_getElem hfit] at hcell
  simp at hcell

/-- `length ()` counts `s` and the storage starts with it. -/
def Stores (b : Buffer) (s : List UInt8) : Prop :=
  b.length = s.length ∧ b.pBuffer.take b.length = s.map some

theorem Contents.length_eq_chars {b : Buffer} {s : List UInt8} (h : Contents b s) :
    b.length = s.length := by
  rw [Buffer.length, if_neg (by simp [h.status]), if_neg h.blocks, h.chars]

theorem Contents.take_eq {b : Buffer} {s : List UInt8} (h : Contents b s) :
    b.pBuffer.take s.length = s.map some := by
  obtain ⟨rest, hrest⟩ := h.split
  rw [hrest]
  exact List.take_left' (by simp)

theorem Contents.stores {b : Buffer} {s : List UInt8} (h : Contents b s) : Stores b s :=
  ⟨h.length_eq_chars, by rw [h.length_eq_chars, h.take_eq]⟩

theorem extended_contents {b : Buffer} {s : List UInt8} (p : List UInt8)
    (hstatus : b.bsBufferStatus = .initialized) (halloc : b.bMemoryAllocated = true)
    (hst : ∃ t, Storage b t) (hchars : b.ullCharsNumber = s.length)
    (htake : b.pBuffer.take s.length = s.map some)
    (hroom : s.length + p.length < b.pBuffer.length) : Contents (b.extended p) (s ++ p) := by
  obtain ⟨t, ht⟩ := hst
  have hmem : (b.extended p).pBuffer
      = s.map some ++ p.map some ++ some 0 :: b.pBuffer.drop (s.length + p.length + 1) := by
    simp only [extended, hchars, htake]
  refine ⟨hstatus, halloc, ht.size_pos, ht.blocks, ?_, ht.bounded, ?_, _, by simpa using hmem⟩
  · show (b.extended p).pBuffer.length = b.capacity
    rw [hmem, ← ht.length_eq]
    simp only [List.length_append, List.length_map, List.length_cons, List.length_drop]
    omega
  · show b.ullCharsNumber + p.length = _
    rw [hchars, List.length_append]

end Buffer

end CatraLibraries
