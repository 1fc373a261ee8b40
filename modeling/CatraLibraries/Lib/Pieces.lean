/-
# A text written piece by piece

A formatter fills a buffer through a cursor: it copies one piece after the other, and
moves the cursor behind each.  The place is signed, since it comes out of the program's own
arithmetic, and one before the block is outside of it.

`writePieces_append` is the rule for a block with room for the pieces together: they stand
there one behind the other and the cursor has moved by their length.  What is written may be
read back up to a terminator, again from a signed place (`readAt_append`).
-/
import CatraLibraries.Lib.Memory
import Mathlib.Algebra.Order.Ring.Int
import Mathlib.Data.Int.Order.Basic

namespace Memory

universe u

variable {α : Type u}

/-- Write one cell at a signed place. -/
def storeAt (m : Cells α) (i : ℤ) (a : α) : Except Fault (Cells α) :=
  if 0 ≤ i then store m i.toNat a else .error .outOfBounds

/-- Copy a text to a signed place. -/
def writeText (m : Cells α) (i : ℤ) (text : List α) : Except Fault (Cells α) :=
  if 0 ≤ i then writeAt m i.toNat (text.map some) else .error .outOfBounds

/-- Copy texts one behind the other: the block and the cursor behind the last of them. -/
def writePieces (m : Cells α) (i : ℤ) : List (List α) → Except Fault (Cells α × ℤ)
  | [] => .ok (m, i)
  | piece :: pieces => do
    let m ← writeText m i piece
    writePieces m (i + piece.length) pieces

theorem storeAt_append (pre post : Cells α) (c : Option α) (a : α) {i : ℤ}
    (hi : i = pre.length) : storeAt (pre ++ c :: post) i a = .ok (pre ++ some a :: post) := by
  have hnonneg : 0 ≤ i := by rw [hi]; exact Int.natCast_nonneg _
  rw [storeAt, if_pos hnonneg, hi, Int.toNat_natCast]
  exact store_append pre post c a

theorem writeText_append (pre post : Cells α) {old : Cells α} {text : List α} {i : ℤ}
    (hi : i = pre.length) (hlen : old.length = text.length) :
    writeText (pre ++ old ++ post) i text = .ok (pre ++ text.map some ++ post) := by
  have hnonneg : 0 ≤ i := by rw [hi]; exact Int.natCast_nonneg _
  rw [writeText, if_pos hnonneg, hi, Int.toNat_natCast]
  apply writeAt_append
  rw [hlen, List.length_map]

/-- **The pieces stand one behind the other.** -/
theorem writePieces_append (pieces : List (List α)) (pre post : Cells α) {old : Cells α} {i : ℤ}
    (hi : i = pre.length) (hlen : old.length = pieces.flatten.length) :
    writePieces (pre ++ old ++ post) i pieces
      = .ok (pre ++ pieces.flatten.map some ++ post, i + pieces.flatten.length) := by
  induction pieces generalizing pre old i with
  | nil =>
    obtain rfl : old = [] := List.length_eq_zero_iff.mp hlen
    simp [writePieces]
  | cons piece pieces ih =>
    rw [List.flatten_cons, List.length_append] at hlen
    -- the cells of this piece, and those of the pieces behind it
    have hsplit : old = old.take piece.length ++ old.drop piece.length :=
      (List.take_append_drop piece.length old).symm
    have hfirst : (old.take piece.length).length = piece.length := by
      rw [List.length_take, hlen]
      exact Nat.min_eq_left (Nat.le_add_right _ _)
    have hrest : (old.drop piece.length).length = pieces.flatten.length := by
      rw [List.length_drop, hlen]
      exact Nat.add_sub_cancel_left _ _
    have hwrite := writeText_append pre (old.drop piece.length ++ post) hi hfirst
    have hcursor : i + (piece.length : ℤ) = (pre ++ piece.map some).length := by
      rw [hi, List.length_append, List.length_map, Nat.cast_add]
    have hnext := ih (pre ++ piece.map some) hcursor hrest
    rw [writePieces, hsplit]
    rw [show pre ++ (old.take piece.length ++ old.drop piece.length) ++ post
      = pre ++ old.take piece.length ++ (old.drop piece.length ++ post) by
        simp only [List.append_assoc]]
    rw [hwrite, ok_bind, ← List.append_assoc, hnext]
    rw [List.flatten_cons, List.map_append, List.length_append, Nat.cast_add, ← Int.add_assoc]
    simp only [List.append_assoc]

/-! ### What a successful write says -/

/-- A store that ends well wrote one cell of its block. -/
theorem storeAt_eq_ok {m m' : Cells α} {i : ℤ} {a : α} (h : storeAt m i a = .ok m') :
    ∃ n : ℕ, i = n ∧ n < m.length ∧ m' = m.set n (some a) := by
  unfold storeAt at h
  split at h
  · next hnonneg =>
    obtain ⟨n, rfl⟩ := Int.eq_ofNat_of_zero_le hnonneg
    rw [Int.toNat_natCast] at h
    have hlt := (length_of_store h).1
    rw [store_ok a hlt] at h
    exact ⟨n, rfl, hlt, (Except.ok.inj h).symm⟩
  · cases h

theorem length_of_writeText {m m' : Cells α} {i : ℤ} {text : List α}
    (h : writeText m i text = .ok m') : m'.length = m.length := by
  unfold writeText at h
  split at h
  · obtain ⟨hroom, rfl⟩ := writeAt_eq_ok h
    simp only [List.length_append, List.length_take, List.length_drop]
    omega
  · cases h

/-- The block keeps its length. -/
theorem length_of_writePieces {pieces : List (List α)} {m m' : Cells α} {i j : ℤ}
    (h : writePieces m i pieces = .ok (m', j)) : m'.length = m.length := by
  induction pieces generalizing m i with
  | nil =>
    obtain ⟨rfl, -⟩ := Prod.mk.inj (Except.ok.inj h)
    rfl
  | cons piece pieces ih =>
    obtain ⟨m₁, hfirst, hrest⟩ := bind_eq_ok.mp h
    exact (ih hrest).trans (length_of_writeText hfirst)

/-! ### Reading a text back -/

section

variable [DecidableEq α] {stop : α}

/-- Read the cells up to the first `stop`. -/
def readUntil (stop : α) : Cells α → Except Fault (List α)
  | [] => .error .outOfBounds
  | none :: _ => .error .uninitialised
  | some a :: m => if a = stop then .ok [] else do return a :: (← readUntil stop m)

/-- Read the text at a signed place. -/
def readAt (stop : α) (m : Cells α) (i : ℤ) : Except Fault (List α) :=
  if 0 ≤ i then readUntil stop (m.drop i.toNat) else .error .outOfBounds

theorem readUntil_append {text : List α} (htext : stop ∉ text) (post : Cells α) :
    readUntil stop (text.map some ++ some stop :: post) = .ok text := by
  induction text with
  | nil => exact if_pos rfl
  | cons a text ih =>
    obtain ⟨hne, hnot⟩ := not_or.mp (mt List.mem_cons.mpr htext)
    show (if a = stop then _ else _) = _
    rw [if_neg (Ne.symm hne)]
    show (readUntil stop (text.map some ++ some stop :: post) >>= _) = _
    rw [ih hnot, ok_bind]
    rfl

/-- What is read ends at the latest at a place where the terminator is. -/
theorem length_le_of_readUntil {m : Cells α} {text : List α} {k : ℕ}
    (hk : m[k]? = some (some stop)) (h : readUntil stop m = .ok text) : text.length ≤ k := by
  induction m generalizing text k with
  | nil => cases h
  | cons cell m ih =>
    cases cell with
    | none => cases h
    | some a =>
      unfold readUntil at h
      split at h
      · obtain rfl := Except.ok.inj h
        exact Nat.zero_le k
      · next hne =>
        obtain ⟨rest, hrest, htext⟩ := bind_eq_ok.mp h
        obtain rfl := Except.ok.inj htext
        cases k with
        | zero => exact absurd (Option.some.inj (Option.some.inj hk)) hne
        | succ k => exact Nat.succ_le_succ (ih hk hrest)

/-- **A text is read where it was written**, if it does not hold the terminator. -/
theorem readAt_append {text : List α} (htext : stop ∉ text) (pre post : Cells α) {i : ℤ}
    (hi : i = pre.length) :
    readAt stop (pre ++ text.map some ++ some stop :: post) i = .ok text := by
  have hnonneg : 0 ≤ i := by rw [hi]; exact Int.natCast_nonneg _
  rw [readAt, if_pos hnonneg, hi, Int.toNat_natCast, List.append_assoc, List.drop_left]
  exact readUntil_append htext post

/-- A text read at `i` is no longer than the way to a terminator. -/
theorem length_le_of_readAt {m : Cells α} {text : List α} {i j : ℤ} {n : ℕ}
    (hj : j = n) (hn : m[n]? = some (some stop)) (hij : i ≤ j)
    (h : readAt stop m i = .ok text) : text.length ≤ j - i := by
  unfold readAt at h
  split at h
  · next hnonneg =>
    obtain ⟨k, rfl⟩ := Int.eq_ofNat_of_zero_le hnonneg
    have hkn : k ≤ n := by omega
    have hcell : (m.drop k)[n - k]? = some (some stop) := by
      rw [List.getElem?_drop, Nat.add_sub_cancel' hkn]
      exact hn
    have hle := length_le_of_readUntil hcell h
    omega
  · cases h

end

end Memory
