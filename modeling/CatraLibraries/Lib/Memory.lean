/-
# Memory blocks

A block handed out by an allocator is a list of cells, and a cell nobody has
written yet is `none`.  Every access is checked: one outside the block, or a read
of a cell that was never written, ends the computation in a `Fault`, so that a
program which never faults has no undefined memory access.  An integer operation
without a defined value (a shift too far, a signed overflow) is a fault too, and so is
a loop that uses up the fuel it is given, where the program would go on for ever.

The block operations are those of C: `load` and `store` of one cell, `memcpy`
between two blocks, `memmove` and the ascending copy loop `copyDown` within one block.  For
each of them there is one lemma that says what it does to a block cut at the
places it touches.
-/
import Mathlib.Algebra.Group.Int.Defs
import Mathlib.Data.List.Basic

namespace Memory

/-- What ends a computation that touches memory. -/
inductive Fault
  | outOfBounds
  | uninitialised
  | badAlloc
  | undefinedArithmetic
  | outOfFuel
  deriving DecidableEq, Repr

universe u

/-- A block: its cells in address order, `none` where nothing was written. -/
abbrev Cells (α : Type u) := List (Option α)

variable {α β : Type u}

@[simp] theorem ok_bind {ε : Type*} (a : α) (f : α → Except ε β) :
    (Except.ok a >>= f) = f a := rfl

@[simp] theorem error_bind {ε : Type*} (e : ε) (f : α → Except ε β) :
    ((Except.error e : Except ε α) >>= f) = Except.error e := rfl

/-- From a computation that ends well, its first part ends well. -/
theorem bind_eq_ok {ε : Type*} {x : Except ε α} {f : α → Except ε β} {b : β} :
    (x >>= f) = .ok b ↔ ∃ a, x = .ok a ∧ f a = .ok b := by
  cases x with
  | error e => simp
  | ok a => simp

/-- A result without its error. -/
theorem toOption_eq_some {ε : Type*} {x : Except ε α} {a : α} :
    x.toOption = some a ↔ x = .ok a := by
  cases x <;> simp [Except.toOption]

/-! ### Operations -/

/-- The value of an expression of the type `long`. -/
def long (z : Int) : Except Fault Int :=
  if -2 ^ 63 ≤ z ∧ z < 2 ^ 63 then .ok z else .error .undefinedArithmetic

theorem long_ok {z : Int} (h : -2 ^ 63 ≤ z) (h' : z < 2 ^ 63) : long z = .ok z := if_pos ⟨h, h'⟩

/-- A fresh block of `n` cells, or the allocator's refusal of more than `limit`. -/
def alloc (limit n : Nat) : Except Fault (Cells α) :=
  if n ≤ limit then .ok (List.replicate n none) else .error .badAlloc

/-- Read the cell at `i`. -/
def load (m : Cells α) (i : Nat) : Except Fault α :=
  match m[i]? with
  | none => .error .outOfBounds
  | some none => .error .uninitialised
  | some (some a) => .ok a

/-- Read `n` cells from `i` on. -/
def loads (m : Cells α) (i : Nat) : Nat → Except Fault (List α)
  | 0 => .ok []
  | n + 1 => load m i >>= fun a => loads m (i + 1) n >>= fun rest => .ok (a :: rest)

/-- Write the cell at `i`. -/
def store (m : Cells α) (i : Nat) (a : α) : Except Fault (Cells α) :=
  if i < m.length then .ok (m.set i (some a)) else .error .outOfBounds

/-- Overwrite the cells from `i` on with `new`. -/
def writeAt (m : Cells α) (i : Nat) (new : Cells α) : Except Fault (Cells α) :=
  if i + new.length ≤ m.length then
    .ok (m.take i ++ new ++ m.drop (i + new.length))
  else .error .outOfBounds

/-- Copy the first `n` cells of the block `src` over `dst` from `i` on. -/
def memcpy (dst : Cells α) (i : Nat) (src : Cells α) (n : Nat) : Except Fault (Cells α) :=
  if n ≤ src.length then writeAt dst i (src.take n) else .error .outOfBounds

/-- Copy `n` cells from `src` on to `dst` on within one block; the two may overlap. -/
def memmove (m : Cells α) (dst src n : Nat) : Except Fault (Cells α) :=
  if src + n ≤ m.length then writeAt m dst ((m.drop src).take n) else .error .outOfBounds

/-- The loop that copies `n` cells from `src` on to `dst` on, lowest address
first, within one block. -/
def copyDown (m : Cells α) (dst src : Nat) : Nat → Except Fault (Cells α)
  | 0 => .ok m
  | n + 1 => do
    let a ← load m src
    let m ← store m dst a
    copyDown m (dst + 1) (src + 1) n

/-! ### What they do -/

theorem alloc_ok {limit n : Nat} (h : n ≤ limit) :
    (alloc limit n : Except Fault (Cells α)) = .ok (List.replicate n none) := by
  simp [alloc, h]

theorem alloc_badAlloc {limit n : Nat} (h : limit < n) :
    (alloc limit n : Except Fault (Cells α)) = .error .badAlloc := by
  simp [alloc, Nat.not_le.mpr h]

theorem store_ok {m : Cells α} {i : Nat} (a : α) (h : i < m.length) :
    store m i a = .ok (m.set i (some a)) := by
  simp [store, h]

/-- A store that ends well wrote inside its block, and the block keeps its length. -/
theorem length_of_store {m m' : Cells α} {i : Nat} {a : α} (h : store m i a = .ok m') :
    i < m.length ∧ m'.length = m.length := by
  unfold store at h
  split at h
  · next hlt =>
    obtain rfl := Except.ok.inj h
    exact ⟨hlt, List.length_set⟩
  · exact absurd h (by simp)

theorem load_append (pre post : Cells α) (a : α) :
    load (pre ++ some a :: post) pre.length = .ok a := by
  simp [load]

theorem loads_append (pre post : Cells α) (s : List α) :
    loads (pre ++ (s.map some ++ post)) pre.length s.length = .ok s := by
  induction s generalizing pre with
  | nil => rfl
  | cons a s ih =>
    have hload := load_append pre (s.map some ++ post) a
    have hrest := ih (pre ++ [some a])
    rw [List.append_assoc, List.length_append] at hrest
    rw [List.length_cons, loads]
    show load (pre ++ some a :: (s.map some ++ post)) pre.length >>= _ = _
    rw [hload, ok_bind]
    show loads (pre ++ ([some a] ++ (s.map some ++ post))) (pre.length + [some a].length) s.length >>= _ = _
    rw [hrest, ok_bind]

theorem store_append (pre post : Cells α) (c : Option α) (a : α) :
    store (pre ++ c :: post) pre.length a = .ok (pre ++ some a :: post) := by
  simp [store]

theorem writeAt_append (pre post : Cells α) {o n : Cells α} (h : o.length = n.length) :
    writeAt (pre ++ o ++ post) pre.length n = .ok (pre ++ n ++ post) := by
  have hlen : pre.length + n.length ≤ (pre ++ o ++ post).length := by
    simp only [List.length_append]; omega
  have hdrop : (pre ++ o ++ post).drop (pre.length + n.length) = post := by
    rw [← h, ← List.length_append, List.drop_left]
  rw [writeAt, if_pos hlen, hdrop, List.append_assoc pre o post, List.take_left]

theorem writeAt_eq_ok {m new m' : Cells α} {i : Nat} (h : writeAt m i new = .ok m') :
    i + new.length ≤ m.length ∧ m' = m.take i ++ new ++ m.drop (i + new.length) := by
  unfold writeAt at h
  split at h
  · next hle => exact ⟨hle, (Except.ok.inj h).symm⟩
  · exact absurd h (by simp)

theorem memmove_ok {m : Cells α} {dst src n : Nat} (hsrc : src + n ≤ m.length)
    (hdst : dst + n ≤ m.length) :
    memmove m dst src n = .ok (m.take dst ++ (m.drop src).take n ++ m.drop (dst + n)) := by
  have hlength : ((m.drop src).take n).length = n := by
    rw [List.length_take_of_le]
    rw [List.length_drop]
    exact Nat.le_sub_of_add_le' hsrc
  rw [memmove, if_pos hsrc, writeAt, hlength, if_pos hdst]

theorem memcpy_eq_writeAt {dst src : Cells α} {i n : Nat} (h : n ≤ src.length) :
    memcpy dst i src n = writeAt dst i (src.take n) := by
  simp [memcpy, h]

/-- **What the ascending copy loop leaves.**  The `body` has moved down over the
`gap` before it; behind it stay the last cells of `gap` and `body`. -/
theorem copyDown_append (body : List α) (pre gap post : Cells α) :
    copyDown (pre ++ gap ++ body.map some ++ post) pre.length (pre.length + gap.length)
        body.length
      = .ok (pre ++ body.map some ++ (gap ++ body.map some).drop body.length ++ post) := by
  induction body generalizing pre gap with
  | nil => simp [copyDown]
  | cons a body ih =>
    have hload : load (pre ++ gap ++ (a :: body).map some ++ post) (pre.length + gap.length)
        = .ok a := by
      have := load_append (pre ++ gap) (body.map some ++ post) a
      simpa using this
    rw [List.length_cons, copyDown, hload, ok_bind]
    cases gap with
    | nil =>
      -- source and target coincide: the cell is written back
      have hstore := store_append pre (body.map some ++ post) (some a) a
      have := ih (pre ++ [some a]) []
      simp only [List.append_nil, List.nil_append, List.map_cons, List.length_append,
        List.length_cons, List.length_nil, Nat.zero_add, Nat.add_zero, List.append_assoc,
        List.cons_append] at hstore this ⊢
      rw [hstore, ok_bind, this]
      simp
    | cons g gap =>
      have hstore := store_append pre (gap ++ (a :: body).map some ++ post) g a
      have := ih (pre ++ [some a]) (gap ++ [some a])
      simp only [List.nil_append, List.map_cons, List.length_append, List.length_cons,
        List.length_nil, Nat.zero_add, List.append_assoc, List.cons_append] at hstore this ⊢
      rw [hstore, ok_bind, show pre.length + (gap.length + 1) + 1
        = pre.length + 1 + (gap.length + 1) by omega, this]
      simp

end Memory
