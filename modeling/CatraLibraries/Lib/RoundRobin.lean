/-
# Taking turns

A ring is a list that is read from its front on.  A turn takes the first element that is wanted and
turns the ring until that element is the last one.  The wanted elements then come in their own
ring: a turn takes its front and puts it behind the others, so that as many turns as there are
wanted elements take each of them once.

In an array the ring is a cursor: the elements from the cursor on, and then those before it.
-/
import Mathlib.Data.List.Rotate
import Mathlib.Data.List.TakeWhile

namespace RoundRobin

universe u

variable {α : Type u} (p : α → Prop) [DecidablePred p]

/-- One turn: the element, and the ring after it. -/
def turn (ring : List α) : Option (α × List α) :=
  match ring.dropWhile (¬p ·) with
  | [] => none
  | x :: rest => some (x, rest ++ (ring.takeWhile (¬p ·) ++ [x]))

variable {p} {ring ring' : List α} {x : α}

/-- A turn skips what is not wanted. -/
theorem turn_append {skipped rest : List α} (hskipped : ∀ y ∈ skipped, ¬p y) (hx : p x) :
    turn p (skipped ++ x :: rest) = some (x, rest ++ (skipped ++ [x])) := by
  have hpos : ∀ y ∈ skipped, decide (¬p y) = true := fun y hy => decide_eq_true (hskipped y hy)
  have hneg : ¬decide (¬p x) = true := by simpa using hx
  unfold turn
  rw [List.dropWhile_append_of_pos hpos, List.takeWhile_append_of_pos hpos,
    List.dropWhile_cons_of_neg (p := fun a => decide (¬p a)) hneg,
    List.takeWhile_cons_of_neg (p := fun a => decide (¬p a)) hneg, List.append_nil]

/-- A turn takes nothing where nothing is wanted. -/
theorem turn_eq_none (h : ∀ y ∈ ring, ¬p y) : turn p ring = none := by
  have hpos : ∀ y ∈ ring, decide (¬p y) = true := fun y hy => decide_eq_true (h y hy)
  unfold turn
  rw [List.dropWhile_eq_nil_iff.mpr hpos]

/-- What a turn takes, and what it skips. -/
theorem turn_split (ring : List α) :
    (∀ y ∈ ring, ¬p y) ∨ ∃ skipped x rest, ring = skipped ++ x :: rest ∧ (∀ y ∈ skipped, ¬p y) ∧
      p x := by
  induction ring with
  | nil => exact Or.inl fun y hy => absurd hy List.not_mem_nil
  | cons y ring ih =>
    by_cases hy : p y
    · exact Or.inr ⟨[], y, ring, rfl, fun z hz => absurd hz List.not_mem_nil, hy⟩
    · rcases ih with hnone | ⟨skipped, x, rest, rfl, hskipped, hx⟩
      · exact Or.inl (List.forall_mem_cons.mpr ⟨hy, hnone⟩)
      · exact Or.inr ⟨y :: skipped, x, rest, rfl, List.forall_mem_cons.mpr ⟨hy, hskipped⟩, hx⟩

/-- Turns that take the elements of a list, one after the other. -/
inductive Turns (p : α → Prop) [DecidablePred p] : List α → List α → List α → Prop
  | nil (ring : List α) : Turns p ring [] ring
  | cons {ring ring' ring'' : List α} {x : α} {xs : List α} (h : turn p ring = some (x, ring'))
      (hrest : Turns p ring' xs ring'') : Turns p ring (x :: xs) ring''

/-- The cursor behind the element at `c`, in an array of length `n`. -/
def advance (n c : ℕ) : ℕ := if c + 1 = n then 0 else c + 1

theorem advance_lt {n c : ℕ} (hc : c < n) : advance n c < n := by
  unfold advance
  split
  · exact Nat.zero_lt_of_lt hc
  · exact lt_of_le_of_ne hc ‹_›

/-- The ring of a cursor. -/
abbrev ringAt (n c : ℕ) : List ℕ := (List.range n).rotate c

theorem rotate_one_cons (x : α) (l : List α) : (x :: l).rotate 1 = l ++ [x] := by
  rw [List.rotate_cons_succ, List.rotate_zero]

theorem ringAt_advance {n c : ℕ} : ringAt n (advance n c) = (ringAt n c).rotate 1 := by
  unfold advance
  rw [List.rotate_rotate]
  split
  · next hlast =>
    have hlength := List.rotate_length (List.range n)
    rw [List.length_range] at hlength
    rw [hlast, hlength]
    exact List.rotate_zero _
  · rfl

theorem head?_ringAt {n c : ℕ} (hc : c < n) : (ringAt n c).head? = some c := by
  rw [List.head?_rotate (by simpa using hc), List.getElem?_range hc]

/-- The cursor of a ring is its front. -/
theorem ringAt_injective {n c c' : ℕ} (hc : c < n) (hc' : c' < n) (h : ringAt n c = ringAt n c') :
    c = c' := by
  have hhead := head?_ringAt hc
  rw [h, head?_ringAt hc'] at hhead
  exact (Option.some.inj hhead).symm

/-- Behind the elements that are skipped the cursor is at the next one. -/
theorem ringAt_iterate_advance (n c k : ℕ) :
    ringAt n ((advance n)^[k] c) = (ringAt n c).rotate k := by
  induction k generalizing c with
  | zero => rw [List.rotate_zero]; rfl
  | succ k ih =>
    rw [Function.iterate_succ_apply, ih, ringAt_advance, List.rotate_rotate, Nat.add_comm]

theorem iterate_advance_lt {n c : ℕ} (hc : c < n) (k : ℕ) : (advance n)^[k] c < n := by
  induction k generalizing c with
  | zero => exact hc
  | succ k ih => exact ih (advance_lt hc)

end RoundRobin
