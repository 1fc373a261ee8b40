/-
# Blocks and their owners

A heap of blocks, each with the one who allocated it.  A block may be freed by its owner only, and
only once: everything else makes the heap unsound for good.  What an owner does leaves the blocks of
the others as they are (`Touches`).
-/
import Mathlib.Data.Nat.Notation
import Mathlib.Logic.Function.Basic

universe u v

/-- The blocks that are there; `next` is the address of the next one. -/
structure OwnedBlocks (ω : Type u) (β : Type v) where
  block : ℕ → Option (ω × β)
  next : ℕ
  sound : Bool

namespace OwnedBlocks

variable {ω : Type u} {β : Type v}

/-- Nothing is allocated. -/
def empty : OwnedBlocks ω β := ⟨fun _ => none, 0, true⟩

/-- A new block, at `h.next`. -/
def allocate (h : OwnedBlocks ω β) (o : ω) (b : β) : OwnedBlocks ω β :=
  { h with
    block := Function.update h.block h.next (some (o, b))
    next := h.next + 1 }

/-- Something undefined happens. -/
def fault (h : OwnedBlocks ω β) : OwnedBlocks ω β := { h with sound := false }

/-- The owner frees a block. -/
def free [DecidableEq ω] (h : OwnedBlocks ω β) (o : ω) (n : ℕ) : OwnedBlocks ω β :=
  if (h.block n).map Prod.fst = some o then { h with block := Function.update h.block n none }
  else h.fault

/-- No block is there where the next one will be. -/
def Fresh (h : OwnedBlocks ω β) : Prop := ∀ n, h.next ≤ n → h.block n = none

/-- What the owner `o` may do to the heap. -/
structure Touches (o : ω) (h h' : OwnedBlocks ω β) : Prop where
  others : ∀ n o' b, o' ≠ o → h.block n = some (o', b) → h'.block n = some (o', b)
  fresh : h.Fresh → h'.Fresh
  sound : h'.sound = true → h.sound = true

namespace Touches

variable {o : ω} {h h₁ h₂ : OwnedBlocks ω β}

theorem refl (o : ω) (h : OwnedBlocks ω β) : Touches o h h := ⟨fun _ _ _ _ => id, id, id⟩

theorem trans (h₁₂ : Touches o h h₁) (h₂₃ : Touches o h₁ h₂) : Touches o h h₂ where
  others n o' b ho hb := h₂₃.others n o' b ho (h₁₂.others n o' b ho hb)
  fresh hf := h₂₃.fresh (h₁₂.fresh hf)
  sound hs := h₁₂.sound (h₂₃.sound hs)

theorem fault (o : ω) (h : OwnedBlocks ω β) : Touches o h h.fault :=
  ⟨fun _ _ _ _ => id, id, fun hs => (by cases hs)⟩

end Touches

variable {h : OwnedBlocks ω β} {o : ω} {n : ℕ}

theorem block_allocate_self (h : OwnedBlocks ω β) (o : ω) (b : β) :
    (h.allocate o b).block h.next = some (o, b) := Function.update_self ..

/-- A block that is there stays where it is. -/
theorem Fresh.block_allocate (hf : h.Fresh) {x : ω × β} (hn : h.block n = some x) (o : ω) (b : β) :
    n ≠ h.next ∧ (h.allocate o b).block n = some x := by
  have hne : n ≠ h.next := by
    rintro rfl
    rw [hf h.next (Nat.le_refl _)] at hn
    cases hn
  exact ⟨hne, (Function.update_of_ne hne _ _).trans hn⟩

theorem Fresh.touches_allocate (hf : h.Fresh) (o : ω) (b : β) : Touches o h (h.allocate o b) where
  others n o' b' _ hn := (hf.block_allocate hn o b).2
  fresh _ n hn := by
    have hne : n ≠ h.next := Nat.ne_of_gt hn
    exact (Function.update_of_ne hne _ _).trans (hf n (Nat.le_of_succ_le hn))
  sound := id

variable [DecidableEq ω]

/-- The owner of a block frees it. -/
theorem free_of_block {b : β} (hn : h.block n = some (o, b)) :
    h.free o n = { h with block := Function.update h.block n none } := by
  unfold free
  rw [if_pos (by rw [hn]; rfl)]

theorem touches_free (h : OwnedBlocks ω β) (o : ω) (n : ℕ) : Touches o h (h.free o n) := by
  unfold free
  split
  · next howner =>
    refine ⟨fun m o' b ho hm => ?_, fun hf m hm => ?_, id⟩
    · have hne : m ≠ n := by
        rintro rfl
        rw [hm] at howner
        exact ho (Option.some.inj howner)
      exact (Function.update_of_ne hne _ _).trans hm
    · show Function.update h.block n none m = none
      by_cases hmn : m = n
      · rw [hmn, Function.update_self]
      · rw [Function.update_of_ne hmn]
        exact hf m hm
  · exact Touches.fault o h

end OwnedBlocks
