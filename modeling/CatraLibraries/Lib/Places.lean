/-
# Tokens in places

Tokens lie in places: `L p` lists those that lie in the place `p`, in some order.  A token is
`Placed` when it lies in one place, once, and nowhere else.  A move takes one token from one
place to another and leaves all others where they are, so it keeps tokens placed.

Where tokens may be lost, what remains is that no token is in two places.  `Exclusive` says this
of shared places, counted together, and of threads that hold tokens.
-/
import Mathlib.Data.List.Count
import Mathlib.Data.List.Perm.Basic
import Mathlib.Logic.Function.Basic
import Mathlib.Tactic.SplitIfs

namespace Places

universe u v

variable {P : Type u} {A : Type v} [DecidableEq P] [DecidableEq A]

/-- The token lies in `p`, once, and nowhere else. -/
def Placed (L : P → List A) (a : A) (p : P) : Prop :=
  ∀ q, (L q).count a = if q = p then 1 else 0

/-- The token `a` goes from `p` to `q`. -/
structure Moves (L L' : P → List A) (a : A) (p q : P) : Prop where
  ne : p ≠ q
  mem : a ∈ L p
  source : (L' p).Perm ((L p).erase a)
  target : (L' q).Perm (a :: L q)
  rest : ∀ r, r ≠ p → r ≠ q → L' r = L r

variable {L L' : P → List A} {a b : A} {p q : P}

theorem Placed.count_self (h : Placed L a p) : (L p).count a = 1 := by
  rw [h p, if_pos rfl]

/-- A token lies where it is found. -/
theorem Placed.eq_of_mem (h : Placed L a p) (hq : a ∈ L q) : q = p := by
  have hpos := List.count_pos_iff.mpr hq
  rw [h q] at hpos
  split_ifs at hpos with hqp
  · exact hqp
  · exact absurd hpos (by simp)

theorem Placed.congr (h : Placed L a p) (hL : ∀ q, (L' q).count a = (L q).count a) :
    Placed L' a p := fun q => (hL q).trans (h q)

/-- The token that moves lies where it goes. -/
theorem Placed.moved (h : Placed L a p) (hmoves : Moves L L' a p q) : Placed L' a q := by
  intro r
  rcases eq_or_ne r q with rfl | hq
  · rw [if_pos rfl, hmoves.target.count_eq, List.count_cons_self, h r, if_neg hmoves.ne.symm]
  · rw [if_neg hq]
    rcases eq_or_ne r p with rfl | hp
    · rw [hmoves.source.count_eq, List.count_erase_self, h.count_self]
    · rw [hmoves.rest r hp hq, h r, if_neg hp]

/-- The other tokens stay. -/
theorem Placed.stays {r : P} (h : Placed L b r) (hmoves : Moves L L' a p q) (hb : b ≠ a) :
    Placed L' b r := by
  refine h.congr fun s => ?_
  rcases eq_or_ne s p with rfl | hp
  · rw [hmoves.source.count_eq, List.count_erase_of_ne hb]
  · rcases eq_or_ne s q with rfl | hq
    · rw [hmoves.target.count_eq, List.count_cons_of_ne hb.symm]
    · rw [hmoves.rest s hp hq]

/-- **Moving** keeps every token placed. -/
theorem Moves.placed (hmoves : Moves L L' a p q) (h : ∃ r, Placed L b r) : ∃ r, Placed L' b r := by
  obtain ⟨r, hr⟩ := h
  by_cases hb : b = a
  · subst hb
    obtain rfl := hr.eq_of_mem hmoves.mem
    exact ⟨q, hr.moved hmoves⟩
  · exact ⟨r, hr.stays hmoves hb⟩

/-! ### At most one token -/

variable {T : Type u} {n n' : A → ℕ} {w : T → A → ℕ} {t t' : T}

/-- Every token is in the shared places or with one of the threads, and only once. -/
structure Exclusive (n : A → ℕ) (w : T → A → ℕ) : Prop where
  once : ∀ a, n a ≤ 1
  held : ∀ t a, n a + w t a ≤ 1
  alone : ∀ t t' a, t ≠ t' → w t a + w t' a ≤ 1

omit [DecidableEq A] in
/-- **A thread moves tokens** between its hands and the shared places, and may lose some. -/
theorem Exclusive.move [DecidableEq T] {v : A → ℕ} (h : Exclusive n w)
    (hmove : ∀ a, n' a + v a ≤ n a + w t a) : Exclusive n' (Function.update w t v) where
  once := by
    intro a
    have hn := hmove a
    have hheld := h.held t a
    omega
  held := by
    intro s a
    have hn := hmove a
    have hheld := h.held t a
    rcases eq_or_ne s t with rfl | hne
    · rw [Function.update_self]
      omega
    · rw [Function.update_of_ne hne]
      -- a thread that holds the token excludes the one that moves
      have hs := h.held s a
      have halone := h.alone s t a hne
      omega
  alone := by
    have hother : ∀ s a, s ≠ t → v a + w s a ≤ 1 := by
      intro s a hne
      have hn := hmove a
      have hheld := h.held t a
      have hs := h.held s a
      have halone := h.alone s t a hne
      omega
    intro s s' a hs
    rcases eq_or_ne s t with rfl | hne
    · rw [Function.update_self, Function.update_of_ne hs.symm]
      exact hother s' a hs.symm
    · rw [Function.update_of_ne hne]
      rcases eq_or_ne s' t with rfl | hne'
      · rw [Function.update_self, Nat.add_comm]
        exact hother s a hne
      · rw [Function.update_of_ne hne']
        exact h.alone s s' a hs

omit [DecidableEq A] in
/-- A token that no thread holds may appear in the shared places. -/
theorem Exclusive.gain {a : A} (h : Exclusive n w) (hw : ∀ t, w t a = 0)
    (hself : n' a ≤ 1) (hrest : ∀ b, b ≠ a → n' b ≤ n b) : Exclusive n' w where
  once := by
    intro b
    rcases eq_or_ne b a with rfl | hne
    · exact hself
    · exact Nat.le_trans (hrest b hne) (h.once b)
  held := by
    intro t b
    rcases eq_or_ne b a with rfl | hne
    · rw [hw t]
      exact hself
    · exact Nat.le_trans (Nat.add_le_add_right (hrest b hne) _) (h.held t b)
  alone := h.alone

end Places
