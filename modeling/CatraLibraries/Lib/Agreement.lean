/-
# Two computations that agree

Two versions of a program are compared call by call.  `Agree R x y` says of two computations
that may stop with an error that they stop with the same one, or both end, with results that
are related by `R`.  The rules follow the way a computation is put together: `Agree.bind` for
one step after the other, `Agree.mono` for a weaker relation.
-/
import Mathlib.Init

namespace Agreement

universe u v w

variable {ε : Type u} {α α' : Type v} {β β' : Type w}

/-- Both computations end in related results, or both in the same error. -/
inductive Agree (R : α → β → Prop) : Except ε α → Except ε β → Prop
  | ok {a : α} {b : β} (h : R a b) : Agree R (.ok a) (.ok b)
  | error (e : ε) : Agree R (.error e) (.error e)

variable {R : α → β → Prop} {x : Except ε α} {y : Except ε β}

theorem agree_ok {a : α} {b : β} :
    Agree R (.ok a : Except ε α) (.ok b : Except ε β) ↔ R a b := by
  constructor
  · rintro ⟨h⟩
    exact h
  · exact Agree.ok

/-- A computation agrees with itself. -/
theorem Agree.refl {R : α → α → Prop} (hR : ∀ a, R a a) (x : Except ε α) : Agree R x x := by
  cases x with
  | error e => exact Agree.error e
  | ok a => exact Agree.ok (hR a)

theorem Agree.mono {R' : α → β → Prop} (h : Agree R x y) (hR : ∀ a b, R a b → R' a b) :
    Agree R' x y := by
  cases h with
  | ok h => exact Agree.ok (hR _ _ h)
  | error e => exact Agree.error e

/-- The results are those of the computations. -/
theorem Agree.and_eq (h : Agree R x y) :
    Agree (fun a b => (x = .ok a ∧ y = .ok b) ∧ R a b) x y := by
  cases h with
  | ok h => exact Agree.ok ⟨⟨rfl, rfl⟩, h⟩
  | error e => exact Agree.error e

/-- **The rule of composition.** -/
theorem Agree.bind {S : α' → β' → Prop} {f : α → Except ε α'} {g : β → Except ε β'}
    (h : Agree R x y) (hfg : ∀ a b, R a b → Agree S (f a) (g b)) :
    Agree S (x >>= f) (y >>= g) := by
  cases h with
  | ok h => exact hfg _ _ h
  | error e => exact Agree.error e

/-- What the first computation gives, the second gives too, up to the relation. -/
theorem Agree.of_eq_ok {a : α} {b : β} (h : Agree R x y) (hx : x = .ok a) (hy : y = .ok b) :
    R a b := by
  subst hx hy
  exact agree_ok.mp h

end Agreement
