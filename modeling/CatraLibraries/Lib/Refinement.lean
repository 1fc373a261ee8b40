/-
# Operations on two levels

An operation has a result and changes the state.  On the lower level it may also end the run, with an
error of type `ε`; on the upper level it is a function.  `Refines` says that one operation of the lower
level does what the upper one says, where it is allowed; `Refines.run` says it of every sequence.
-/
import Mathlib.Init

namespace Refinement

universe u v w x y

variable {ε : Type u} {σ : Type v} {τ : Type w} {ι : Type x} {ρ : Type y}

/-- The operations one after the other, with their results. -/
def run (step : σ → ι → Except ε (ρ × σ)) (s : σ) : List ι → Except ε (List ρ × σ)
  | [] => .ok ([], s)
  | i :: is =>
    match step s i with
    | .error e => .error e
    | .ok (r, s) =>
      match run step s is with
      | .error e => .error e
      | .ok (rs, s) => .ok (r :: rs, s)

/-- The same on the upper level. -/
def specRun (spec : τ → ι → ρ × τ) (t : τ) : List ι → List ρ × τ
  | [] => ([], t)
  | i :: is => ((spec t i).1 :: (specRun spec (spec t i).2 is).1, (specRun spec (spec t i).2 is).2)

/-- Every operation is allowed in the state that it comes to. -/
def Allowed (spec : τ → ι → ρ × τ) (P : τ → ι → Prop) (t : τ) : List ι → Prop
  | [] => True
  | i :: is => P t i ∧ Allowed spec P (spec t i).2 is

variable {step : σ → ι → Except ε (ρ × σ)} {spec : τ → ι → ρ × τ} {R : σ → τ → Prop}
  {P : τ → ι → Prop} {s : σ} {t : τ} {is : List ι}

/-- An operation that is allowed has the result of the upper level and keeps the states related. -/
def Refines (step : σ → ι → Except ε (ρ × σ)) (spec : τ → ι → ρ × τ) (R : σ → τ → Prop)
    (P : τ → ι → Prop) : Prop :=
  ∀ s t i, R s t → P t i → ∃ s', step s i = .ok ((spec t i).1, s') ∧ R s' (spec t i).2

/-- **A sequence of operations** has the results of the upper level and ends in a related state. -/
theorem Refines.run (h : Refines step spec R P) (hs : R s t) (his : Allowed spec P t is) :
    ∃ s', Refinement.run step s is = .ok ((specRun spec t is).1, s') ∧ R s' (specRun spec t is).2 := by
  induction is generalizing s t with
  | nil => exact ⟨s, rfl, hs⟩
  | cons i is ih =>
    obtain ⟨s₁, hstep, hs₁⟩ := h s t i hs his.1
    obtain ⟨s', hrun, hs'⟩ := ih hs₁ his.2
    refine ⟨s', ?_, hs'⟩
    rw [Refinement.run, hstep]
    dsimp only
    rw [hrun]
    rfl

/-- Operations that are allowed under a stronger condition. -/
theorem Allowed.imp {Q : τ → ι → Prop} (hPQ : ∀ t i, P t i → Q t i) (his : Allowed spec P t is) :
    Allowed spec Q t is := by
  induction is generalizing t with
  | nil => exact trivial
  | cons i is ih => exact ⟨hPQ t i his.1, ih his.2⟩

end Refinement
