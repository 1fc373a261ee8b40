/-
# Jump search

A loop that looks for the first point with a property `P` need not try every point: where
the present one fails it may jump ahead, as long as no point it passes over has the
property.  `Seeks` is that contract of one pass, and the rules below are what it gives for
the loop: the point found is the least one, a loop that gives up has nothing to find, and
the loop ends when there is something to find, or when its passes end beyond some point.

The loop runs on any state and takes fuel; `loop_map` moves it between two representations
of the points.
-/
import CatraLibraries.Lib.Memory
import Mathlib.Order.Bounds.Basic
import Mathlib.Order.Interval.Finset.Basic

namespace JumpSearch

open Memory

universe u

variable {σ τ ε : Type u}

/-- How one pass through the body ends: with a result, with another pass, or with an
error. -/
inductive Pass (σ ε : Type u)
  | done (s : σ)
  | again (s : σ)
  | fail (e : ε)
  deriving DecidableEq

def Pass.map (f : σ → τ) : Pass σ ε → Pass τ ε
  | .done s => .done (f s)
  | .again s => .again (f s)
  | .fail e => .fail e

/-- The loop, for at most `n` passes. -/
def loop (body : σ → Pass σ ε) : Nat → σ → Except Fault (Except ε σ)
  | 0, _ => .error .outOfFuel
  | n + 1, s =>
    match body s with
    | .done s' => .ok (.ok s')
    | .again s' => loop body n s'
    | .fail e => .ok (.error e)

section

attribute [local simp] loop

theorem loop_done {body : σ → Pass σ ε} {s s' : σ} (n : Nat) (h : body s = .done s') :
    loop body (n + 1) s = .ok (.ok s') := by
  rw [loop, h]

end

theorem loop_again {body : σ → Pass σ ε} {s s' : σ} (n : Nat) (h : body s = .again s') :
    loop body (n + 1) s = loop body n s' := by
  rw [loop, h]

theorem loop_fail {body : σ → Pass σ ε} {s : σ} {e : ε} (n : Nat) (h : body s = .fail e) :
    loop body (n + 1) s = .ok (.error e) := by
  rw [loop, h]

/-- The error of a loop is the error of one of its passes. -/
theorem exists_fail_of_loop {body : σ → Pass σ ε} {n : Nat} {s : σ} {e : ε}
    (h : loop body n s = .ok (.error e)) : ∃ s', body s' = .fail e := by
  induction n generalizing s with
  | zero => exact absurd h (by simp [loop])
  | succ n ih =>
    cases hb : body s with
    | done s' => rw [loop_done n hb] at h; exact absurd (Except.ok.inj h) (by simp)
    | again s' => rw [loop_again n hb] at h; exact ih h
    | fail e' =>
      rw [loop_fail n hb] at h
      exact ⟨s, by rw [hb, Except.error.inj (Except.ok.inj h)]⟩

/-- A loop that simulates another one gives the image of its result. -/
theorem loop_map {body : σ → Pass σ ε} {body' : τ → Pass τ ε} {f : σ → τ}
    (h : ∀ s, body' (f s) = (body s).map f) (n : Nat) (s : σ) :
    loop body' n (f s) = (loop body n s).map (Except.map f) := by
  induction n generalizing s with
  | zero => rfl
  | succ n ih =>
    have hs := h s
    cases hb : body s with
    | done s' => rw [hb] at hs; rw [loop_done n hs, loop_done n hb]; rfl
    | again s' => rw [hb] at hs; rw [loop_again n hs, loop_again n hb, ih]
    | fail e => rw [hb] at hs; rw [loop_fail n hs, loop_fail n hb]; rfl

/-- The same pass, with its errors said in another way. -/
def Pass.mapFail {ε' : Type u} (f : ε → ε') : Pass σ ε → Pass σ ε'
  | .done s => .done s
  | .again s => .again s
  | .fail e => .fail (f e)

/-- **Two loops that differ in what they call their errors** end at the same place. -/
theorem loop_mapFail {ε' : Type u} {body : σ → Pass σ ε} {body' : σ → Pass σ ε'} {f : ε → ε'}
    (h : ∀ s, body' s = (body s).mapFail f) (n : Nat) (s : σ) :
    loop body' n s = (loop body n s).map (Except.mapError f) := by
  induction n generalizing s with
  | zero => rfl
  | succ n ih =>
    have hs := h s
    cases hb : body s with
    | done s' => rw [hb] at hs; rw [loop_done n hs, loop_done n hb]; rfl
    | again s' => rw [hb] at hs; rw [loop_again n hs, loop_again n hb, ih]
    | fail e => rw [hb] at hs; rw [loop_fail n hs, loop_fail n hb]; rfl

/-- A loop all of whose passes ask for another one does not end. -/
theorem loop_diverges {body : σ → Pass σ ε} {I : σ → Prop}
    (h : ∀ s, I s → ∃ s', body s = .again s' ∧ I s') (n : Nat) {s : σ} (hs : I s) :
    loop body n s = .error .outOfFuel := by
  induction n generalizing s with
  | zero => rfl
  | succ n ih =>
    obtain ⟨s', hb, hs'⟩ := h s hs
    rw [loop_again n hb, ih hs']

/-! ### Searches -/

section Seeks

variable {α : Type u} [LinearOrder α] {body : α → Pass α ε} {P : α → Prop}

/-- One pass of a search for `P`: it stops only at a point with `P`, passes over no such
point, and gives up only where none is ahead. -/
structure Seeks (body : α → Pass α ε) (P : α → Prop) : Prop where
  done : ∀ {t t'}, body t = .done t' → t' = t ∧ P t
  again : ∀ {t t'}, body t = .again t' → t < t' ∧ ∀ u, t ≤ u → u < t' → ¬ P u
  fail : ∀ {t e}, body t = .fail e → ∀ u, t ≤ u → ¬ P u

/-- **What is found is the first.** -/
theorem Seeks.isLeast (hb : Seeks body P) {n : Nat} {t r : α}
    (h : loop body n t = .ok (.ok r)) : IsLeast {u | t ≤ u ∧ P u} r := by
  induction n generalizing t with
  | zero => exact absurd h (by simp [loop])
  | succ n ih =>
    cases hp : body t with
    | done t' =>
      obtain ⟨rfl, hP⟩ := hb.done hp
      rw [loop_done n hp] at h
      obtain rfl := Except.ok.inj (Except.ok.inj h)
      exact ⟨⟨le_rfl, hP⟩, fun u hu => hu.1⟩
    | again t' =>
      obtain ⟨hlt, hnone⟩ := hb.again hp
      rw [loop_again n hp] at h
      obtain ⟨⟨hle, hP⟩, hleast⟩ := ih h
      refine ⟨⟨hlt.le.trans hle, hP⟩, fun u hu => ?_⟩
      rcases lt_or_ge u t' with hlt' | hge
      · exact absurd hu.2 (hnone u hu.1 hlt')
      · exact hleast ⟨hge, hu.2⟩
    | fail e =>
      rw [loop_fail n hp] at h
      exact absurd (Except.ok.inj h) (by simp)

/-- **Where the search gives up there is nothing to find.** -/
theorem Seeks.none_of_error (hb : Seeks body P) {n : Nat} {t : α} {e : ε}
    (h : loop body n t = .ok (.error e)) (u : α) (hu : t ≤ u) : ¬ P u := by
  induction n generalizing t with
  | zero => exact absurd h (by simp [loop])
  | succ n ih =>
    cases hp : body t with
    | done t' =>
      rw [loop_done n hp] at h
      exact absurd (Except.ok.inj h) (by simp)
    | again t' =>
      rw [loop_again n hp] at h
      rcases lt_or_ge u t' with hlt | hge
      · exact (hb.again hp).2 u hu hlt
      · exact ih h hge
    | fail e' => exact hb.fail hp u hu

/-! ### Termination -/

variable [LocallyFiniteOrder α]

/-- The measure of a loop whose passes move ahead below a bound: the points in between. -/
theorem halts_of_lt {I : α → Prop} {b : α}
    (h : ∀ t t', I t → body t = .again t' → t < b ∧ t < t' ∧ I t') {t : α} (ht : I t) :
    ∃ n r, loop body n t = .ok r := by
  induction hk : (Finset.Ico t b).card using Nat.strong_induction_on generalizing t with
  | _ k ih =>
    cases hp : body t with
    | done t' => exact ⟨1, _, loop_done 0 hp⟩
    | fail e => exact ⟨1, _, loop_fail 0 hp⟩
    | again t' =>
      obtain ⟨hlt, hlt', hI⟩ := h t t' ht hp
      have hsub : Finset.Ico t' b ⊂ Finset.Ico t b := by
        refine Finset.ssubset_iff_subset_ne.mpr ⟨Finset.Ico_subset_Ico_left hlt'.le, ?_⟩
        intro heq
        have hmem : t ∈ Finset.Ico t' b := heq ▸ Finset.mem_Ico.mpr ⟨le_rfl, hlt⟩
        exact absurd (Finset.mem_Ico.mp hmem).1 (not_le.mpr hlt')
      obtain ⟨n, r, hr⟩ := ih _ (hk ▸ Finset.card_lt_card hsub) hI rfl
      exact ⟨n + 1, r, by rw [loop_again n hp, hr]⟩

/-- **A search with something to find ends.** -/
theorem Seeks.halts_of_exists (hb : Seeks body P) {t u : α} (hu : t ≤ u) (hP : P u) :
    ∃ n r, loop body n t = .ok r := by
  refine halts_of_lt (I := fun t => t ≤ u) (b := u) (fun t t' ht hp => ?_) hu
  obtain ⟨hlt, hnone⟩ := hb.again hp
  have hle : t' ≤ u := not_lt.mp fun hlt' => hnone u ht hlt' hP
  exact ⟨hlt.trans_le hle, hlt, hle⟩

/-- **A search that asks for no further pass beyond some point ends.** -/
theorem Seeks.halts_of_bound (hb : Seeks body P) {b : α}
    (hend : ∀ t t', body t = .again t' → t < b) (t : α) : ∃ n r, loop body n t = .ok r :=
  halts_of_lt (I := fun _ => True) (b := b)
    (fun t t' _ hp => ⟨hend t t' hp, (hb.again hp).1, trivial⟩) trivial

end Seeks

end JumpSearch
