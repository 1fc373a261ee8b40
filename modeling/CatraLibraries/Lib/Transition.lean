/-
# Transition systems

A system is a step function that may refuse an action: `step s a` is the state after `a`,
or `none` when `a` is not possible in `s`.  Threads, messages and the choices of the
environment are all actions, so a list of actions is an interleaving.

Two rules are all a proof needs.  `Always` says that a property of the single steps holds
in the whole run, and `always_iff` compares two such properties step by step.
`invariant` is the induction over a run: what the first state has, and every step that
meets a condition preserves, holds in the last state.
-/
import Mathlib.Init

namespace Transition

universe u v

variable {σ : Type u} {ι : Type v} (step : σ → ι → Option σ)

/-- The state after a sequence of actions, if each of them is possible. -/
def run (s : σ) : List ι → Option σ
  | [] => some s
  | a :: as => (step s a).bind fun s' => run s' as

/-- Every step of the run satisfies `P`, a property of the state before, the action and
the state after. -/
def Always (P : σ → ι → σ → Prop) (s : σ) : List ι → Prop
  | [] => True
  | a :: as => ∀ s', step s a = some s' → P s a s' ∧ Always P s' as

variable {step}

@[simp] theorem run_nil (s : σ) : run step s [] = some s := rfl

theorem run_cons (s : σ) (a : ι) (as : List ι) :
    run step s (a :: as) = (step s a).bind fun s' => run step s' as := rfl

/-- A run, and then one more step. -/
theorem run_concat (s : σ) (as : List ι) (a : ι) :
    run step s (as ++ [a]) = (run step s as).bind fun t => step t a := by
  induction as generalizing s with
  | nil =>
    show (step s a).bind (fun s' => some s') = step s a
    cases step s a with
    | none => rfl
    | some s' => rfl
  | cons b as ih =>
    rw [List.cons_append, run_cons, run_cons, Option.bind_assoc]
    refine congrArg (Option.bind _) ?_
    funext s'
    exact ih s'

/-- One step, and then the rest of a run. -/
theorem Always.cons {P : σ → ι → σ → Prop} {s t : σ} {a : ι} {as : List ι}
    (hs : step s a = some t) (hP : P s a t) (h : Always step P t as) :
    Always step P s (a :: as) := by
  intro s' hs'
  obtain rfl := Option.some.inj (hs.symm.trans hs')
  exact ⟨hP, h⟩

/-- What every step satisfies holds of every run. -/
theorem always_of_forall {P : σ → ι → σ → Prop} (h : ∀ s a s', P s a s') (s : σ) (as : List ι) :
    Always step P s as := by
  induction as generalizing s with
  | nil => trivial
  | cons a as ih => exact fun s' _ => ⟨h s a s', ih s'⟩

/-- A weaker property holds of the run too. -/
theorem Always.imp {P Q : σ → ι → σ → Prop} (h : ∀ s a s', P s a s' → Q s a s') {s : σ}
    {as : List ι} (hP : Always step P s as) : Always step Q s as := by
  induction as generalizing s with
  | nil => trivial
  | cons a as ih => exact fun s' hs => ⟨h s a s' (hP s' hs).1, ih (hP s' hs).2⟩

/-- Two properties of a run together. -/
theorem Always.and {P Q : σ → ι → σ → Prop} {s : σ} {as : List ι} (hP : Always step P s as)
    (hQ : Always step Q s as) : Always step (fun s a s' => P s a s' ∧ Q s a s') s as := by
  induction as generalizing s with
  | nil => trivial
  | cons a as ih =>
    exact fun s' hs => ⟨⟨(hP s' hs).1, (hQ s' hs).1⟩, ih (hP s' hs).2 (hQ s' hs).2⟩

/-- Two properties that agree on the steps of a domain from good states, the first of which
keeps the state good, agree on the runs of the domain from a good state. -/
theorem always_iff_within {Inv : σ → Prop} {D P Q : σ → ι → σ → Prop}
    (h : ∀ s a s', Inv s → D s a s' → step s a = some s' → (P s a s' ↔ Q s a s'))
    (hkeep : ∀ s a s', Inv s → D s a s' → step s a = some s' → P s a s' → Inv s') {s : σ}
    (hs : Inv s) {as : List ι} (hD : Always step D s as) :
    Always step P s as ↔ Always step Q s as := by
  induction as generalizing s with
  | nil => exact Iff.rfl
  | cons a as ih =>
    refine forall_congr' fun s' => ?_
    refine imp_congr_right fun hs' => ?_
    obtain ⟨hd, hrest⟩ := hD s' hs'
    rw [← h s a s' hs hd hs']
    exact and_congr_right fun hP => ih (hkeep s a s' hs hd hs' hP) hrest

/-- The same where every step is in the domain. -/
theorem always_iff_of_invariant {Inv : σ → Prop} {P Q : σ → ι → σ → Prop}
    (h : ∀ s a s', Inv s → step s a = some s' → (P s a s' ↔ Q s a s'))
    (hkeep : ∀ s a s', Inv s → step s a = some s' → P s a s' → Inv s') {s : σ} (hs : Inv s)
    (as : List ι) : Always step P s as ↔ Always step Q s as :=
  always_iff_within (D := fun _ _ _ => True) (fun s a s' hinv _ => h s a s' hinv)
    (fun s a s' hinv _ => hkeep s a s' hinv) hs (always_of_forall (fun _ _ _ => trivial) s as)

/-- The same where the steps that have the first property keep the state good. -/
theorem always_iff_of_kept {Inv : σ → Prop} {P Q : σ → ι → σ → Prop}
    (h : ∀ s a s', Inv s → step s a = some s' → (P s a s' ↔ Q s a s'))
    (hkeep : ∀ s a s', P s a s' → Inv s') {s : σ} (hs : Inv s) (as : List ι) :
    Always step P s as ↔ Always step Q s as :=
  always_iff_of_invariant h (fun s a s' _ _ => hkeep s a s') hs as

/-- Two properties that agree on every step agree on every run. -/
theorem always_iff {P Q : σ → ι → σ → Prop}
    (h : ∀ s a s', step s a = some s' → (P s a s' ↔ Q s a s')) (s : σ) (as : List ι) :
    Always step P s as ↔ Always step Q s as := by
  induction as generalizing s with
  | nil => exact Iff.rfl
  | cons a as ih =>
    refine forall_congr' fun s' => ?_
    refine imp_congr_right fun hs => ?_
    rw [h s a s' hs, ih s']

/-- What holds of every step holds of the last one. -/
theorem Always.last {P : σ → ι → σ → Prop} {s t t' : σ} {a : ι} {as : List ι}
    (h : Always step P s (as ++ [a])) (hrun : run step s as = some t)
    (ht : step t a = some t') : P t a t' := by
  induction as generalizing s with
  | nil =>
    obtain rfl := Option.some.inj hrun
    exact (h t' ht).1
  | cons b as ih =>
    obtain ⟨s', hs, hrest⟩ := Option.bind_eq_some_iff.mp hrun
    exact ih (h s' hs).2 hrest

/-- What every step with one of the actions satisfies. -/
theorem always_of_actions {P : σ → ι → σ → Prop} {as : List ι}
    (h : ∀ a ∈ as, ∀ s s', P s a s') (s : σ) : Always step P s as := by
  induction as generalizing s with
  | nil => trivial
  | cons a as ih =>
    exact fun s' _ => ⟨h a List.mem_cons_self s s',
      ih (fun b hb => h b (List.mem_cons_of_mem a hb)) s'⟩

/-- Where an invariant is kept by steps that meet a condition, what it gives for each of them
holds of the whole run. -/
theorem always_of_invariant {Inv : σ → Prop} {P Q : σ → ι → σ → Prop}
    (hstep : ∀ s a s', Inv s → P s a s' → step s a = some s' → Inv s' ∧ Q s a s') {s : σ}
    {as : List ι} (hs : Inv s) (h : Always step P s as) : Always step Q s as := by
  induction as generalizing s with
  | nil => trivial
  | cons a as ih =>
    intro s' hs'
    obtain ⟨hP, hrest⟩ := h s' hs'
    obtain ⟨hinv, hQ⟩ := hstep s a s' hs hP hs'
    exact ⟨hQ, ih hinv hrest⟩

/-- A run on which a property of the steps can be decided. -/
def Always.decidable (P : σ → ι → σ → Prop) [∀ s a s', Decidable (P s a s')] :
    (s : σ) → (as : List ι) → Decidable (Always step P s as)
  | _, [] => isTrue trivial
  | s, a :: as =>
    match h : step s a with
    | none => isTrue fun s' hs' => by rw [h] at hs'; cases hs'
    | some t =>
      have := Always.decidable P t as
      decidable_of_iff (P s a t ∧ Always step P t as)
        ⟨fun hall => Always.cons h hall.1 hall.2, fun hall => hall t h⟩

instance (P : σ → ι → σ → Prop) [∀ s a s', Decidable (P s a s')] (s : σ) (as : List ι) :
    Decidable (Always step P s as) := Always.decidable P s as

/-- **The invariant rule.**  An invariant that every step keeps when it meets its condition
holds at the end of every run whose steps meet their conditions. -/
theorem invariant {Inv : σ → Prop} {Meets : σ → ι → Prop}
    (hstep : ∀ s a s', Inv s → Meets s a → step s a = some s' → Inv s') {s t : σ}
    {as : List ι} (hs : Inv s) (hmeets : Always step (fun s a _ => Meets s a) s as)
    (hrun : run step s as = some t) : Inv t := by
  induction as generalizing s with
  | nil => exact Option.some.inj hrun ▸ hs
  | cons a as ih =>
    obtain ⟨s', hs', hrest⟩ := Option.bind_eq_some_iff.mp hrun
    obtain ⟨hm, hmeets⟩ := hmeets s' hs'
    exact ih (hstep s a s' hs hm hs') hmeets hrest

/-! ### What is seen of a run -/

/-- What an observer sees of the steps of a run, who sees of each step the state before, the action
and the state after. -/
def observations {β : Type*} (step : σ → ι → Option σ) (obs : σ → ι → σ → List β) (s : σ) :
    List ι → List β
  | [] => []
  | a :: as => ((step s a).map fun s' => obs s a s' ++ observations step obs s' as).getD []

/-- **A list that grows by what is seen** of each step has, after a run, grown by what is seen of the
run. -/
theorem observations_of_step {β : Type*} {Inv : σ → Prop} {obs : σ → ι → σ → List β}
    (seen : σ → List β) (hkeep : ∀ s a s', Inv s → step s a = some s' → Inv s')
    (hgrow : ∀ s a s', Inv s → step s a = some s' → seen s' = seen s ++ obs s a s') {s t : σ}
    {as : List ι} (hs : Inv s) (hrun : run step s as = some t) :
    seen t = seen s ++ observations step obs s as := by
  induction as generalizing s with
  | nil =>
    obtain rfl := Option.some.inj hrun
    exact (List.append_nil _).symm
  | cons a as ih =>
    obtain ⟨s', hs', hrest⟩ := Option.bind_eq_some_iff.mp hrun
    have hobs : observations step obs s (a :: as) = obs s a s' ++ observations step obs s' as := by
      rw [observations, hs']
      rfl
    rw [ih (hkeep s a s' hs hs') hrest, hgrow s a s' hs hs', hobs, List.append_assoc]

end Transition
