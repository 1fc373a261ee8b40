/-
# Threads that run programs

A program is a tree of calls of atomic operations, each with a continuation for its result.
A system has shared data and threads; a thread that is not idle has a program and data of its
own.  A step lets one thread start a program or make its next call, so a list of steps is an
interleaving, and what an operation answers may depend on a choice of the environment.

`wp` says what a program does with the knowledge of its thread, operation by operation.  The
rule `Covered.step` is thread-modular: when every operation keeps an invariant of the shared
data and of what all threads know, and the programs respect what the operations ask of them,
the invariant holds after every step.
-/
import CatraLibraries.Lib.Transition
import Mathlib.Logic.Function.Basic

namespace Threads

/-- Programs over operations with results. -/
inductive Prog (Op : Type) (Res : Op → Type) (α : Type)
  | ret (a : α)
  | call (op : Op) (k : Res op → Prog Op Res α)

variable {Op : Type} {Res : Op → Type} {α β κ : Type}

namespace Prog

/-- One program after the other. -/
def bind : Prog Op Res α → (α → Prog Op Res β) → Prog Op Res β
  | .ret a, f => f a
  | .call op k, f => .call op fun r => (k r).bind f

instance : Monad (Prog Op Res) where
  pure := .ret
  bind := bind

/-- The program that makes one call. -/
def lift (op : Op) : Prog Op Res (Res op) := .call op .ret

@[simp] theorem pure_def (a : α) : (pure a : Prog Op Res α) = .ret a := rfl

@[simp] theorem bind_def (p : Prog Op Res α) (f : α → Prog Op Res β) : p >>= f = p.bind f := rfl

end Prog

/-- What the operations ask of the knowledge of a thread, and what they leave it with. -/
structure OpSpec (Op : Type) (Res : Op → Type) (κ : Type) where
  pre : (op : Op) → κ → (Res op → κ → Prop) → Prop
  mono : ∀ {op k} {Q Q' : Res op → κ → Prop}, (∀ r k', Q r k' → Q' r k') → pre op k Q → pre op k Q'

/-- A program respects the operations and ends with `Q`. -/
def wp (Φ : OpSpec Op Res κ) : Prog Op Res α → κ → (α → κ → Prop) → Prop
  | .ret a, k, Q => Q a k
  | .call op f, k, Q => Φ.pre op k fun r k' => wp Φ (f r) k' Q

variable {Φ : OpSpec Op Res κ}

@[simp] theorem wp_ret (a : α) (k : κ) (Q : α → κ → Prop) :
    wp Φ (.ret a : Prog Op Res α) k Q = Q a k := rfl

@[simp] theorem wp_lift (op : Op) (k : κ) (Q : Res op → κ → Prop) :
    wp Φ (Prog.lift op) k Q = Φ.pre op k Q := rfl

theorem wp_mono (p : Prog Op Res α) {k : κ} {Q Q' : α → κ → Prop} (hQ : ∀ a k', Q a k' → Q' a k')
    (h : wp Φ p k Q) : wp Φ p k Q' := by
  induction p generalizing k with
  | ret a => exact hQ a k h
  | call op f ih => exact Φ.mono (fun r k' hr => ih r hr) h

/-- Programs compose. -/
theorem wp_bind (p : Prog Op Res α) (f : α → Prog Op Res β) (k : κ) (Q : β → κ → Prop) :
    wp Φ (p.bind f) k Q ↔ wp Φ p k fun a k' => wp Φ (f a) k' Q := by
  induction p generalizing k with
  | ret a => exact Iff.rfl
  | call op g ih =>
    constructor
    · exact fun h => Φ.mono (fun r k' hr => (ih r k').mp hr) h
    · exact fun h => Φ.mono (fun r k' hr => (ih r k').mpr hr) h

/-! ### Interleavings -/

/-- A thread that works: what is left of its program, and its own data. -/
structure Thread (Op : Type) (Res : Op → Type) (Λ : Type) where
  prog : Prog Op Res Unit
  data : Λ

/-- A system of threads: what a thread may start, with the data it starts with, and what an
operation does to the data of its thread and to the shared data, for a choice of the
environment. -/
structure System (Op : Type) (Res : Op → Type) (Λ σ ρ γ : Type) where
  body : ρ → Prog Op Res Unit
  fresh : Λ
  exec : (op : Op) → γ → Λ → σ → Res op × Λ × σ

/-- The shared data and the threads; an idle thread has no program. -/
structure State (Op : Type) (Res : Op → Type) (Λ σ T : Type) where
  shared : σ
  threads : T → Option (Thread Op Res Λ)

/-- A step of one thread. -/
inductive Action (ρ γ T : Type)
  | start (t : T) (r : ρ)
  | call (t : T) (c : γ)

variable {Λ σ ρ γ T : Type} [DecidableEq T]

/-- A thread whose program has ended is idle. -/
def settle (p : Prog Op Res Unit) (l : Λ) : Option (Thread Op Res Λ) :=
  match p with
  | .ret _ => none
  | p => some ⟨p, l⟩

/-- One step. -/
def step (sys : System Op Res Λ σ ρ γ) (s : State Op Res Λ σ T) :
    Action ρ γ T → Option (State Op Res Λ σ T)
  | .start t r =>
    match s.threads t with
    | none => some ⟨s.shared, Function.update s.threads t (settle (sys.body r) sys.fresh)⟩
    | some _ => none
  | .call t c =>
    match s.threads t with
    | some ⟨.call op f, l⟩ =>
      let (r, l, shared) := sys.exec op c l s.shared
      some ⟨shared, Function.update s.threads t (settle (f r) l)⟩
    | _ => none

/-- What a step can be. -/
theorem step_cases {sys : System Op Res Λ σ ρ γ} {s s' : State Op Res Λ σ T} {a : Action ρ γ T}
    (h : step sys s a = some s') :
    (∃ t r, a = .start t r ∧ s.threads t = none ∧
      s' = ⟨s.shared, Function.update s.threads t (settle (sys.body r) sys.fresh)⟩) ∨
    ∃ t c op f l, a = .call t c ∧ s.threads t = some ⟨.call op f, l⟩ ∧
      s' = ⟨(sys.exec op c l s.shared).2.2, Function.update s.threads t
        (settle (f (sys.exec op c l s.shared).1) (sys.exec op c l s.shared).2.1)⟩ := by
  cases a with
  | start t r =>
    dsimp only [step] at h
    split at h
    · exact Or.inl ⟨t, r, rfl, ‹_›, (Option.some.inj h).symm⟩
    · cases h
  | call t c =>
    dsimp only [step] at h
    split at h
    · exact Or.inr ⟨t, c, _, _, _, rfl, ‹_›, (Option.some.inj h).symm⟩
    · cases h

/-! ### Thread-modular invariants -/

/-- The invariant of the shared data and of the data and knowledge of all threads, and the
condition that calls have to meet.  `done` is what a thread may know at the end of a program,
and `effect` is what its knowledge says of the shared data right after a call. -/
structure Contract (Op : Type) (Res : Op → Type) (Λ σ T γ κ : Type) where
  spec : OpSpec Op Res κ
  inv : σ → (T → Option (Λ × κ)) → Prop
  begin : κ
  done : κ → Prop
  effect : σ → κ → Prop
  meets : (op : Op) → γ → Λ → σ → Prop

/-- What the system and its programs owe a contract. -/
structure Contract.Kept (C : Contract Op Res Λ σ T γ κ) (sys : System Op Res Λ σ ρ γ) : Prop where
  programs : ∀ r, wp C.spec (sys.body r) C.begin fun _ k => C.done k
  starts : ∀ {d w t}, C.inv d w → w t = none →
    C.inv d (Function.update w t (some (sys.fresh, C.begin)))
  ends : ∀ {d w t l k}, C.inv d w → w t = some (l, k) → C.done k → C.inv d (Function.update w t none)
  calls : ∀ {d w t l k op c Q}, C.inv d w → w t = some (l, k) → C.meets op c l d →
    C.spec.pre op k Q →
    ∃ k', Q (sys.exec op c l d).1 k' ∧ C.effect (sys.exec op c l d).2.2 k' ∧
      C.inv (sys.exec op c l d).2.2 (Function.update w t (some ((sys.exec op c l d).2.1, k')))

/-- The knowledge of a thread fits what it is doing. -/
def Contract.Fits (C : Contract Op Res Λ σ T γ κ) (th : Option (Thread Op Res Λ))
    (w : Option (Λ × κ)) : Prop :=
  match th, w with
  | none, none => True
  | some th, some (l, k) => th.data = l ∧ wp C.spec th.prog k fun _ k => C.done k
  | _, _ => False

/-- A state has the invariant, for some knowledge of its threads. -/
def Contract.Covered (C : Contract Op Res Λ σ T γ κ) (s : State Op Res Λ σ T) : Prop :=
  ∃ w, C.inv s.shared w ∧ ∀ t, C.Fits (s.threads t) (w t)

/-- The condition on a step. -/
def Contract.Meets (C : Contract Op Res Λ σ T γ κ) (s : State Op Res Λ σ T) :
    Action ρ γ T → Prop
  | .start _ _ => True
  | .call t c =>
    ∀ op f l, s.threads t = some ⟨.call op f, l⟩ → C.meets op c l s.shared

namespace Contract

variable {C : Contract Op Res Λ σ T γ κ} {sys : System Op Res Λ σ ρ γ}

theorem Fits.update {th : T → Option (Thread Op Res Λ)} {w : T → Option (Λ × κ)}
    (h : ∀ t, C.Fits (th t) (w t)) {t₀ : T} {x : Option (Thread Op Res Λ)} {y : Option (Λ × κ)}
    (hxy : C.Fits x y) (t : T) : C.Fits (Function.update th t₀ x t) (Function.update w t₀ y t) := by
  rcases eq_or_ne t t₀ with rfl | ht
  · rwa [Function.update_self, Function.update_self]
  · rw [Function.update_of_ne ht, Function.update_of_ne ht]
    exact h t

/-- A thread goes on with a program, or is idle when that has ended. -/
theorem Kept.settle (hC : C.Kept sys) {d : σ} {w : T → Option (Λ × κ)} {t : T} {l : Λ} {k : κ}
    {p : Prog Op Res Unit} (hinv : C.inv d (Function.update w t (some (l, k))))
    (hp : wp C.spec p k fun _ k => C.done k) :
    ∃ y, C.inv d (Function.update w t y) ∧ C.Fits (Threads.settle p l) y := by
  cases p with
  | ret a =>
    have hends := hC.ends hinv (Function.update_self ..) hp
    rw [Function.update_idem] at hends
    exact ⟨none, hends, trivial⟩
  | call op f => exact ⟨some (l, k), hinv, rfl, hp⟩

/-- **The thread-modular rule.** -/
theorem Covered.step (hC : C.Kept sys) {s s' : State Op Res Λ σ T} {a : Action ρ γ T}
    (hs : C.Covered s) (hmeets : C.Meets s a) (h : Threads.step sys s a = some s') :
    C.Covered s' := by
  obtain ⟨w, hinv, hfits⟩ := hs
  rcases step_cases h with ⟨t, r, rfl, hth, rfl⟩ | ⟨t, c, op, f, l, rfl, hth, rfl⟩
  · have hfit := hfits t
    rw [hth] at hfit
    cases hw : w t with
    | some y =>
      rw [hw] at hfit
      exact hfit.elim
    | none =>
      obtain ⟨y, hy, hfit'⟩ := hC.settle (hC.starts hinv hw) (hC.programs r)
      exact ⟨_, hy, Fits.update hfits hfit'⟩
  · have hfit := hfits t
    rw [hth] at hfit
    cases hw : w t with
    | none =>
      rw [hw] at hfit
      exact hfit.elim
    | some y =>
      obtain ⟨l', k⟩ := y
      rw [hw] at hfit
      obtain ⟨rfl, hwp⟩ := hfit
      obtain ⟨k', hQ, -, hinv'⟩ := hC.calls hinv hw (hmeets op f l hth) hwp
      obtain ⟨y, hy, hfit'⟩ := hC.settle hinv' hQ
      exact ⟨_, hy, Fits.update hfits hfit'⟩

/-- **The end of a program**: a thread becomes idle by a call after which it knows what it has
to know. -/
theorem Covered.idle (hC : C.Kept sys) {s s' : State Op Res Λ σ T} {a : Action ρ γ T}
    (hs : C.Covered s) (hmeets : C.Meets s a) (h : Threads.step sys s a = some s') {t : T}
    {th : Thread Op Res Λ} (ht : s.threads t = some th) (ht' : s'.threads t = none) :
    ∃ op c w k, C.inv s'.shared w ∧ w t = some ((sys.exec op c th.data s.shared).2.1, k) ∧
      C.done k ∧ C.effect s'.shared k := by
  obtain ⟨w, hinv, hfits⟩ := hs
  rcases step_cases h with ⟨t₀, r, rfl, hth, rfl⟩ | ⟨t₀, c, op, f, l, rfl, hth, rfl⟩
  · rcases eq_or_ne t t₀ with rfl | hne
    · rw [ht] at hth
      cases hth
    · dsimp only at ht'
      rw [Function.update_of_ne hne, ht] at ht'
      cases ht'
  · rcases eq_or_ne t t₀ with rfl | hne
    · have hfit := hfits t
      obtain rfl : th = _ := Option.some.inj (ht.symm.trans hth)
      rw [hth] at hfit
      cases hw : w t with
      | none =>
        rw [hw] at hfit
        exact hfit.elim
      | some y =>
        obtain ⟨l', k⟩ := y
        rw [hw] at hfit
        obtain ⟨rfl, hwp⟩ := hfit
        obtain ⟨k', hQ, heffect, hinv'⟩ := hC.calls hinv hw (hmeets op f l hth) hwp
        refine ⟨op, c, _, k', hinv', Function.update_self .., ?_, heffect⟩
        -- what is left of the program is its end
        dsimp only at ht'
        rw [Function.update_self] at ht'
        cases hf : f (sys.exec op c l s.shared).1 with
        | ret a =>
          rw [hf] at hQ
          exact hQ
        | call op' f' =>
          rw [hf] at ht'
          cases ht'
    · dsimp only at ht'
      rw [Function.update_of_ne hne, ht] at ht'
      cases ht'

end Contract

end Threads
