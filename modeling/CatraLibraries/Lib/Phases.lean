/-
# Threads with phases

Often all that an invariant needs to know of a thread is its phase: which calls may come next,
and which phase the result of a call leads to.  A `Discipline` says both.  A program respects
it when it makes allowed calls only and ends in the idle phase, whatever the results are; then
no invariant has to look at a program again.

The phases of all threads are a function, idle where there is no program, so that an invariant
is a property of the shared data and of this function.  A start changes neither; a call moves
one thread to its next phase.
-/
import CatraLibraries.Lib.Threads

namespace Threads

/-- What each phase allows, and what comes after it. -/
structure Discipline (Op : Type) (Res : Op → Type) (Λ : Type) where
  idle : Λ
  allowed : Op → Λ → Prop
  next : (op : Op) → Res op → Λ → Λ

variable {Op : Type} {Res : Op → Type} {Λ σ ρ γ T α β : Type}

namespace Discipline

variable (D : Discipline Op Res Λ)

/-- A call has to be allowed, and leads to the next phase. -/
def spec : OpSpec Op Res Λ where
  pre op l Q := D.allowed op l ∧ ∀ r, Q r (D.next op r l)
  mono hQ h := ⟨h.1, fun r => hQ r _ (h.2 r)⟩

/-- The program respects the discipline in this phase, and ends with `Q`. -/
abbrev Respects (p : Prog Op Res α) (l : Λ) (Q : α → Λ → Prop) : Prop := wp D.spec p l Q

variable {D}

/-- A call is followed by what comes after each of its results. -/
theorem respects_lift {op : Op} {f : Res op → Prog Op Res β} {l : Λ} {Q : β → Λ → Prop}
    (h : D.allowed op l) (hf : ∀ r, D.Respects (f r) (D.next op r l) Q) :
    D.Respects (Prog.lift op >>= f) l Q := ⟨h, hf⟩

/-- One program after the other. -/
theorem respects_bind {p : Prog Op Res α} {f : α → Prog Op Res β} {l : Λ} {P : α → Λ → Prop}
    {Q : β → Λ → Prop} (hp : D.Respects p l P) (hf : ∀ a l', P a l' → D.Respects (f a) l' Q) :
    D.Respects (p >>= f) l Q := (wp_bind p f l Q).mpr (wp_mono p hf hp)

variable (D)

/-- The system whose threads carry their phase. -/
def system (body : ρ → Prog Op Res Unit) (exec : (op : Op) → γ → σ → Res op × σ) :
    System Op Res Λ σ ρ γ where
  body := body
  fresh := D.idle
  exec op c l d := ((exec op c d).1, D.next op (exec op c d).1 l, (exec op c d).2)

/-- The phase of a thread. -/
def phase (s : State Op Res Λ σ T) (t : T) : Λ :=
  match s.threads t with
  | none => D.idle
  | some th => th.data

/-- All threads are at programs that respect the discipline and end in the idle phase. -/
def Kept (s : State Op Res Λ σ T) : Prop :=
  ∀ t th, s.threads t = some th → D.Respects th.prog th.data fun _ l => l = D.idle

end Discipline

/-- The thread is about to make this call. -/
def Calls (s : State Op Res Λ σ T) (t : T) (op : Op) : Prop :=
  ∃ f l, s.threads t = some ⟨.call op f, l⟩

namespace Discipline

variable {D : Discipline Op Res Λ} {body : ρ → Prog Op Res Unit}
  {exec : (op : Op) → γ → σ → Res op × σ} [DecidableEq T]

/-- What a step can be, for somebody who sees the phases. -/
inductive Move (D : Discipline Op Res Λ) (exec : (op : Op) → γ → σ → Res op × σ)
    (s : State Op Res Λ σ T) : Action ρ γ T → σ → (T → Λ) → Prop
  | start (t : T) (r : ρ) : Move D exec s (.start t r) s.shared (D.phase s)
  | call (t : T) (c : γ) (op : Op) : Calls s t op → D.allowed op (D.phase s t) →
      Move D exec s (.call t c) (exec op c s.shared).2
        (Function.update (D.phase s) t (D.next op (exec op c s.shared).1 (D.phase s t)))

/-- A thread goes on with the rest of its program, or is idle. -/
theorem phase_settle {s : State Op Res Λ σ T} {shared : σ} {t : T} {p : Prog Op Res Unit} {l : Λ}
    (h : D.Respects p l fun _ l => l = D.idle) :
    D.phase ⟨shared, Function.update s.threads t (settle p l)⟩ = Function.update (D.phase s) t l := by
  funext t'
  rcases eq_or_ne t' t with rfl | ht
  · rw [Function.update_self]
    cases p with
    | ret a =>
      have hidle : l = D.idle := h
      simp [phase, settle, hidle]
    | call op f => simp [phase, settle]
  · rw [Function.update_of_ne ht]
    simp [phase, Function.update_of_ne ht]

theorem Kept.settle {s : State Op Res Λ σ T} (hs : D.Kept s) {shared : σ} {t : T}
    {p : Prog Op Res Unit} {l : Λ} (h : D.Respects p l fun _ l => l = D.idle) :
    D.Kept (⟨shared, Function.update s.threads t (Threads.settle p l)⟩ : State Op Res Λ σ T) := by
  intro t' th hth
  rcases eq_or_ne t' t with rfl | ht
  · dsimp only at hth
    rw [Function.update_self] at hth
    cases p with
    | ret a => cases hth
    | call op f =>
      obtain rfl := Option.some.inj hth
      exact h
  · dsimp only at hth
    rw [Function.update_of_ne ht] at hth
    exact hs t' th hth

/-- **One step** keeps the discipline, and moves the phases by it. -/
theorem Kept.step (hbody : ∀ r, D.Respects (body r) D.idle fun _ l => l = D.idle)
    {s s' : State Op Res Λ σ T} {a : Action ρ γ T} (hs : D.Kept s)
    (h : Threads.step (D.system body exec) s a = some s') :
    D.Kept s' ∧ Move D exec s a s'.shared (D.phase s') := by
  rcases step_cases h with ⟨t, r, rfl, hth, rfl⟩ | ⟨t, c, op, f, l, rfl, hth, rfl⟩
  · have hidle : D.phase s t = D.idle := by
      rw [phase, hth]
    refine ⟨hs.settle (hbody r), ?_⟩
    have hphase : D.phase (⟨s.shared, Function.update s.threads t (Threads.settle (body r) D.idle)⟩ :
        State Op Res Λ σ T) = D.phase s := by
      rw [phase_settle (hbody r), ← hidle, Function.update_eq_self]
    exact hphase ▸ Move.start t r
  · obtain ⟨hallowed, hrest⟩ := hs t _ hth
    have hl : D.phase s t = l := by
      rw [phase, hth]
    have hnext := hrest (exec op c s.shared).1
    refine ⟨hs.settle hnext, ?_⟩
    have hphase : D.phase (⟨(exec op c s.shared).2, Function.update s.threads t
        (Threads.settle (f (exec op c s.shared).1) (D.next op (exec op c s.shared).1 l))⟩ :
        State Op Res Λ σ T)
          = Function.update (D.phase s) t (D.next op (exec op c s.shared).1 (D.phase s t)) := by
      rw [phase_settle hnext, hl]
    exact hphase ▸ Move.call t c op ⟨f, l, hth⟩ (hl ▸ hallowed)

/-- A condition on the calls of a state. -/
def Meets (meets : State Op Res Λ σ T → T → Op → γ → Prop) (s : State Op Res Λ σ T) :
    Action ρ γ T → Prop
  | .start _ _ => True
  | .call t c => ∀ op, Calls s t op → meets s t op c

omit [DecidableEq T] in
/-- The condition is one on the call that the thread is about to make. -/
theorem meets_call {meets : State Op Res Λ σ T → T → Op → γ → Prop} {s : State Op Res Λ σ T} {t : T}
    {c : γ} {op : Op} {f : Res op → Prog Op Res Unit} {l : Λ}
    (hth : s.threads t = some ⟨.call op f, l⟩) (h : meets s t op c) :
    Meets meets s (.call t c : Action ρ γ T) := by
  rintro op' ⟨f', l', hth'⟩
  cases hth.symm.trans hth'
  exact h

/-- An invariant of the shared data and the phases that every allowed call keeps, when it meets its
condition. -/
def Invariant (D : Discipline Op Res Λ) (exec : (op : Op) → γ → σ → Res op × σ)
    (Inv : σ → (T → Λ) → Prop) (meets : State Op Res Λ σ T → T → Op → γ → Prop) : Prop :=
  ∀ (s : State Op Res Λ σ T) t op c, Inv s.shared (D.phase s) → D.allowed op (D.phase s t) →
    meets s t op c →
    Inv (exec op c s.shared).2
      (Function.update (D.phase s) t (D.next op (exec op c s.shared).1 (D.phase s t)))

variable {Inv : σ → (T → Λ) → Prop} {meets : State Op Res Λ σ T → T → Op → γ → Prop}

/-- One step keeps an invariant. -/
theorem Invariant.step (hcall : D.Invariant exec Inv meets)
    (hbody : ∀ r, D.Respects (body r) D.idle fun _ l => l = D.idle)
    {s s' : State Op Res Λ σ T} {a : Action ρ γ T} (hs : D.Kept s) (hinv : Inv s.shared (D.phase s))
    (hmeets : Meets meets s a) (hstep : Threads.step (D.system body exec) s a = some s') :
    D.Kept s' ∧ Inv s'.shared (D.phase s') := by
  obtain ⟨hs', hmove⟩ := hs.step hbody hstep
  refine ⟨hs', ?_⟩
  generalize s'.shared = d at hmove
  generalize D.phase s' = ph at hmove
  cases hmove with
  | start t r => exact hinv
  | call t c op hcalls hallowed => exact hcall s t op c hinv hallowed (hmeets op hcalls)

/-- **The invariant rule for phases.**  An invariant holds in every run whose calls meet their
conditions. -/
theorem Invariant.run (hcall : D.Invariant exec Inv meets)
    (hbody : ∀ r, D.Respects (body r) D.idle fun _ l => l = D.idle)
    {s s' : State Op Res Λ σ T} {as : List (Action ρ γ T)} (hs : D.Kept s)
    (hinv : Inv s.shared (D.phase s))
    (hmeets : Transition.Always (Threads.step (D.system body exec))
      (fun s a _ => Meets meets s a) s as)
    (hrun : Transition.run (Threads.step (D.system body exec)) s as = some s') :
    Inv s'.shared (D.phase s') := by
  have hstep : ∀ (s : State Op Res Λ σ T) (a : Action ρ γ T) s',
      (D.Kept s ∧ Inv s.shared (D.phase s)) → Meets meets s a →
      Threads.step (D.system body exec) s a = some s' →
      D.Kept s' ∧ Inv s'.shared (D.phase s') :=
    fun _ _ _ h hmeets hstep => hcall.step hbody h.1 h.2 hmeets hstep
  exact (Transition.invariant hstep ⟨hs, hinv⟩ hmeets hrun).2

/-- **What the calls do**: what an invariant and their condition say of all allowed calls holds of
all calls of a run. -/
theorem Invariant.always (hcall : D.Invariant exec Inv meets)
    (hbody : ∀ r, D.Respects (body r) D.idle fun _ l => l = D.idle)
    {does : State Op Res Λ σ T → T → Op → γ → Prop}
    (hdoes : ∀ (s : State Op Res Λ σ T) t op c, Inv s.shared (D.phase s) →
      D.allowed op (D.phase s t) → meets s t op c → does s t op c)
    {s : State Op Res Λ σ T} {as : List (Action ρ γ T)} (hs : D.Kept s)
    (hinv : Inv s.shared (D.phase s))
    (hmeets : Transition.Always (Threads.step (D.system body exec))
      (fun s a _ => Meets meets s a) s as) :
    Transition.Always (Threads.step (D.system body exec)) (fun s a _ => Meets does s a) s as := by
  have hstep : ∀ (s : State Op Res Λ σ T) (a : Action ρ γ T) s',
      (D.Kept s ∧ Inv s.shared (D.phase s)) → Meets meets s a →
      Threads.step (D.system body exec) s a = some s' →
      (D.Kept s' ∧ Inv s'.shared (D.phase s')) ∧ Meets does s a := by
    rintro s a s' ⟨hs, hinv⟩ hmeets hstep
    refine ⟨hcall.step hbody hs hinv hmeets hstep, ?_⟩
    cases a with
    | start t r => trivial
    | call t c =>
      rintro op ⟨f, l, hth⟩
      have hphase : D.phase s t = l := by
        rw [phase, hth]
      exact hdoes s t op c hinv (hphase ▸ (hs t _ hth).1) (hmeets op ⟨f, l, hth⟩)
  exact Transition.always_of_invariant hstep ⟨hs, hinv⟩ hmeets

end Discipline

end Threads
