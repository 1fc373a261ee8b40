/-
# No object is registered twice

The list of a scheduler has no duplicates as long as every object that is added was not in it.
`Scheduler::activeTimes` sees to that itself; `Scheduler2::activeTimes` does not, so there it
is a condition on the calls.  Without duplicates a pass of `handleTimes` calls each object at
most once: the objects handled so far are never behind the index of the pass, whatever the
calls of `handleTimeOut` remove, and whatever they add unless it was handled before.
-/
import CatraLibraries.Lib.Transition
import CatraLibraries.Scheduler.Scheduler
import Mathlib.Data.List.Nodup

namespace CatraLibraries

open Memory

namespace TimesRegistry

variable {σ : Type}

/-- What a registry does to its list, when objects are added that are `fresh`. -/
structure Lawful (R : TimesRegistry σ) (fresh : σ → TimesP → Prop) : Prop where
  activeTimes : ∀ {newOk pTimes s s'}, R.activeTimes newOk pTimes s = .ok s' → fresh s pTimes →
    R.times s' = R.times s ∨ R.times s' = R.times s ++ [pTimes] ∧ pTimes ∉ R.times s
  deactiveTimes : ∀ pTimes s, (R.times (R.deactiveTimes pTimes s)).Sublist (R.times s)
  deactiveTimesIndex : ∀ i s, (R.times (R.deactiveTimesIndex i s).2).Sublist (R.times s)
  removed : ∀ {i : Nat} {s s'}, R.deactiveTimesIndex i s = (true, s') →
    R.times s' = (R.times s).eraseIdx i
  notRemoved : ∀ {i : Nat} {s s'}, R.deactiveTimesIndex i s = (false, s') →
    R.times s' = R.times s

variable (R : TimesRegistry σ)

/-- The objects that a `handleTimeOut` adds satisfy `A`, which may look at the registry and at
the objects handled so far. -/
def CallsMeet (A : σ → List TimesP → TimesP → Prop) (handled : List TimesP) :
    List Call → σ → Prop
  | [], _ => True
  | .activeTimes newOk pTimes :: calls, s =>
    A s handled pTimes ∧ ∀ s', R.activeTimes newOk pTimes s = .ok s' → CallsMeet A handled calls s'
  | .deactiveTimes pTimes :: calls, s => CallsMeet A handled calls (R.deactiveTimes pTimes s)
  | .deactiveTimesIndex i :: calls, s => CallsMeet A handled calls (R.deactiveTimesIndex i s).2

/-- All objects that are added during a pass satisfy `A`. -/
def PassMeets (A : σ → List TimesP → TimesP → Prop) (visits : Nat → Visit) :
    Nat → Nat → List TimesP → Nat → σ → Prop
  | 0, _, _, _, _ => True
  | fuel + 1, k, handled, i, s =>
    ∀ pTimes, (R.times s)[i]? = some pTimes →
      match R.before (visits k) i s with
      | .stop _ _ => True
      | .skip => PassMeets A visits fuel (k + 1) handled (i + 1) s
      | .call s₁ bIsTimesDeactived =>
        R.CallsMeet A (handled ++ [pTimes]) (visits k).calls s₁ ∧
          ∀ s₂, R.runCalls (visits k).calls s₁ = .ok s₂ →
            ∀ i' s₃, R.after (visits k) i bIsTimesDeactived s₂ = (.ok i', s₃) →
              PassMeets A visits fuel (k + 1) (handled ++ [pTimes]) i' s₃

/-! ### What a pass preserves -/

/-- No duplicates, and no object handled before is still to come. -/
structure Once (handled : List TimesP) (i : Nat) (l : List TimesP) : Prop where
  nodup : l.Nodup
  handled_nodup : handled.Nodup
  passed : ∀ p ∈ handled, p ∉ l.drop i

theorem Once.sublist {handled l l' : List TimesP} {i : Nat} (h : Once handled i l)
    (hsub : l'.Sublist l) : Once handled i l' :=
  ⟨h.nodup.sublist hsub, h.handled_nodup, fun p hp hmem =>
    h.passed p hp ((hsub.drop i).subset hmem)⟩

theorem Once.append {handled l : List TimesP} {i : Nat} {q : TimesP} (h : Once handled i l)
    (hq : q ∉ l) (hnew : q ∉ handled) : Once handled i (l ++ [q]) := by
  refine ⟨?_, h.handled_nodup, fun p hp hmem => ?_⟩
  · rw [List.nodup_append]
    exact ⟨h.nodup, by simp, fun a ha b hb heq => hq (by simp at hb; rwa [← hb, ← heq])⟩
  · rw [List.drop_append] at hmem
    rcases List.mem_append.mp hmem with hmem | hmem
    · exact h.passed p hp hmem
    · obtain rfl := List.mem_singleton.mp (List.mem_of_mem_drop hmem)
      exact hnew hp

theorem drop_eraseIdx_self (l : List TimesP) (i : Nat) : (l.eraseIdx i).drop i = l.drop (i + 1) := by
  induction l generalizing i with
  | nil => simp
  | cons p l ih =>
    cases i with
    | zero => rfl
    | succ i => simpa using ih i

/-- The object at the index has its turn. -/
theorem Once.handle {handled l : List TimesP} {i : Nat} {p : TimesP} (h : Once handled i l)
    (hp : l[i]? = some p) : Once (handled ++ [p]) (i + 1) l := by
  obtain ⟨hlt, rfl⟩ := List.getElem?_eq_some_iff.mp hp
  have hdrop : l.drop i = l[i] :: l.drop (i + 1) := List.drop_eq_getElem_cons hlt
  have hnodup : (l.drop i).Nodup := h.nodup.sublist (List.drop_sublist i l)
  rw [hdrop, List.nodup_cons] at hnodup
  refine ⟨h.nodup, ?_, fun q hq hmem => ?_⟩
  · rw [List.nodup_append]
    refine ⟨h.handled_nodup, by simp, fun a ha b hb heq => h.passed a ha ?_⟩
    obtain rfl := List.mem_singleton.mp hb
    rw [hdrop, heq]
    exact List.mem_cons_self
  · rcases List.mem_append.mp hq with hq | hq
    · exact h.passed q hq (hdrop ▸ List.mem_cons_of_mem _ hmem)
    · obtain rfl := List.mem_singleton.mp hq
      exact hnodup.1 hmem

/-- After the removal at the index, the next object has the same index. -/
theorem Once.erase {handled l : List TimesP} {i : Nat} (h : Once handled (i + 1) l) :
    Once handled i (l.eraseIdx i) :=
  ⟨h.nodup.sublist (List.eraseIdx_sublist l i), h.handled_nodup, fun p hp hmem =>
    h.passed p hp (by rwa [drop_eraseIdx_self] at hmem)⟩

/-! ### The pass rule -/

/-- A property of the objects handled, the index and the list that each thing a pass does
preserves, when the objects added satisfy `A`. -/
structure Kept (A : σ → List TimesP → TimesP → Prop)
    (P : List TimesP → Nat → List TimesP → Prop) : Prop where
  sublist : ∀ {handled i l l'}, P handled i l → l'.Sublist l → P handled i l'
  append : ∀ {handled i l q s}, P handled i l → A s handled q → q ∉ l → P handled i (l ++ [q])
  skip : ∀ {handled i l}, P handled i l → P handled (i + 1) l
  handle : ∀ {handled i l p}, P handled i l → l[i]? = some p → P (handled ++ [p]) (i + 1) l
  erase : ∀ {handled i l}, P handled (i + 1) l → P handled i (l.eraseIdx i)

variable {R : TimesRegistry σ} {fresh : σ → TimesP → Prop} {A : σ → List TimesP → TimesP → Prop}
  {P : List TimesP → Nat → List TimesP → Prop}

theorem runCalls_kept (hR : R.Lawful fresh) (hA : ∀ s handled p, A s handled p → fresh s p)
    (hP : Kept A P) {handled : List TimesP} {i : Nat} {calls : List Call} {s s' : σ}
    (hinv : P handled i (R.times s)) (hmeets : R.CallsMeet A handled calls s)
    (hrun : R.runCalls calls s = .ok s') : P handled i (R.times s') := by
  induction calls generalizing s with
  | nil => exact Except.ok.inj hrun ▸ hinv
  | cons c calls ih =>
    cases c with
    | activeTimes newOk q =>
      obtain ⟨hq, hrest⟩ := hmeets
      obtain ⟨s₁, h₁, hrun⟩ := bind_eq_ok.mp hrun
      refine ih ?_ (hrest s₁ h₁) hrun
      rcases hR.activeTimes h₁ (hA _ _ _ hq) with heq | ⟨heq, hmem⟩
      · rwa [heq]
      · rw [heq]
        exact hP.append hinv hq hmem
    | deactiveTimes q => exact ih (hP.sublist hinv (hR.deactiveTimes q s)) hmeets hrun
    | deactiveTimesIndex j => exact ih (hP.sublist hinv (hR.deactiveTimesIndex j s)) hmeets hrun

theorem before_stop (hR : R.Lawful fresh) {v : Visit} {i : Nat} {s s₁ : σ} {r : PassEnd}
    (h : R.before v i s = .stop r s₁) : R.times s₁ = R.times s := by
  unfold before at h
  split at h
  · obtain ⟨-, rfl⟩ := Before.stop.inj h; rfl
  · exact absurd h (by simp)
  · split at h
    · obtain ⟨-, rfl⟩ := Before.stop.inj h; rfl
    · exact absurd h (by simp)
    · split at h
      · exact absurd h (by simp)
      · obtain ⟨-, rfl⟩ := Before.stop.inj h; rfl
      · split at h
        · exact absurd h (by simp)
        · next hd =>
          obtain ⟨-, rfl⟩ := Before.stop.inj h
          exact hR.notRemoved hd

theorem before_call (hR : R.Lawful fresh) {v : Visit} {i : Nat} {s s₁ : σ} {d : Bool}
    (h : R.before v i s = .call s₁ d) :
    R.times s₁ = if d then (R.times s).eraseIdx i else R.times s := by
  unfold before at h
  split at h
  · exact absurd h (by simp)
  · exact absurd h (by simp)
  · split at h
    · exact absurd h (by simp)
    · exact absurd h (by simp)
    · split at h
      · obtain ⟨rfl, rfl⟩ := Before.call.inj h; rfl
      · exact absurd h (by simp)
      · split at h
        · next hd =>
          obtain ⟨rfl, rfl⟩ := Before.call.inj h
          exact hR.removed hd
        · exact absurd h (by simp)

/-- After the call, the index of the next object fits the list. -/
theorem after_kept (hR : R.Lawful fresh) (hP : Kept A P) {v : Visit} {i : Nat} {d : Bool}
    {handled : List TimesP} {s s' : σ} {r : Except PassEnd Nat}
    (hinv : P handled (if d then i else i + 1) (R.times s)) (h : R.after v i d s = (r, s')) :
    P handled (match r with | .ok i' => i' | .error _ => i + 1) (R.times s') := by
  unfold after at h
  cases d with
  | true =>
    obtain ⟨rfl, rfl⟩ := Prod.mk.inj h
    exact hinv
  | false =>
    rw [if_neg (by simp)] at h
    split at h
    · obtain ⟨rfl, rfl⟩ := Prod.mk.inj h
      exact hinv
    · split at h
      · next hd =>
        obtain ⟨rfl, rfl⟩ := Prod.mk.inj h
        rw [hR.removed hd]
        exact hP.erase hinv
      · next hd =>
        obtain ⟨rfl, rfl⟩ := Prod.mk.inj h
        rw [hR.notRemoved hd]
        exact hinv

/-- **The pass rule.**  What each part of a pass preserves, the pass preserves. -/
theorem pass_kept (hR : R.Lawful fresh) (hA : ∀ s handled p, A s handled p → fresh s p)
    (hP : Kept A P) {visits : Nat → Visit} {fuel k i : Nat} {handled handled' : List TimesP}
    {s s' : σ} {r : PassEnd} (hinv : P handled i (R.times s))
    (hmeets : R.PassMeets A visits fuel k handled i s)
    (hrun : R.pass visits fuel k handled i s = .ok (r, handled', s')) :
    ∃ i', P handled' i' (R.times s') := by
  induction fuel generalizing k i handled s with
  | zero => exact absurd hrun (by simp [pass])
  | succ fuel ih =>
    unfold pass at hrun
    cases hp : (R.times s)[i]? with
    | none =>
      rw [hp] at hrun
      obtain ⟨-, rfl, rfl⟩ := by simpa using hrun
      exact ⟨i, hinv⟩
    | some p =>
      have hmeets := hmeets p hp
      rw [hp] at hrun
      dsimp only at hrun
      cases hb : R.before (visits k) i s with
      | stop r₁ s₁ =>
        rw [hb] at hrun
        obtain ⟨-, rfl, rfl⟩ := by simpa using hrun
        exact ⟨i, by rwa [before_stop hR hb]⟩
      | skip =>
        rw [hb] at hrun hmeets
        exact ih (hP.skip hinv) hmeets hrun
      | call s₁ d =>
        rw [hb] at hrun hmeets
        dsimp only at hrun hmeets
        obtain ⟨hcalls, hrest⟩ := hmeets
        have hturn := hP.handle hinv hp
        have hbefore : P (handled ++ [p]) (if d then i else i + 1) (R.times s₁) := by
          rw [before_call hR hb]
          cases d with
          | true => exact hP.erase hturn
          | false => exact hturn
        cases hc : R.runCalls (visits k).calls s₁ with
        | error fault => rw [hc] at hrun; exact absurd hrun (by simp)
        | ok s₂ =>
          rw [hc] at hrun
          dsimp only at hrun
          have hafter := runCalls_kept hR hA hP hbefore hcalls hc
          rcases ha : R.after (visits k) i d s₂ with ⟨r' | i', s₃⟩
          · rw [ha] at hrun
            obtain ⟨-, rfl, rfl⟩ := by simpa using hrun
            exact ⟨i + 1, after_kept hR hP hafter ha⟩
          · rw [ha] at hrun
            exact ih (after_kept hR hP hafter ha) (hrest s₂ hc i' s₃ ha) hrun

theorem callsMeet_of_forall (hA : ∀ s handled p, A s handled p) (handled : List TimesP)
    (calls : List Call) (s : σ) : R.CallsMeet A handled calls s := by
  induction calls generalizing s with
  | nil => trivial
  | cons c calls ih =>
    cases c with
    | activeTimes newOk p => exact ⟨hA s handled p, fun s' _ => ih s'⟩
    | deactiveTimes p => exact ih _
    | deactiveTimesIndex j => exact ih _

theorem passMeets_of_forall (hA : ∀ s handled p, A s handled p) (visits : Nat → Visit)
    (fuel k : Nat) (handled : List TimesP) (i : Nat) (s : σ) :
    R.PassMeets A visits fuel k handled i s := by
  induction fuel generalizing k handled i s with
  | zero => trivial
  | succ fuel ih =>
    intro p _
    split
    · trivial
    · exact ih _ _ _ _
    · exact ⟨callsMeet_of_forall hA _ _ _, fun s₂ _ i' s₃ _ => ih _ _ _ _⟩

/-- Passes keep the list without duplicates. -/
theorem nodup_kept : Kept A fun _ _ l => l.Nodup where
  sublist h hsub := h.sublist hsub
  append h _ hq := by
    rw [List.nodup_append]
    exact ⟨h, by simp, fun a ha b hb heq => hq (by simp at hb; rwa [← hb, ← heq])⟩
  skip h := h
  handle h _ := h
  erase h := h.sublist (List.eraseIdx_sublist _ _)

/-- Passes handle every object at most once, unless one that was handled is added again. -/
theorem once_kept (hA : ∀ s handled p, A s handled p → p ∉ handled) : Kept A Once where
  sublist h hsub := h.sublist hsub
  append h hq hmem := h.append hmem (hA _ _ _ hq)
  skip h := ⟨h.nodup, h.handled_nodup, fun p hp hmem =>
    h.passed p hp ((List.drop_sublist_drop_left _ (Nat.le_succ _)).subset hmem)⟩
  handle h hp := h.handle hp
  erase h := h.erase

/-- **A pass over a list without duplicates handles no object twice.** -/
theorem pass_handled_nodup (hR : R.Lawful fresh)
    (hA : ∀ s handled p, A s handled p → fresh s p ∧ p ∉ handled) {visits : Nat → Visit}
    {fuel : Nat} {handled : List TimesP} {s s' : σ} {r : PassEnd} (hl : (R.times s).Nodup)
    (hmeets : R.PassMeets A visits fuel 0 [] 0 s)
    (hrun : R.pass visits fuel 0 [] 0 s = .ok (r, handled, s')) : handled.Nodup := by
  obtain ⟨i, h⟩ := pass_kept hR (fun s handled p h => (hA s handled p h).1)
    (once_kept fun s handled p h => (hA s handled p h).2) ⟨hl, List.nodup_nil, by simp⟩ hmeets hrun
  exact h.handled_nodup

end TimesRegistry

open TimesRegistry Transition

/-! ### The two schedulers -/

namespace Scheduler

theorem deactiveTimesIndex_times {i : Int} {s s' : Scheduler} {r : Except SchedulerCode Unit}
    (h : s.deactiveTimesIndex i = (r, s')) :
    s'.pTimesList = match r with
      | .ok () => s.pTimesList.eraseIdx i.toNat
      | .error _ => s.pTimesList := by
  unfold deactiveTimesIndex at h
  dsimp only at h
  split_ifs at h
  all_goals obtain ⟨rfl, rfl⟩ := Prod.mk.inj h
  · rfl
  · rfl
  · rfl

theorem deactiveTimesIndex_sublist (i : Int) (s : Scheduler) :
    (s.deactiveTimesIndex i).2.pTimesList.Sublist s.pTimesList := by
  rcases hd : s.deactiveTimesIndex i with ⟨e | u, s'⟩
  · rw [deactiveTimesIndex_times hd]
  · rw [deactiveTimesIndex_times hd]
    exact List.eraseIdx_sublist _ _

theorem getTimesPointerIndex_error {s : Scheduler} {p : TimesP} {e : SchedulerCode}
    (hs : s.schedulerStatus ≠ .schedulerBuilded) (hp : p ≠ 0)
    (h : s.getTimesPointerIndex p = .error e) : p ∉ s.pTimesList := by
  unfold getTimesPointerIndex at h
  rw [if_neg hs, if_neg hp] at h
  split at h
  · next hnone => exact List.idxOf?_eq_none_iff.mp hnone
  · exact absurd h (by simp)

theorem append_times {p : TimesP} {s s' : Scheduler} (h : s.append p = .ok s') :
    s'.pTimesList = s.pTimesList ++ [p] := by
  unfold append at h
  split_ifs at h
  exact Except.ok.inj h ▸ rfl

/-- **`Scheduler::activeTimes` adds an object only when it is not in the list.** -/
theorem activeTimes_times {newOk : Bool} {p : TimesP} {s s' : Scheduler}
    {r : Except SchedulerCode Unit} (h : s.activeTimes newOk p = .ok (r, s')) :
    s'.pTimesList = s.pTimesList ∨ s'.pTimesList = s.pTimesList ++ [p] ∧ p ∉ s.pTimesList := by
  unfold activeTimes at h
  dsimp only at h
  split at h
  · obtain ⟨-, rfl⟩ := Prod.mk.inj (Except.ok.inj h)
    exact Or.inl rfl
  · next hstatus =>
    split at h
    · obtain ⟨-, rfl⟩ := Prod.mk.inj (Except.ok.inj h)
      exact Or.inl rfl
    · next hp =>
      split at h
      · obtain ⟨-, rfl⟩ := Prod.mk.inj (Except.ok.inj h)
        exact Or.inl rfl
      · next hnot =>
        have hmem : p ∉ s.pTimesList := getTimesPointerIndex_error (s := s.lock) hstatus hp hnot
        split at h
        · split at h
          · obtain ⟨-, rfl⟩ := Prod.mk.inj (Except.ok.inj h)
            exact Or.inl rfl
          · obtain ⟨s₁, h₁, h⟩ := bind_eq_ok.mp h
            obtain ⟨-, rfl⟩ := Prod.mk.inj (Except.ok.inj h)
            have happend := append_times h₁
            exact Or.inr ⟨happend, hmem⟩
        · obtain ⟨s₁, h₁, h⟩ := bind_eq_ok.mp h
          obtain ⟨-, rfl⟩ := Prod.mk.inj (Except.ok.inj h)
          have happend := append_times h₁
          exact Or.inr ⟨happend, hmem⟩

theorem deactiveTimes_times (p : TimesP) (s : Scheduler) :
    (s.deactiveTimes p).2.pTimesList.Sublist s.pTimesList := by
  unfold deactiveTimes
  dsimp only
  split_ifs
  · exact List.Sublist.refl _
  · exact List.Sublist.refl _
  · split
    · exact List.Sublist.refl _
    · next i _ =>
      have hsub := deactiveTimesIndex_sublist i s.lock
      rcases hd : s.lock.deactiveTimesIndex i with ⟨e | u, s₁⟩
      · rw [hd] at hsub
        exact hsub
      · rw [hd] at hsub
        exact hsub

theorem schedulerRegistry_lawful : schedulerRegistry.Lawful fun _ _ => True where
  activeTimes {newOk p s s'} h _ := by
    have h : (s.activeTimes newOk p).map (·.2) = .ok s' := h
    cases h₁ : s.activeTimes newOk p with
    | error fault => rw [h₁] at h; exact absurd h (by simp [Except.map])
    | ok x =>
      rw [h₁] at h
      obtain rfl : x.2 = s' := Except.ok.inj h
      exact activeTimes_times h₁
  deactiveTimes := deactiveTimes_times
  deactiveTimesIndex i s := by
    have hsub := deactiveTimesIndex_sublist i s
    unfold schedulerRegistry
    dsimp only
    split
    · next hd => rwa [hd] at hsub
    · next hd => rwa [hd] at hsub
  removed {i s s'} h := by
    unfold schedulerRegistry at h
    dsimp only at h
    split at h
    · next hd =>
      obtain ⟨-, rfl⟩ := Prod.mk.inj h
      exact deactiveTimesIndex_times hd
    · exact absurd (Prod.mk.inj h).1 (by simp)
  notRemoved {i s s'} h := by
    unfold schedulerRegistry at h
    dsimp only at h
    split at h
    · exact absurd (Prod.mk.inj h).1 (by simp)
    · next hd =>
      obtain ⟨-, rfl⟩ := Prod.mk.inj h
      exact deactiveTimesIndex_times hd

end Scheduler

namespace Scheduler2

/-- **`Scheduler2::activeTimes` adds every object.** -/
theorem activeTimes_times (p : TimesP) (s : Scheduler2) :
    (s.activeTimes p).timesList = s.timesList ++ [p] := by
  unfold activeTimes
  split <;> rfl

theorem deactiveTimesIndex_sublist (i : Int) (s : Scheduler2) :
    (s.deactiveTimesIndex i).2.timesList.Sublist s.timesList := by
  unfold deactiveTimesIndex
  split_ifs
  · exact List.Sublist.refl _
  · exact List.eraseIdx_sublist _ _

theorem deactiveTimes_times (p : TimesP) (s : Scheduler2) :
    (s.deactiveTimes p).2.timesList.Sublist s.timesList := by
  unfold deactiveTimes
  split
  · exact List.Sublist.refl _
  · exact deactiveTimesIndex_sublist _ s

theorem scheduler2Registry_lawful :
    scheduler2Registry.Lawful fun s p => p ∉ s.timesList where
  activeTimes {newOk p s s'} h hp := by
    obtain rfl := Except.ok.inj h
    exact Or.inr ⟨activeTimes_times p s, hp⟩
  deactiveTimes := deactiveTimes_times
  deactiveTimesIndex := deactiveTimesIndex_sublist
  removed {i s s'} h := by
    have h : s.deactiveTimesIndex i = (true, s') := h
    unfold deactiveTimesIndex at h
    split_ifs at h
    · exact absurd (Prod.mk.inj h).1 (by simp)
    · obtain ⟨-, rfl⟩ := Prod.mk.inj h
      rfl
  notRemoved {i s s'} h := by
    have h : s.deactiveTimesIndex i = (false, s') := h
    unfold deactiveTimesIndex at h
    split_ifs at h
    · obtain ⟨-, rfl⟩ := Prod.mk.inj h
      rfl
    · exact absurd (Prod.mk.inj h).1 (by simp)

end Scheduler2

/-! ### Runs -/

/-- The operations on a scheduler; the mutex makes each of them one step. -/
inductive Operation
  | activeTimes (newOk : Bool) (pTimes : TimesP)
  | deactiveTimes (pTimes : TimesP)
  | deactiveTimesIndex (lTimesPointerIndex : Int)
  | handleTimes (visits : Nat → Visit) (fuel : Nat)

namespace Scheduler

def step (s : Scheduler) : Operation → Option Scheduler
  | .activeTimes newOk pTimes => ((s.activeTimes newOk pTimes).toOption).map (·.2)
  | .deactiveTimes pTimes => some (s.deactiveTimes pTimes).2
  | .deactiveTimesIndex i => some (s.deactiveTimesIndex i).2
  | .handleTimes visits fuel => ((s.handleTimes visits fuel).toOption).map (·.2.2)

/-- In the list of `s` no object is twice, and a pass whose `handleTimeOut`s do not add an
object handled before calls no `handleTimeOut` twice. -/
def HandlesOnce (s : Scheduler) : Prop :=
  s.pTimesList.Nodup ∧ ∀ visits fuel r handled s', s.handleTimes visits fuel = .ok (r, handled, s') →
    schedulerRegistry.PassMeets (fun _ handled p => p ∉ handled) visits fuel 0 [] 0 s.lock →
    handled.Nodup

theorem handleTimes_eq_ok {visits : Nat → Visit} {fuel : Nat} {s s' : Scheduler}
    {r : Except SchedulerCode Unit} {handled : List TimesP}
    (h : s.handleTimes visits fuel = .ok (r, handled, s')) :
    ∃ r' s₁, schedulerRegistry.pass visits fuel 0 [] 0 s.lock = .ok (r', handled, s₁) ∧
      s₁.unLock = s' := by
  obtain ⟨⟨r', handled', s₁⟩, hpass, h⟩ := bind_eq_ok.mp h
  obtain ⟨-, h⟩ := Prod.mk.inj (Except.ok.inj h)
  obtain ⟨rfl, rfl⟩ := Prod.mk.inj h
  exact ⟨r', s₁, hpass, rfl⟩

theorem step_nodup {s s' : Scheduler} {op : Operation} (hs : s.pTimesList.Nodup)
    (h : s.step op = some s') : s'.pTimesList.Nodup := by
  cases op with
  | activeTimes newOk p =>
    obtain ⟨⟨r, s₁⟩, h₁, rfl⟩ := Option.map_eq_some_iff.mp h
    rcases activeTimes_times (toOption_eq_some.mp h₁) with heq | ⟨heq, hmem⟩
    · show s₁.pTimesList.Nodup
      rwa [heq]
    · show s₁.pTimesList.Nodup
      rw [heq, List.nodup_append]
      exact ⟨hs, by simp, fun a ha b hb hab => hmem (by simp at hb; rwa [← hb, ← hab])⟩
  | deactiveTimes p =>
    obtain rfl := Option.some.inj h
    exact hs.sublist (deactiveTimes_times p s)
  | deactiveTimesIndex i =>
    obtain rfl := Option.some.inj h
    exact hs.sublist (deactiveTimesIndex_sublist i s)
  | handleTimes visits fuel =>
    obtain ⟨⟨r, handled, s₁⟩, h₁, rfl⟩ := Option.map_eq_some_iff.mp h
    obtain ⟨r', s₂, hpass, rfl⟩ := handleTimes_eq_ok (toOption_eq_some.mp h₁)
    obtain ⟨i, hnodup⟩ := pass_kept schedulerRegistry_lawful (fun _ _ _ _ => trivial)
      (nodup_kept (A := fun _ _ _ => True)) (s := s.lock) hs
      (passMeets_of_forall (fun _ _ _ => trivial) _ _ _ _ _ _) hpass
    exact hnodup

end Scheduler

namespace Scheduler2

def step (s : Scheduler2) : Operation → Option Scheduler2
  | .activeTimes _ pTimes => some (s.activeTimes pTimes)
  | .deactiveTimes pTimes => some (s.deactiveTimes pTimes).2
  | .deactiveTimesIndex i => some (s.deactiveTimesIndex i).2
  | .handleTimes visits fuel => ((s.handleTimes visits fuel).toOption).map (·.2.2)

/-- Only objects that are not in the list are added, by the operation or by the
`handleTimeOut`s of its pass. -/
def Meets (s : Scheduler2) : Operation → Prop
  | .activeTimes _ pTimes => pTimes ∉ s.timesList
  | .deactiveTimes _ | .deactiveTimesIndex _ => True
  | .handleTimes visits fuel =>
    scheduler2Registry.PassMeets (fun s _ p => p ∉ s.timesList) visits fuel 0 [] 0 s

/-- The same for the list and the passes of `Scheduler2`. -/
def HandlesOnce (s : Scheduler2) : Prop :=
  s.timesList.Nodup ∧ ∀ visits fuel r handled s', s.handleTimes visits fuel = .ok (r, handled, s') →
    scheduler2Registry.PassMeets (fun s handled p => p ∉ s.timesList ∧ p ∉ handled) visits fuel
      0 [] 0 s → handled.Nodup

theorem handleTimes_eq_ok {visits : Nat → Visit} {fuel : Nat} {s s' : Scheduler2} {r : Bool}
    {handled : List TimesP} (h : s.handleTimes visits fuel = .ok (r, handled, s')) :
    ∃ r', scheduler2Registry.pass visits fuel 0 [] 0 s = .ok (r', handled, s') := by
  obtain ⟨⟨r', handled', s₁⟩, hpass, h⟩ := bind_eq_ok.mp h
  obtain ⟨-, h⟩ := Prod.mk.inj (Except.ok.inj h)
  obtain ⟨rfl, rfl⟩ := Prod.mk.inj h
  exact ⟨r', hpass⟩

theorem step_nodup {s s' : Scheduler2} {op : Operation} (hs : s.timesList.Nodup)
    (hmeets : s.Meets op) (h : s.step op = some s') : s'.timesList.Nodup := by
  cases op with
  | activeTimes newOk p =>
    obtain rfl := Option.some.inj h
    rw [activeTimes_times, List.nodup_append]
    exact ⟨hs, by simp, fun a ha b hb hab => hmeets (by simp at hb; rwa [← hb, ← hab])⟩
  | deactiveTimes p =>
    obtain rfl := Option.some.inj h
    exact hs.sublist (deactiveTimes_times p s)
  | deactiveTimesIndex i =>
    obtain rfl := Option.some.inj h
    exact hs.sublist (deactiveTimesIndex_sublist i s)
  | handleTimes visits fuel =>
    obtain ⟨⟨r, handled, s₁⟩, h₁, rfl⟩ := Option.map_eq_some_iff.mp h
    obtain ⟨r', hpass⟩ := handleTimes_eq_ok (toOption_eq_some.mp h₁)
    obtain ⟨i, hnodup⟩ := pass_kept scheduler2Registry_lawful (fun _ _ _ h => h)
      nodup_kept hs hmeets hpass
    exact hnodup

end Scheduler2

/-- **No object is registered twice, none is handled twice in a pass.**  For `Scheduler` in
every run, for `Scheduler2` in every run that adds only objects which are not in its list. -/
theorem handlesOnce_of_run (n : Nat) (ops : List Operation) :
    (∀ s, run Scheduler.step (Scheduler.init n) ops = some s → s.HandlesOnce) ∧
    (∀ s, Always Scheduler2.step (fun s op _ => s.Meets op) ⟨[]⟩ ops →
      run Scheduler2.step ⟨[]⟩ ops = some s → s.HandlesOnce) := by
  constructor
  · intro s hrun
    have hmeets : Always Scheduler.step (fun _ _ _ => True) (Scheduler.init n) ops :=
      always_of_forall (fun _ _ _ => trivial) _ _
    have hnodup : s.pTimesList.Nodup :=
      invariant (fun s op s' hs _ h => Scheduler.step_nodup hs h) List.nodup_nil hmeets hrun
    refine ⟨hnodup, fun visits fuel r handled s' h hmeets => ?_⟩
    obtain ⟨r', s₁, hpass, -⟩ := Scheduler.handleTimes_eq_ok h
    exact pass_handled_nodup Scheduler.schedulerRegistry_lawful (fun _ _ _ h => ⟨trivial, h⟩)
      (s := s.lock) hnodup hmeets hpass
  · intro s hmeets hrun
    have hnodup : s.timesList.Nodup :=
      invariant (fun s op s' hs hm h => Scheduler2.step_nodup hs hm h) List.nodup_nil hmeets hrun
    refine ⟨hnodup, fun visits fuel r handled s' h hmeets => ?_⟩
    obtain ⟨r', hpass⟩ := Scheduler2.handleTimes_eq_ok h
    exact pass_handled_nodup Scheduler2.scheduler2Registry_lawful (fun _ _ _ h => h) hnodup hmeets
      hpass

/-- Adding, removing and adding an object again is fine, and a pass handles it once. -/
theorem handlesOnce_add_again :
    (Scheduler2.mk [7]).HandlesOnce :=
  (handlesOnce_of_run 0 [.activeTimes true 7, .deactiveTimes 7, .activeTimes true 7]).2 ⟨[7]⟩
    (fun _ h₁ => ⟨by simp [Scheduler2.Meets], fun _ h₂ => ⟨trivial, fun _ h₃ => by
      obtain rfl := Option.some.inj h₁
      obtain rfl := Option.some.inj h₂
      exact ⟨by show 7 ∉ _; decide, trivial⟩⟩⟩)
    (by decide)

/-- The answers of an object that expires and goes on. -/
def expired : Visit where
  isStarted := some true
  isExpiredTime := some true
  updateNextExpirationDateTime := .updated
  calls := []
  handleTimeOut := true

/-- `Scheduler2` registers the same object twice, and its pass handles it twice. -/
theorem scheduler2_registers_twice :
    ∃ ops s, run Scheduler2.step ⟨[]⟩ ops = some s ∧ ¬s.HandlesOnce ∧
      s.handleTimes (fun _ => expired) 3 = .ok (true, [7, 7], s) :=
  ⟨[.activeTimes true 7, .activeTimes true 7], ⟨[7, 7]⟩, by decide,
    fun h => absurd h.1 (by decide), by decide⟩

end CatraLibraries
