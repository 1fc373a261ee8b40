/-
# What a pass handles

One pass of `Scheduler::handleTimes` removes objects from the list while its index runs over
it.  Seen from the objects nothing of this is left: each object of the list has its turn once,
in the order of the list, and is handled when it is started and expired.  The list that remains
is the one that the pass began with, without the objects that were handled for the last time or
whose `handleTimeOut` failed.

The objects before the index are the ones that stay, and those from the index on still have
their turn; `pass_finished` is the induction over them.
-/
import CatraLibraries.Scheduler.Registration

namespace CatraLibraries

open Memory

/-! ### The turns -/

namespace Visit

/-- The pass calls `handleTimeOut`. -/
def due (v : Visit) : Bool := v.isStarted = some true && v.isExpiredTime = some true

/-- The object remains in the list. -/
def stays (v : Visit) : Bool :=
  !(v.due && (v.updateNextExpirationDateTime = .lastTimeout || !v.handleTimeOut))

end Visit

/-- The objects of a list whose answers satisfy `q`, when the first of them gives the `k`-th
answers. -/
def answering (q : Visit → Bool) (visits : Nat → Visit) (k : Nat) (l : List TimesP) :
    List TimesP :=
  ((l.zipIdx k).filter fun p => q (visits p.2)).map (·.1)

section Answering

variable {q : Visit → Bool} {visits : Nat → Visit} {k : Nat} {p : TimesP} {l : List TimesP}

@[simp] theorem answering_nil : answering q visits k [] = [] := rfl

theorem answering_cons_pos (h : q (visits k) = true) :
    answering q visits k (p :: l) = p :: answering q visits (k + 1) l := by
  simp [answering, List.zipIdx_cons, h]

theorem answering_cons_neg (h : q (visits k) = false) :
    answering q visits k (p :: l) = answering q visits (k + 1) l := by
  simp [answering, List.zipIdx_cons, h]

end Answering

namespace TimesRegistry

variable {σ : Type} (R : TimesRegistry σ)

/-- The list as the `k`-th `handleTimeOut` finds it, in a pass over `l` behind the objects of
`front`: what stays of the objects before, and the object itself unless it has reached its last
timeout. -/
def listAt (visits : Nat → Visit) (k : Nat) (front l : List TimesP) (j : Nat) : List TimesP :=
  front ++ answering Visit.stays visits k (l.take j) ++
    if (visits (k + j)).updateNextExpirationDateTime = .lastTimeout then l.drop (j + 1)
    else l.drop j

/-- No `handleTimeOut` of the pass changes the list that it finds. -/
def KeepsList (visits : Nat → Visit) (k : Nat) (front l : List TimesP) : Prop :=
  ∀ j < l.length, ∀ s s', R.times s = listAt visits k front l j →
    R.runCalls (visits (k + j)).calls s = .ok s' → R.times s' = R.times s

variable {R : TimesRegistry σ} {fresh : σ → TimesP → Prop} {visits : Nat → Visit}
  {front l : List TimesP} {p : TimesP} {k : Nat}

/-- The first turn finds the list as it is, up to its own removal. -/
theorem KeepsList.head (h : R.KeepsList visits k front (p :: l)) {s s' : σ}
    (hs : R.times s = if (visits k).updateNextExpirationDateTime = .lastTimeout then front ++ l
      else front ++ p :: l)
    (hrun : R.runCalls (visits k).calls s = .ok s') : R.times s' = R.times s := by
  refine h 0 (Nat.succ_pos _) s s' ?_ hrun
  rw [hs]
  unfold listAt
  split <;> simp_all

/-- The turns behind the first one. -/
theorem KeepsList.tail (h : R.KeepsList visits k front (p :: l)) :
    R.KeepsList visits (k + 1) (if (visits k).stays then front ++ [p] else front) l := by
  intro j hj s s' hs hrun
  have hk : k + 1 + j = k + (j + 1) := by omega
  rw [hk] at hrun
  refine h (j + 1) (Nat.succ_lt_succ hj) s s' ?_ hrun
  rw [hs]
  unfold listAt
  rw [hk, List.take_succ_cons, List.drop_succ_cons, List.drop_succ_cons]
  cases hstays : (visits k).stays with
  | true => rw [answering_cons_pos hstays]; simp
  | false => rw [answering_cons_neg hstays]; simp

/-! ### One turn -/

theorem before_skip {v : Visit} {i : Nat} {s : σ} (h : R.before v i s = .skip) :
    v.due = false := by
  unfold before at h
  unfold Visit.due
  split at h
  · exact absurd h (by simp)
  · next hstarted => simp [hstarted]
  · split at h
    · exact absurd h (by simp)
    · next hexpired => simp [hexpired]
    · split at h
      · exact absurd h (by simp)
      · exact absurd h (by simp)
      · split at h <;> exact absurd h (by simp)

theorem before_call_due {v : Visit} {i : Nat} {s s₁ : σ} {d : Bool}
    (h : R.before v i s = .call s₁ d) :
    v.due = true ∧ d = decide (v.updateNextExpirationDateTime = .lastTimeout) := by
  unfold before at h
  unfold Visit.due
  split at h
  · exact absurd h (by simp)
  · exact absurd h (by simp)
  · next hstarted =>
    split at h
    · exact absurd h (by simp)
    · exact absurd h (by simp)
    · next hexpired =>
      split at h
      · next hupdate =>
        obtain ⟨-, rfl⟩ := Before.call.inj h
        simp [hstarted, hexpired, hupdate]
      · exact absurd h (by simp)
      · next hupdate =>
        split at h
        · obtain ⟨-, rfl⟩ := Before.call.inj h
          simp [hstarted, hexpired, hupdate]
        · exact absurd h (by simp)

/-- After the call the object has left the list, or the index has passed it. -/
theorem after_ok (hR : R.Lawful fresh) {v : Visit} {i i' : Nat} {d : Bool} {s s' : σ}
    (h : R.after v i d s = (.ok i', s')) :
    if d then i' = i ∧ R.times s' = R.times s
    else if v.handleTimeOut then i' = i + 1 ∧ R.times s' = R.times s
    else i' = i ∧ R.times s' = (R.times s).eraseIdx i := by
  unfold after at h
  split at h
  · next hd =>
    obtain ⟨hi, rfl⟩ := Prod.mk.inj h
    rw [if_pos hd]
    exact ⟨(Except.ok.inj hi).symm, rfl⟩
  · next hd =>
    rw [if_neg hd]
    split at h
    · next hok =>
      obtain ⟨hi, rfl⟩ := Prod.mk.inj h
      rw [if_pos hok]
      exact ⟨(Except.ok.inj hi).symm, rfl⟩
    · next hok =>
      rw [if_neg hok]
      split at h
      · next hremoved =>
        obtain ⟨hi, rfl⟩ := Prod.mk.inj h
        exact ⟨(Except.ok.inj hi).symm, hR.removed hremoved⟩
      · exact absurd (Prod.mk.inj h).1 (by simp)

/-- A pass is not finished by a question. -/
theorem before_stop_ne {v : Visit} {i : Nat} {s s₁ : σ} {r : PassEnd}
    (h : R.before v i s = .stop r s₁) : r ≠ .finished := by
  rintro rfl
  unfold before at h
  split at h
  · exact absurd (Before.stop.inj h).1 (by simp)
  · exact absurd h (by simp)
  · split at h
    · exact absurd (Before.stop.inj h).1 (by simp)
    · exact absurd h (by simp)
    · split at h
      · exact absurd h (by simp)
      · exact absurd (Before.stop.inj h).1 (by simp)
      · split at h
        · exact absurd h (by simp)
        · exact absurd (Before.stop.inj h).1 (by simp)

theorem after_error_ne {v : Visit} {i : Nat} {d : Bool} {s s' : σ} {r : PassEnd}
    (h : R.after v i d s = (.error r, s')) : r ≠ .finished := by
  rintro rfl
  unfold after at h
  split_ifs at h
  · exact absurd (Prod.mk.inj h).1 (by simp)
  · exact absurd (Prod.mk.inj h).1 (by simp)
  · split at h
    · exact absurd (Prod.mk.inj h).1 (by simp)
    · exact absurd (Prod.mk.inj h).1 (by simp)

theorem eraseIdx_front (front l : List TimesP) (p : TimesP) :
    (front ++ p :: l).eraseIdx front.length = front ++ l := by
  rw [List.eraseIdx_append_of_length_le (Nat.le_refl _), Nat.sub_self, List.eraseIdx_cons_zero]

/-- **One turn** of an object that is due: afterwards the index is behind the objects that
stay. -/
theorem turn_due (hR : R.Lawful fresh) (hq : R.KeepsList visits k front (p :: l))
    {s s₁ s₂ s₃ : σ} {d : Bool} {i : Nat} (hs : R.times s = front ++ p :: l)
    (hb : R.before (visits k) front.length s = .call s₁ d)
    (hc : R.runCalls (visits k).calls s₁ = .ok s₂)
    (ha : R.after (visits k) front.length d s₂ = (.ok i, s₃)) :
    if (visits k).stays then i = (front ++ [p]).length ∧ R.times s₃ = front ++ [p] ++ l
    else i = front.length ∧ R.times s₃ = front ++ l := by
  obtain ⟨hdue, hd⟩ := before_call_due hb
  have hs₁ := before_call hR hb
  have hs₃ := after_ok hR ha
  rw [hs, eraseIdx_front] at hs₁
  have hs₂ : R.times s₂ = R.times s₁ := by
    refine hq.head ?_ hc
    rw [hs₁, hd]
    simp
  rw [hs₁] at hs₂
  unfold Visit.stays
  rw [hdue]
  by_cases hlast : (visits k).updateNextExpirationDateTime = .lastTimeout
  · obtain rfl : d = true := by rw [hd]; exact decide_eq_true hlast
    obtain ⟨rfl, hs₃⟩ := hs₃
    rw [hs₃, hs₂]
    simp [hlast]
  · obtain rfl : d = false := by rw [hd]; exact decide_eq_false hlast
    cases hok : (visits k).handleTimeOut with
    | true =>
      rw [if_neg (by simp), if_pos hok] at hs₃
      rw [hs₃.2, hs₂, hs₃.1]
      simp [hlast]
    | false =>
      rw [if_neg (by simp), if_neg (by simp [hok])] at hs₃
      rw [hs₃.2, hs₂, hs₃.1]
      simp [hlast, eraseIdx_front]

/-! ### The pass -/

/-- **What a pass that ends handles and leaves**, from the object at its index on. -/
theorem pass_finished (hR : R.Lawful fresh) {fuel : Nat} {handled handled' : List TimesP}
    {s s' : σ} (hq : R.KeepsList visits k front l) (hs : R.times s = front ++ l)
    (h : R.pass visits fuel k handled front.length s = .ok (.finished, handled', s')) :
    handled' = handled ++ answering Visit.due visits k l ∧
      R.times s' = front ++ answering Visit.stays visits k l := by
  induction fuel generalizing k handled front l s with
  | zero => exact absurd h (by simp [pass])
  | succ fuel ih =>
    unfold pass at h
    cases l with
    | nil =>
      rw [hs, List.getElem?_eq_none (by simp)] at h
      obtain ⟨rfl, rfl⟩ := by simpa using h
      simp [hs]
    | cons p l =>
      have hp : (R.times s)[front.length]? = some p := by simp [hs]
      rw [hp] at h
      dsimp only at h
      cases hb : R.before (visits k) front.length s with
      | stop r s₁ =>
        rw [hb] at h
        obtain ⟨rfl, -, rfl⟩ := by simpa using h
        exact absurd rfl (before_stop_ne hb)
      | skip =>
        rw [hb] at h
        have hdue := before_skip hb
        have hstays : (visits k).stays = true := by simp [Visit.stays, hdue]
        have hq' := hq.tail
        rw [if_pos hstays] at hq'
        have hs' : R.times s = front ++ [p] ++ l := by rw [hs, List.append_cons]
        obtain ⟨hhandled, htimes⟩ := ih hq' hs' (by simpa using h)
        rw [answering_cons_neg hdue, answering_cons_pos hstays]
        exact ⟨hhandled, by simpa using htimes⟩
      | call s₁ d =>
        rw [hb] at h
        dsimp only at h
        have hdue := (before_call_due hb).1
        cases hc : R.runCalls (visits k).calls s₁ with
        | error fault => rw [hc] at h; exact absurd h (by simp)
        | ok s₂ =>
          rw [hc] at h
          dsimp only at h
          rcases ha : R.after (visits k) front.length d s₂ with ⟨r | i, s₃⟩
          · rw [ha] at h
            obtain ⟨rfl, -, -⟩ := by simpa using h
            exact absurd rfl (after_error_ne ha)
          · rw [ha] at h
            have hturn := turn_due hR hq hs hb hc ha
            have hq' := hq.tail
            rw [answering_cons_pos hdue]
            cases hstays : (visits k).stays with
            | true =>
              rw [hstays, if_pos rfl] at hturn hq'
              rw [hturn.1] at h
              obtain ⟨hhandled, htimes⟩ := ih hq' hturn.2 h
              rw [answering_cons_pos hstays]
              exact ⟨by simpa using hhandled, by simpa using htimes⟩
            | false =>
              rw [hstays, if_neg (by simp)] at hturn hq'
              rw [hturn.1] at h
              obtain ⟨hhandled, htimes⟩ := ih hq' hturn.2 h
              rw [answering_cons_neg hstays]
              exact ⟨by simpa using hhandled, htimes⟩

/-- An object that answers without an error, and makes no calls. -/
structure Answers (v : Visit) : Prop where
  isStarted : v.isStarted ≠ none
  isExpiredTime : v.isExpiredTime ≠ none
  update : v.updateNextExpirationDateTime ≠ .failed
  calls : v.calls = []

theorem keepsList_of_answers (hvisits : ∀ j, Answers (visits (k + j))) :
    R.KeepsList visits k front l := fun j _ s s' _ hrun => by
  rw [(hvisits j).calls] at hrun
  rw [← Except.ok.inj hrun]

/-- In the states with `I`, what is in the list can be removed. -/
def Removable (R : TimesRegistry σ) (I : σ → Prop) : Prop :=
  ∀ (i : Nat) s, I s → i < (R.times s).length → ∃ s', R.deactiveTimesIndex i s = (true, s') ∧ I s'

theorem before_answers {I : σ → Prop} (hI : R.Removable I) {v : Visit} (hv : Answers v) {i : Nat}
    {s : σ} (hs : I s) (hi : i < (R.times s).length) :
    R.before v i s = .skip ∨ ∃ s₁ d, R.before v i s = .call s₁ d ∧ I s₁ := by
  unfold before
  cases hstarted : v.isStarted with
  | none => exact absurd hstarted hv.isStarted
  | some started =>
    cases started with
    | false => exact Or.inl rfl
    | true =>
      cases hexpired : v.isExpiredTime with
      | none => exact absurd hexpired hv.isExpiredTime
      | some expired =>
        cases expired with
        | false => exact Or.inl rfl
        | true =>
          refine Or.inr ?_
          cases hupdate : v.updateNextExpirationDateTime with
          | updated => exact ⟨s, false, rfl, hs⟩
          | failed => exact absurd hupdate hv.update
          | lastTimeout =>
            obtain ⟨s₁, h₁, hI₁⟩ := hI i s hs hi
            exact ⟨s₁, true, by rw [h₁], hI₁⟩

theorem after_removable {I : σ → Prop} (hI : R.Removable I) {v : Visit} {i : Nat} {d : Bool}
    {s : σ} (hs : I s) (hi : d = false → i < (R.times s).length) :
    ∃ i' s', R.after v i d s = (.ok i', s') ∧ I s' := by
  unfold after
  cases d with
  | true => exact ⟨i, s, rfl, hs⟩
  | false =>
    cases v.handleTimeOut with
    | true => exact ⟨i + 1, s, rfl, hs⟩
    | false =>
      obtain ⟨s', h', hI'⟩ := hI i s hs (hi rfl)
      exact ⟨i, s', by simp [h'], hI'⟩

/-- Where every object answers and can be removed, a pass comes to its end. -/
theorem pass_ends (hR : R.Lawful fresh) {I : σ → Prop} (hI : R.Removable I) {fuel : Nat}
    {handled : List TimesP} {s : σ} (hvisits : ∀ j, Answers (visits (k + j))) (hIs : I s)
    (hs : R.times s = front ++ l) (hfuel : l.length < fuel) :
    ∃ handled' s', R.pass visits fuel k handled front.length s
      = .ok (.finished, handled', s') := by
  induction fuel generalizing k handled front l s with
  | zero => exact absurd hfuel (Nat.not_lt_zero _)
  | succ fuel ih =>
    unfold pass
    cases l with
    | nil =>
      rw [hs, List.getElem?_eq_none (by simp)]
      exact ⟨handled, s, rfl⟩
    | cons p l =>
      have hp : (R.times s)[front.length]? = some p := by simp [hs]
      have hlen : front.length < (R.times s).length := by simp [hs]
      have hfuel' : l.length < fuel := Nat.lt_of_succ_lt_succ hfuel
      have hnext : ∀ j, Answers (visits (k + 1 + j)) := fun j => by
        rw [Nat.add_right_comm]
        exact hvisits (j + 1)
      have hcalls : (visits k).calls = [] := (hvisits 0).calls
      have hquiet : R.KeepsList visits k front (p :: l) := keepsList_of_answers hvisits
      rw [hp]
      dsimp only
      rcases before_answers hI (hvisits 0) hIs hlen with hb | ⟨s₁, d, hb, hI₁⟩
      · rw [Nat.add_zero] at hb
        have hs' : R.times s = front ++ [p] ++ l := by rw [hs, List.append_cons]
        obtain ⟨handled', s', hrest⟩ := ih hnext hIs hs' hfuel'
        rw [List.length_append] at hrest
        rw [hb]
        exact ⟨handled', s', hrest⟩
      · rw [Nat.add_zero] at hb
        have hc : R.runCalls (visits k).calls s₁ = .ok s₁ := by rw [hcalls]; rfl
        have hd : d = false → front.length < (R.times s₁).length := fun hd => by
          rw [before_call hR hb, if_neg (by simp [hd])]
          exact hlen
        obtain ⟨i, s₂, ha, hI₂⟩ := after_removable (v := visits k) hI hI₁ hd
        have hturn := turn_due hR hquiet hs hb hc ha
        rw [hb]
        dsimp only
        rw [hc]
        dsimp only
        rw [ha]
        dsimp only
        split at hturn
        · obtain ⟨rfl, hs₂⟩ := hturn
          exact ih hnext hI₂ hs₂ hfuel'
        · obtain ⟨rfl, hs₂⟩ := hturn
          exact ih hnext hI₂ hs₂ hfuel'

end TimesRegistry

namespace Scheduler

open TimesRegistry

/-- The callbacks of a pass over the scheduler's list do not change it. -/
def CallbacksKeepList (visits : Nat → Visit) (s : Scheduler) : Prop :=
  schedulerRegistry.KeepsList visits 0 [] s.pTimesList

/-- **A pass that completes** has called `handleTimeOut` of the objects that are started and
expired, of each once and in the order of the list, and has removed those of them that reached
their last timeout or whose callback returned an error. -/
theorem handleTimes_exact (visits : Nat → Visit) (fuel : Nat) (s s' : Scheduler)
    (handled : List TimesP) (hcallbacks : s.CallbacksKeepList visits)
    (h : s.handleTimes visits fuel = .ok (.ok (), handled, s')) :
    handled = answering Visit.due visits 0 s.pTimesList ∧
      s'.pTimesList = answering Visit.stays visits 0 s.pTimesList := by
  unfold handleTimes at h
  obtain ⟨⟨r, handled', s₁⟩, hpass, h⟩ := bind_eq_ok.mp h
  obtain ⟨hr, hrest⟩ := Prod.mk.inj (Except.ok.inj h)
  obtain ⟨rfl, rfl⟩ := Prod.mk.inj hrest
  obtain rfl : r = .finished := by
    cases r with
    | finished => rfl
    | isStartedFailed => exact absurd hr (by simp)
    | isExpiredTimeFailed => exact absurd hr (by simp)
    | updateFailed => exact absurd hr (by simp)
    | deactiveTimesFailed => exact absurd hr (by simp)
  have hquiet : schedulerRegistry.KeepsList visits 0 [] s.lock.pTimesList := hcallbacks
  have hbegin : schedulerRegistry.pass visits fuel 0 [] ([] : List TimesP).length s.lock
      = .ok (.finished, handled', s₁) := hpass
  exact pass_finished schedulerRegistry_lawful hquiet rfl hbegin

theorem removable : schedulerRegistry.Removable fun s => s.schedulerStatus ≠ .schedulerBuilded := by
  intro i s hs hi
  have hin : ¬((i : Int) < 0 ∨ (s.pTimesList.length : Int) ≤ i) := by
    have hlt : i < s.pTimesList.length := hi
    omega
  have hstatus : s.lock.schedulerStatus ≠ .schedulerBuilded := hs
  have heq : s.deactiveTimesIndex i = (.ok (),
      { s.lock with pTimesList := s.lock.pTimesList.eraseIdx i }.unLock) := by
    unfold deactiveTimesIndex
    rw [if_neg hin]
    exact if_neg hstatus
  refine ⟨{ s.lock with pTimesList := s.lock.pTimesList.eraseIdx i }.unLock, ?_, hs⟩
  unfold schedulerRegistry
  dsimp only
  rw [heq]

/-- **A pass over objects that answer completes**, and leaves none of them out. -/
theorem handleTimes_ends {visits : Nat → Visit} {s : Scheduler}
    (hs : s.schedulerStatus ≠ .schedulerBuilded) (hvisits : ∀ k, Answers (visits k)) {fuel : Nat}
    (hfuel : s.pTimesList.length < fuel) :
    ∃ s', s.handleTimes visits fuel = .ok (.ok (), answering Visit.due visits 0 s.pTimesList, s') ∧
      s'.pTimesList = answering Visit.stays visits 0 s.pTimesList := by
  have hbegin : ∀ j, Answers (visits (0 + j)) := fun j => by rw [Nat.zero_add]; exact hvisits j
  have htimes : schedulerRegistry.times s.lock = [] ++ s.pTimesList := rfl
  obtain ⟨handled, s', hpass⟩ := pass_ends schedulerRegistry_lawful removable hbegin
    (show s.lock.schedulerStatus ≠ _ from hs) htimes hfuel
  obtain ⟨rfl, hstays⟩ :=
    pass_finished schedulerRegistry_lawful (keepsList_of_answers hbegin) htimes hpass
  refine ⟨s'.unLock, ?_, hstays⟩
  unfold handleTimes
  exact bind_eq_ok.mpr ⟨_, hpass, rfl⟩

theorem handleTimes_ends_three :
    ∃ s', handleTimes (fun k => ⟨some true, some (k != 0), .lastTimeout, [], k == 1⟩) 4
        ⟨.schedulerStarted, 4, 4, 4, [10, 20, 30], 0⟩ = .ok (.ok (), [20, 30], s') ∧
      s'.pTimesList = [10] :=
  handleTimes_ends (by decide) (fun k => ⟨by simp, by simp, by simp, rfl⟩) (by decide)

/-- Three objects, of which the first has its last timeout, the callback of the second fails,
and the third goes on. -/
theorem handleTimes_exact_neighbours :
    let visits : Nat → Visit := fun k =>
      ⟨some true, some true, if k = 0 then .lastTimeout else .updated, [], k = 2⟩
    let s : Scheduler := ⟨.schedulerStarted, 4, 4, 4, [10, 20, 30], 0⟩
    ∃ handled s', s.handleTimes visits 4 = .ok (.ok (), handled, s') ∧
      (handled = answering Visit.due visits 0 s.pTimesList ∧
        s'.pTimesList = answering Visit.stays visits 0 s.pTimesList) ∧
      handled = [10, 20, 30] ∧ s'.pTimesList = [30] := by
  refine ⟨[10, 20, 30], ⟨.schedulerStarted, 4, 4, 4, [30], 0⟩, rfl,
    handleTimes_exact _ 4 _ _ _ (fun j _ s s' _ hrun => ?_) rfl, rfl, rfl⟩
  rw [← Except.ok.inj hrun]

end Scheduler

end CatraLibraries
