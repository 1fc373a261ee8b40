/-
# Modules in turn

As long as the buffers are large enough, the iterator of a group is at the module behind the last
one that was given out, whatever the checks say in between: a call that succeeds moves it there, and
one that finds no module takes it all the way round.  So a call is a turn of the ring that begins
behind the last module, and the modules that stay available get their turns one after the other.
-/
import CatraLibraries.LoadBalancer.LoadBalancer

namespace CatraLibraries

open RoundRobin Transition

namespace LoadBalancer

variable {lb lb' : LoadBalancer} {group : GroupModules} {b : HostBuffers} {i it : ℕ} {a : Action}

/-! ### One call -/

/-- The buffers are large enough for every module of the group. -/
def FitsAll (lb : LoadBalancer) (group : GroupModules) (b : HostBuffers) : Prop :=
  ∀ position < group.vModules.length, Fits b (lb.moduleAt group position)

theorem mem_ringAt {n c x : ℕ} : x ∈ ringAt n c ↔ x < n := by
  rw [ringAt, List.mem_rotate, List.mem_range]

/-- The loop stops at the first module of the ring that is available. -/
theorem selectModule_found (hfits : lb.FitsAll group b) {skipped : List ℕ} {x : ℕ}
    (hskipped : ∀ y ∈ skipped, ¬lb.Available group y) (hx : lb.Available group x) :
    ∀ {it rounds : ℕ} {rest : List ℕ}, it < group.vModules.length → skipped.length < rounds →
      ringAt group.vModules.length it = skipped ++ x :: rest →
        lb.selectModule group b rounds it =
          (.ok (address b x (lb.moduleAt group x)), advance group.vModules.length x) ∧
        ringAt group.vModules.length (advance group.vModules.length x) =
          rest ++ (skipped ++ [x]) := by
  induction skipped with
  | nil =>
    intro it rounds rest hit hrounds hring
    obtain ⟨rounds, rfl⟩ := Nat.exists_eq_add_of_lt hrounds
    have hhead : it = x := by
      have h := head?_ringAt hit
      rw [hring] at h
      exact (Option.some.inj h).symm
    subst hhead
    refine ⟨?_, ?_⟩
    · rw [List.length_nil, Nat.zero_add, selectModule, if_pos hx, if_pos (hfits it hit)]
    · rw [ringAt_advance, hring]
      exact rotate_one_cons it rest
  | cons y skipped ih =>
    intro it rounds rest hit hrounds hring
    obtain ⟨hy, hothers⟩ := List.forall_mem_cons.mp hskipped
    have hhead : it = y := by
      have h := head?_ringAt hit
      rw [hring] at h
      exact (Option.some.inj h).symm
    subst hhead
    -- the ring behind the module that is skipped
    have hring' : ringAt group.vModules.length (advance group.vModules.length it) =
        skipped ++ x :: (rest ++ [it]) := by
      rw [ringAt_advance, hring, List.cons_append, rotate_one_cons, List.append_assoc,
        List.cons_append]
    cases rounds with
    | zero => exact absurd hrounds (Nat.not_lt_zero _)
    | succ rounds =>
      obtain ⟨hselect, hafter⟩ := ih hothers (advance_lt hit) (Nat.lt_of_succ_lt_succ hrounds)
        hring'
      refine ⟨?_, ?_⟩
      · rw [selectModule, if_neg hy]
        exact hselect
      · rw [hafter, List.append_assoc]
        rfl

/-- Where no module is available the loop takes the iterator once round. -/
theorem selectModule_none (hnone : ∀ y < group.vModules.length, ¬lb.Available group y)
    (b : HostBuffers) (rounds : ℕ) (hit : it < group.vModules.length) :
    lb.selectModule group b rounds it =
      (.error .moduleNotAvailable, (advance group.vModules.length)^[rounds] it) := by
  induction rounds generalizing it with
  | zero => rfl
  | succ rounds ih =>
    rw [selectModule, if_neg (hnone it hit), ih (advance_lt hit)]
    rfl

/-- **A call is a turn** of the ring of the group. -/
theorem selectModule_turn (hfits : lb.FitsAll group b) (hit : it < group.vModules.length) :
    (turn (lb.Available group) (ringAt group.vModules.length it) = none ∧
      lb.selectModule group b group.vModules.length it = (.error .moduleNotAvailable, it)) ∨
    ∃ x < group.vModules.length,
      turn (lb.Available group) (ringAt group.vModules.length it) =
        some (x, ringAt group.vModules.length (advance group.vModules.length x)) ∧
      lb.selectModule group b group.vModules.length it =
        (.ok (address b x (lb.moduleAt group x)), advance group.vModules.length x) := by
  rcases turn_split (p := lb.Available group) (ringAt group.vModules.length it) with hnone |
      ⟨skipped, x, rest, hring, hskipped, hx⟩
  · refine Or.inl ⟨turn_eq_none hnone, ?_⟩
    rw [selectModule_none (fun y hy => hnone y (mem_ringAt.mpr hy)) b _ hit]
    refine congrArg _ (ringAt_injective (iterate_advance_lt hit _) hit ?_)
    rw [ringAt_iterate_advance]
    have hround := List.rotate_length (ringAt group.vModules.length it)
    rw [List.length_rotate, List.length_range] at hround
    exact hround
  · have hlength : skipped.length < group.vModules.length := by
      have h := congrArg List.length hring
      rw [List.length_rotate, List.length_range, List.length_append, List.length_cons] at h
      omega
    obtain ⟨hselect, hafter⟩ := selectModule_found hfits hskipped hx hit hlength hring
    refine Or.inr ⟨x, ?_, ?_, hselect⟩
    · have hmem : x ∈ ringAt group.vModules.length it := by
        rw [hring]
        exact List.mem_append_right _ List.mem_cons_self
      exact mem_ringAt.mp hmem
    · rw [hring, turn_append hskipped hx, hafter]

/-! ### The last module -/

/-- The answers that were given for a group, newest first. -/
def answers (calls : List (ℕ × Except LoadBalancerError ModuleAddress)) (i : ℕ) :
    List (Except LoadBalancerError ℕ) :=
  (calls.filter (·.1 = i)).map fun call => call.2.map (·.position)

/-- The position of the last module that was given out, at first the last one of the group. -/
def lastPosition (lb : LoadBalancer) (i : ℕ) (group : GroupModules) : ℕ :=
  ((answers lb.calls i).filterMap Except.toOption).headD (group.vModules.length - 1)

/-- The buffers of the call are large enough. -/
def LargeEnough (lb : LoadBalancer) (a : Action) : Prop :=
  ∀ pModulesName b i group, a = .getAvailableModule pModulesName b →
    lb.groupIndex pModulesName = some i → lb.vModulesGroups[i]? = some group → lb.FitsAll group b

/-- The iterator of each group is behind the last module that was given out. -/
def Behind (lb : LoadBalancer) : Prop :=
  ∀ i group, lb.vModulesGroups[i]? = some group →
    lb.itLastModuleSelected i < group.vModules.length ∧
      ringAt group.vModules.length (lb.itLastModuleSelected i) =
        (List.range group.vModules.length).rotate (lb.lastPosition i group + 1)

theorem Initial.behind (h : lb.Initial) : lb.Behind := by
  intro i group hgroup
  obtain ⟨hcalls, hit⟩ := h
  have hpos : 0 < group.vModules.length := List.length_pos_of_ne_nil group.nonempty
  have hlast : lb.lastPosition i group = group.vModules.length - 1 := by
    unfold lastPosition
    rw [hcalls]
    rfl
  rw [hit i, hlast, Nat.sub_add_cancel hpos]
  refine ⟨hpos, ?_⟩
  have hround := List.rotate_length (List.range group.vModules.length)
  rw [List.length_range] at hround
  rw [hround]
  exact List.rotate_zero _

/-! ### The run -/

theorem answers_cons_self (result : Except LoadBalancerError ModuleAddress)
    (calls : List (ℕ × Except LoadBalancerError ModuleAddress)) (i : ℕ) :
    answers ((i, result) :: calls) i = result.map (·.position) :: answers calls i := by
  unfold answers
  rw [List.filter_cons_of_pos (by simp)]
  rfl

theorem answers_cons_of_ne {i j : ℕ} (h : j ≠ i) (result : Except LoadBalancerError ModuleAddress)
    (calls : List (ℕ × Except LoadBalancerError ModuleAddress)) :
    answers ((j, result) :: calls) i = answers calls i := by
  unfold answers
  rw [List.filter_cons_of_neg (by simpa using h)]

theorem group_of_groupIndex {pModulesName : List UInt8} (h : lb.groupIndex pModulesName = some i) :
    ∃ group, lb.vModulesGroups[i]? = some group := by
  obtain ⟨hlt, -⟩ := List.findIdx?_eq_some_iff_getElem.mp h
  exact ⟨_, List.getElem?_eq_getElem hlt⟩

/-- A call that is in order is a round of the loop over its group. -/
theorem getAvailableModule_eq {pModulesName : List UInt8} (haccepts : lb.Accepts b)
    (hindex : lb.groupIndex pModulesName = some i) (hgroup : lb.vModulesGroups[i]? = some group) :
    lb.getAvailableModule pModulesName b =
      ((lb.selectModule group b group.vModules.length (lb.itLastModuleSelected i)).1,
        { lb with
          itLastModuleSelected := Function.update lb.itLastModuleSelected i
            (lb.selectModule group b group.vModules.length (lb.itLastModuleSelected i)).2 }) := by
  unfold getAvailableModule
  rw [if_neg (not_not.mpr haccepts), hindex]
  dsimp only
  rw [hgroup]

/-- **What a call does** with the load balancer. -/
theorem step_call {pModulesName : List UInt8}
    (hstep : LoadBalancer.step lb (.getAvailableModule pModulesName b) = some lb') :
    lb' = lb ∨
    ∃ i group, lb.groupIndex pModulesName = some i ∧ lb.vModulesGroups[i]? = some group ∧
      lb' = { lb with
        itLastModuleSelected := Function.update lb.itLastModuleSelected i
          (lb.selectModule group b group.vModules.length (lb.itLastModuleSelected i)).2
        calls := (i, (lb.selectModule group b group.vModules.length
          (lb.itLastModuleSelected i)).1) :: lb.calls } := by
  have hcall : lb' = { (lb.getAvailableModule pModulesName b).2 with
      calls := lb.record pModulesName b (lb.getAvailableModule pModulesName b).1 } :=
    (Option.some.inj hstep).symm
  cases hindex : lb.groupIndex pModulesName with
  | none =>
    have hsame : (lb.getAvailableModule pModulesName b).2 = lb := by
      unfold getAvailableModule
      rw [hindex]
      split
      · rfl
      · rfl
    rw [hsame, record, hindex] at hcall
    exact Or.inl hcall
  | some i =>
    obtain ⟨group, hgroup⟩ := group_of_groupIndex hindex
    by_cases haccepts : lb.Accepts b
    · rw [getAvailableModule_eq haccepts hindex hgroup, record, hindex] at hcall
      dsimp only at hcall
      rw [if_pos haccepts] at hcall
      exact Or.inr ⟨i, group, rfl, hgroup, hcall⟩
    · rw [getAvailableModule, if_pos haccepts, record, hindex] at hcall
      dsimp only at hcall
      rw [if_neg haccepts] at hcall
      exact Or.inl hcall

/-- **One step** leaves the iterators behind the last modules. -/
theorem Behind.step (h : lb.Behind) (hlarge : lb.LargeEnough a)
    (hstep : LoadBalancer.step lb a = some lb') : lb'.Behind := by
  cases a with
  | check pdmDeliveryModule tNow ping =>
    cases hstep
    exact h
  | getAvailableModule pModulesName b =>
    rcases step_call hstep with rfl | ⟨i, group, hindex, hgroup, rfl⟩
    · exact h
    · intro j group' hgroup'
      obtain ⟨hit, hring⟩ := h j group' hgroup'
      by_cases hij : j = i
      · subst hij
        obtain rfl : group = group' := Option.some.inj (hgroup.symm.trans hgroup')
        unfold lastPosition
        dsimp only
        rw [Function.update_self, answers_cons_self]
        rcases selectModule_turn (hlarge pModulesName b j group rfl hindex hgroup) hit with
          ⟨-, hselect⟩ | ⟨x, hx, -, hselect⟩
        · rw [hselect]
          exact ⟨hit, hring⟩
        · rw [hselect]
          refine ⟨advance_lt hx, ?_⟩
          show ringAt group.vModules.length (advance group.vModules.length x) =
            (List.range group.vModules.length).rotate (x + 1)
          rw [ringAt_advance, List.rotate_rotate]
      · unfold lastPosition
        dsimp only
        rw [Function.update_of_ne hij, answers_cons_of_ne (Ne.symm hij)]
        exact ⟨hit, hring⟩

end LoadBalancer

end CatraLibraries
