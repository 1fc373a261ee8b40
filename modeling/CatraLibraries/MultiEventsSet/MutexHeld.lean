/-
# The mutex of a consumer that waits for the first event to expire

The loop of `getAndRemoveFirstEvent` waits with the predicate that there are events, and comes to
the wait only with an event that has not expired.  So the predicate is true, the wait returns at
once, and the consumer goes round the loop with the mutex until the event has expired or its time
is over (`HeldBy.run`): nobody adds or deletes an event meanwhile.

Others can go on between any two looks at an event that has not expired exactly when there are no
two such looks of one turn: when the clock has come to the expiration of the event by the next look
(`letsOthersIn_run_iff`).
-/
import CatraLibraries.MultiEventsSet.Wakeups

namespace CatraLibraries

open Transition

namespace MultiEventsSet

variable {T : Type} [DecidableEq T] {s s' u : MultiEventsSet T} {t : T} {c : Call} {a : Action T}
  {destination : List UInt8}

/-! ### Looks -/

/-- `getAndRemoveFirstEvent` looks at a first event that has not expired. -/
def FindsUnexpired (s : MultiEventsSet T) (c : Call) : Prop :=
  c.removes = true ∧ ∃ head ∈ (s.eventsMultiMap c.destination).begin?,
    s.now < head.2.expirationTimePoint

/-- Every event can be added, and every event can be deleted. -/
def Open (s : MultiEventsSet T) : Prop :=
  ∀ event, (∃ wakes, (step s (.addEvent event wakes)).isSome) ∧ (step s (.deleteEvent event)).isSome

/-- Two looks of a thread in succession in a run from `s₀`: one in the state `s`, the next one in `u`,
and `between` is what happens after the first one. -/
structure TwoLooks (s₀ : MultiEventsSet T) (actions : List (Action T)) (t : T) (s : MultiEventsSet T)
    (between : List (Action T)) (u : MultiEventsSet T) : Prop where
  parts : ∃ before after, actions = before ++ .look t :: (between ++ .look t :: after) ∧
    run step s₀ before = some s
  apart : .look t ∉ between
  next : run step s (.look t :: between) = some u

/-- **The others can go on** at some time between two looks in succession at an event that has not
expired. -/
def LetsOthersIn (s₀ : MultiEventsSet T) (actions : List (Action T)) : Prop :=
  ∀ t s between u, TwoLooks s₀ actions t s between u →
    ∀ c c', s.threads t = some (c, .looking) → s.FindsUnexpired c →
      u.threads t = some (c', .looking) → u.FindsUnexpired c' →
        ∃ first rest v, between = first ++ rest ∧ run step s (.look t :: first) = some v ∧ v.Open

/-- **The earliest event is the one returned**, whenever it was added. -/
def EarliestFirst (s : MultiEventsSet T) (_ : Action T) (s' : MultiEventsSet T) : Prop :=
  ∀ t c event, s'.results = (t, c, .found event) :: s.results →
    event ∈ (s.eventsMultiMap c.destination).entries.map Prod.snd ∧
      ∀ event' ∈ (s.eventsMultiMap c.destination).entries.map Prod.snd,
        event.expirationTimePoint ≤ event'.expirationTimePoint

/-- **The first event expires by the next look**, wherever a call that blocks has found it unexpired
and has time left. -/
def ExpiresByNextLook (s₀ : MultiEventsSet T) (actions : List (Action T)) : Prop :=
  ∀ t s between u, TwoLooks s₀ actions t s between u →
    ∀ c, s.threads t = some (c, .looking) → s.FindsUnexpired c → c.blocking = true →
      0 < c.remainingTimeInMilliSecs s.now →
        ∀ head ∈ (s.eventsMultiMap c.destination).begin?, head.2.expirationTimePoint ≤ u.now

/-! ### Who has the mutex -/

/-- Events are added and deleted while nobody has the mutex. -/
theorem open_iff : s.Open ↔ s.evSetMutex = none := by
  constructor
  · intro h
    obtain ⟨s', hdelete⟩ := Option.isSome_iff_exists.mp (h ⟨(0, 0), [], 0⟩).2
    exact (Option.ite_none_right_eq_some.mp hdelete).1
  · intro hmutex event
    refine ⟨?_, ?_⟩
    · unfold step
      simp only [if_pos hmutex]
      unfold addEvent
      cases s.esmMultiEventsSetHashMap event.destination with
      | none => exact ⟨none, rfl⟩
      | some events =>
        dsimp only
        by_cases hnotifies : Notifies event events
        · -- a thread that sleeps is woken
          simp only [if_pos hnotifies]
          cases hqueue : s.addedEvent event.destination with
          | nil =>
            refine ⟨none, ?_⟩
            have hnobody : (s.insertEvent event events).addedEvent event.destination = [] := hqueue
            unfold notifyOne
            dsimp only
            rw [if_pos hnobody]
            rfl
          | cons t queue =>
            refine ⟨some t, ?_⟩
            have ht : t ∈ (s.insertEvent event events).addedEvent event.destination := by
              show t ∈ s.addedEvent event.destination
              rw [hqueue]
              exact List.mem_cons_self
            unfold notifyOne
            dsimp only
            rw [if_pos ht]
            rfl
        · refine ⟨none, ?_⟩
          rw [if_neg hnotifies, if_pos rfl]
          rfl
    · unfold step
      simp only [if_pos hmutex]
      rfl

/-- A thread is between two looks, with the mutex. -/
structure HeldBy (t : T) (c : Call) (events : List UInt8 → Option (MultiMap ℤ Event2))
    (s : MultiEventsSet T) : Prop where
  mutex : s.evSetMutex = some t
  thread : s.threads t = some (c, .looking)
  events : s.esmMultiEventsSetHashMap = events

/-- **The others cannot go on** while a thread is between two looks. -/
theorem HeldBy.step {events : List UInt8 → Option (MultiMap ℤ Event2)} (h : HeldBy t c events s)
    (ha : a ≠ .look t) (hstep : MultiEventsSet.step s a = some s') : HeldBy t c events s' := by
  have hheld : s.evSetMutex ≠ none := by
    rw [h.mutex]
    exact Option.some_ne_none t
  cases a with
  | tick now steady =>
    obtain ⟨-, hsome⟩ := Option.ite_none_right_eq_some.mp hstep
    cases hsome
    exact ⟨h.mutex, h.thread, h.events⟩
  | addDestination destination =>
    exact absurd (Option.ite_none_right_eq_some.mp hstep).1 hheld
  | addEvent event wakes => exact absurd (Option.ite_none_right_eq_some.mp hstep).1 hheld
  | deleteEvent event => exact absurd (Option.ite_none_right_eq_some.mp hstep).1 hheld
  | call t' removes destination blocking milliSecondsToBlock =>
    obtain ⟨hnone, hsome⟩ := Option.ite_none_right_eq_some.mp hstep
    cases hsome
    refine ⟨h.mutex, ?_, h.events⟩
    have htt' : t ≠ t' := by
      rintro rfl
      cases h.thread.symm.trans hnone
    exact (Function.update_of_ne htt' _ _).trans h.thread
  | enter t' =>
    obtain ⟨c', hmutex, -, -⟩ := step_enter hstep
    exact absurd hmutex hheld
  | wake t' =>
    obtain ⟨destination, -, rfl⟩ := step_wake hstep
    exact ⟨h.mutex, h.thread, h.events⟩
  | retake t' =>
    obtain ⟨c', inLoop, deadline, hmutex, -, -, -⟩ := step_retake hstep
    exact absurd hmutex hheld
  | look t' =>
    obtain ⟨c', -, hmutex, -⟩ := step_look hstep
    obtain rfl := Option.some.inj (h.mutex.symm.trans hmutex)
    exact absurd rfl ha

theorem HeldBy.run {events : List UInt8 → Option (MultiMap ℤ Event2)} {between : List (Action T)}
    (h : HeldBy t c events s) (hapart : .look t ∉ between)
    (hrun : Transition.run MultiEventsSet.step s between = some u) : HeldBy t c events u := by
  have hothers : Always MultiEventsSet.step (fun _ a _ => a ≠ .look t) s between :=
    always_of_actions (fun a ha _ _ => ne_of_mem_of_not_mem ha hapart) s
  exact invariant (fun _ _ _ h ha hstep => h.step ha hstep) h hothers hrun

/-- A look at an event that has not expired: the call goes round the loop with the mutex while it
blocks and has time left, and otherwise it returns. -/
theorem lookLocked_of_unexpired (t : T) (h : s.FindsUnexpired c) :
    (c.blocking = true ∧ 0 < c.remainingTimeInMilliSecs s.now →
      s.lookLocked t c = s.goesTo t c .looking) ∧
    (¬(c.blocking = true ∧ 0 < c.remainingTimeInMilliSecs s.now) →
      (s.lookLocked t c).evSetMutex = none) := by
  obtain ⟨hremoves, ⟨key, event⟩, hhead, hnow⟩ := h
  have hne : (s.eventsMultiMap c.destination).entries ≠ [] := by
    intro hnil
    have hhead : (s.eventsMultiMap c.destination).entries.head? = some (key, event) := hhead
    rw [hnil] at hhead
    cases hhead
  -- there is an event, so the predicate of the wait is true
  have hwait : ∀ milliSeconds, s.waitFor t c true milliSeconds = s.goesTo t c .looking :=
    fun milliSeconds => if_neg hne
  unfold lookLocked
  rw [Option.mem_def.mp hhead]
  dsimp only
  rw [if_neg (by rw [hremoves]; exact Bool.noConfusion), if_pos hnow]
  refine ⟨?_, ?_⟩
  · rintro ⟨hblocking, hremaining⟩
    rw [if_pos hblocking, if_neg (not_le.mpr hremaining), hwait, hwait, ite_self]
  · intro hnot
    by_cases hblocking : c.blocking = true
    · rw [if_pos hblocking, if_pos (not_lt.mp fun hremaining => hnot ⟨hblocking, hremaining⟩)]
      rfl
    · rw [if_neg hblocking]
      rfl

/-- A look that does not end the call leaves the thread with the mutex and the events. -/
theorem heldBy_of_look (hstep : step s (.look t) = some s') (hthread : s.threads t = some (c, .looking))
    (h : s.FindsUnexpired c) (hblocking : c.blocking = true)
    (hremaining : 0 < c.remainingTimeInMilliSecs s.now) :
    HeldBy t c s.esmMultiEventsSetHashMap s' := by
  obtain ⟨c', hthread', hmutex, rfl⟩ := step_look hstep
  obtain ⟨rfl, -⟩ := Prod.mk.inj (Option.some.inj (hthread.symm.trans hthread'))
  rw [(lookLocked_of_unexpired t h).1 ⟨hblocking, hremaining⟩]
  exact ⟨hmutex, Function.update_self _ _ _, rfl⟩

/-- **The mutex between two looks**: the others can go on at some time exactly when the first event
expires by the next look. -/
theorem letsOthersIn_iff (s₀ : MultiEventsSet T) (actions : List (Action T)) :
    LetsOthersIn s₀ actions ↔ ExpiresByNextLook s₀ actions := by
  constructor
  · intro hopen t s between u hlooks c hthread hunexpired hblocking hremaining head hhead
    refine not_lt.mp fun hnow => ?_
    obtain ⟨s', hstep, hrest⟩ := Option.bind_eq_some_iff.mp hlooks.next
    have hheld := heldBy_of_look hstep hthread hunexpired hblocking hremaining
    have hu := hheld.run hlooks.apart hrest
    have hagain : u.FindsUnexpired c := by
      refine ⟨hunexpired.1, head, ?_, hnow⟩
      unfold eventsMultiMap at hhead ⊢
      rw [hu.events]
      exact hhead
    obtain ⟨first, rest, v, rfl, hrun, hv⟩ :=
      hopen t s between u hlooks c c hthread hunexpired hu.thread hagain
    -- the thread has the mutex all the time
    obtain ⟨s'', hstep', hfirst⟩ := Option.bind_eq_some_iff.mp hrun
    obtain rfl := Option.some.inj (hstep.symm.trans hstep')
    have hheld' := hheld.run (fun hmem => hlooks.apart (List.mem_append_left rest hmem)) hfirst
    cases (open_iff.mp hv).symm.trans hheld'.mutex
  · intro hexpires t s between u hlooks c c' hthread hunexpired hthread' hunexpired'
    obtain ⟨s', hstep, hrest⟩ := Option.bind_eq_some_iff.mp hlooks.next
    by_cases hgoes : c.blocking = true ∧ 0 < c.remainingTimeInMilliSecs s.now
    · -- the call goes round the loop, and the same event has expired by the next look
      have hu := (heldBy_of_look hstep hthread hunexpired hgoes.1 hgoes.2).run hlooks.apart hrest
      obtain ⟨rfl, -⟩ := Prod.mk.inj (Option.some.inj (hu.thread.symm.trans hthread'))
      obtain ⟨-, head, hhead, hnow⟩ := hunexpired'
      unfold eventsMultiMap at hhead
      rw [hu.events] at hhead
      exact absurd hnow
        (not_lt.mpr (hexpires t s between u hlooks c hthread hunexpired hgoes.1 hgoes.2 head hhead))
    · -- the call returns, and gives the mutex up
      obtain ⟨c'', hthread'', -, rfl⟩ := step_look hstep
      obtain ⟨rfl, -⟩ := Prod.mk.inj (Option.some.inj (hthread.symm.trans hthread''))
      refine ⟨[], between, s.lookLocked t c, rfl, ?_, ?_⟩
      · rw [run_cons, hstep]
        rfl
      · exact open_iff.mpr ((lookLocked_of_unexpired t hunexpired).2 hgoes)

/-! ### The earliest event -/

/-- Every event stands under its expiration. -/
def Keyed (s : MultiEventsSet T) : Prop :=
  ∀ destination, ∀ entry ∈ (s.eventsMultiMap destination).entries,
    entry.1 = entry.2.expirationTimePoint

omit [DecidableEq T] in
/-- The events of a destination after those of it were changed. -/
theorem Keyed.setEvents (h : s.Keyed) {events : MultiMap ℤ Event2}
    (hevents : ∀ entry ∈ events.entries, entry.1 = entry.2.expirationTimePoint) :
    (s.setEvents destination events).Keyed := by
  intro destination' entry hentry
  by_cases hd : destination' = destination
  · rw [hd, eventsMultiMap_setEvents_self] at hentry
    exact hevents entry hentry
  · rw [eventsMultiMap_setEvents_of_ne hd] at hentry
    exact h destination' entry hentry

omit [DecidableEq T] in
theorem Keyed.of_eq (h : s.Keyed) (hevents : s'.esmMultiEventsSetHashMap = s.esmMultiEventsSetHashMap) :
    s'.Keyed := by
  intro destination entry hentry
  unfold eventsMultiMap at hentry
  rw [hevents] at hentry
  exact h destination entry hentry

theorem Locked.events (h : Locked s t c s') :
    s'.esmMultiEventsSetHashMap = s.esmMultiEventsSetHashMap := by
  cases h with
  | returns result => rfl
  | sleeps inLoop deadline => rfl
  | looks => rfl

/-- A look leaves the events, or takes the first one. -/
theorem lookLocked_events (s : MultiEventsSet T) (t : T) (c : Call) :
    (s.lookLocked t c).esmMultiEventsSetHashMap = s.esmMultiEventsSetHashMap ∨
      (s.lookLocked t c).esmMultiEventsSetHashMap =
        (s.eraseFirst c.destination).esmMultiEventsSetHashMap := by
  unfold lookLocked waitFor
  split
  · exact Or.inl rfl
  · split_ifs
    · exact Or.inl rfl
    · exact Or.inl rfl
    · exact Or.inl rfl
    · exact Or.inl rfl
    · exact Or.inl rfl
    · exact Or.inl rfl
    · exact Or.inl rfl
    · exact Or.inr rfl

theorem Keyed.step (h : s.Keyed) (hstep : MultiEventsSet.step s a = some s') : s'.Keyed := by
  cases a with
  | tick now steady =>
    obtain ⟨-, hsome⟩ := Option.ite_none_right_eq_some.mp hstep
    cases hsome
    exact h
  | addDestination destination =>
    obtain ⟨-, hsome⟩ := Option.ite_none_right_eq_some.mp hstep
    cases hsome
    unfold addDestination
    split
    · exact h
    · exact h.setEvents fun entry hentry => (by cases hentry)
  | addEvent event wakes =>
    obtain ⟨-, hsome⟩ := Option.ite_none_right_eq_some.mp hstep
    rcases addEvent_cases hsome with ⟨-, rfl⟩ | ⟨events, hfind, hcases⟩
    · exact h
    · have hinsert : (s.insertEvent event events).Keyed := by
        refine h.setEvents fun entry hentry => ?_
        rcases MultiMap.mem_insertEntries.mp hentry with rfl | hentry
        · rfl
        · exact h event.destination entry (eventsMultiMap_of_find hfind ▸ hentry)
      rcases hcases with ⟨rfl, -⟩ | ⟨t, -, rfl⟩
      · exact hinsert
      · exact hinsert.of_eq rfl
  | deleteEvent event =>
    obtain ⟨-, hsome⟩ := Option.ite_none_right_eq_some.mp hstep
    cases hsome
    unfold deleteEvent
    split
    · exact h
    · next events hfind =>
      refine h.setEvents fun entry hentry => h event.destination entry ?_
      rw [eventsMultiMap_of_find hfind]
      exact List.mem_of_mem_eraseP hentry
  | call t removes destination blocking milliSecondsToBlock =>
    obtain ⟨-, hsome⟩ := Option.ite_none_right_eq_some.mp hstep
    cases hsome
    exact h.of_eq rfl
  | enter t =>
    obtain ⟨c, -, -, rfl⟩ := step_enter hstep
    exact h.of_eq (locked_enterLocked (s.lock t) t c).events
  | wake t =>
    obtain ⟨destination, -, rfl⟩ := step_wake hstep
    exact h.of_eq rfl
  | retake t =>
    obtain ⟨c, inLoop, deadline, -, -, -, rfl⟩ := step_retake hstep
    exact h.of_eq (locked_retakeLocked (s.lock t) t c inLoop deadline).events
  | look t =>
    obtain ⟨c, -, -, rfl⟩ := step_look hstep
    rcases lookLocked_events s t c with heq | heq
    · exact h.of_eq heq
    · refine Keyed.of_eq ?_ heq
      exact h.setEvents fun entry hentry => h c.destination entry (List.mem_of_mem_tail hentry)

/-- What a call that returns adds to the results. -/
theorem returns_found {t' : T} {c' : Call} {result : Result} {event : Event2}
    (h : (s.returns t' c' result).results = (t, c, .found event) :: s.results) :
    c' = c ∧ result = .found event := by
  obtain ⟨hhead, -⟩ := List.cons.inj h
  cases hhead
  exact ⟨rfl, rfl⟩

omit [DecidableEq T] in
/-- Where nothing is added to the results, nothing is returned. -/
theorem not_found_of_same {event : Event2} (hsame : s'.results = s.results) :
    s'.results ≠ (t, c, .found event) :: s.results :=
  fun h => List.cons_ne_self _ _ (h.symm.trans hsame)

/-- A call that takes the mutex does not return an event at once. -/
theorem enterLocked_not_found {t' : T} {c' : Call} {event : Event2} :
    (s.enterLocked t' c').results ≠ (t, c, .found event) :: s.results := by
  unfold enterLocked waitFor
  split
  · exact fun h => Result.noConfusion (returns_found h).2
  · split_ifs
    · exact not_found_of_same rfl
    · exact not_found_of_same rfl
    · exact fun h => Result.noConfusion (returns_found h).2
    · exact not_found_of_same rfl

theorem retakeLocked_not_found {t' : T} {c' : Call} {inLoop : Bool} {deadline : ℤ} {event : Event2} :
    (s.retakeLocked t' c' inLoop deadline).results ≠ (t, c, .found event) :: s.results := by
  unfold retakeLocked
  split_ifs
  · exact not_found_of_same rfl
  · exact not_found_of_same rfl
  · exact not_found_of_same rfl
  · exact fun h => Result.noConfusion (returns_found h).2

/-- A look returns the first event. -/
theorem lookLocked_found {t' : T} {c' : Call} {event : Event2}
    (h : (s.lookLocked t' c').results = (t, c, .found event) :: s.results) :
    ∃ key rest, (s.eventsMultiMap c.destination).entries = (key, event) :: rest := by
  unfold lookLocked waitFor at h
  cases hentries : (s.eventsMultiMap c'.destination).entries with
  | nil =>
    have hnone : (s.eventsMultiMap c'.destination).begin? = none := by
      unfold MultiMap.begin?
      rw [hentries]
      rfl
    rw [hnone] at h
    exact Result.noConfusion (returns_found h).2
  | cons head rest =>
    obtain ⟨key, first⟩ := head
    have hsome : (s.eventsMultiMap c'.destination).begin? = some (key, first) := by
      unfold MultiMap.begin?
      rw [hentries]
      rfl
    rw [hsome] at h
    dsimp only at h
    have hfound : ∀ {s₁ : MultiEventsSet T}, (s₁.returns t' c' (.found first)).results =
        (t, c, .found event) :: s₁.results →
          ∃ key rest, (s.eventsMultiMap c.destination).entries = (key, event) :: rest := by
      intro s₁ h
      obtain ⟨rfl, hevent⟩ := returns_found h
      cases hevent
      exact ⟨key, rest, hentries⟩
    split_ifs at h
    · exact hfound h
    · exact Result.noConfusion (returns_found h).2
    · exact absurd h (not_found_of_same rfl)
    · exact absurd h (not_found_of_same rfl)
    · exact absurd h (not_found_of_same rfl)
    · exact absurd h (not_found_of_same rfl)
    · exact Result.noConfusion (returns_found h).2
    · exact hfound h

/-- **What is returned** is the first event of its destination. -/
theorem first_of_found {event : Event2} (hstep : MultiEventsSet.step s a = some s')
    (hresults : s'.results = (t, c, .found event) :: s.results) :
    ∃ key rest, (s.eventsMultiMap c.destination).entries = (key, event) :: rest := by
  cases a with
  | tick now steady =>
    obtain ⟨-, hsome⟩ := Option.ite_none_right_eq_some.mp hstep
    cases hsome
    exact absurd hresults (not_found_of_same rfl)
  | addDestination destination =>
    obtain ⟨-, hsome⟩ := Option.ite_none_right_eq_some.mp hstep
    cases hsome
    refine absurd hresults (not_found_of_same ?_)
    unfold addDestination
    split
    · rfl
    · rfl
  | addEvent event' wakes =>
    obtain ⟨-, hsome⟩ := Option.ite_none_right_eq_some.mp hstep
    rcases addEvent_cases hsome with ⟨-, rfl⟩ | ⟨events, -, ⟨rfl, -⟩ | ⟨t', -, rfl⟩⟩
    · exact absurd hresults (not_found_of_same rfl)
    · exact absurd hresults (not_found_of_same rfl)
    · exact absurd hresults (not_found_of_same rfl)
  | deleteEvent event' =>
    obtain ⟨-, hsome⟩ := Option.ite_none_right_eq_some.mp hstep
    cases hsome
    refine absurd hresults (not_found_of_same ?_)
    unfold deleteEvent
    split
    · rfl
    · rfl
  | call t' removes destination blocking milliSecondsToBlock =>
    obtain ⟨-, hsome⟩ := Option.ite_none_right_eq_some.mp hstep
    cases hsome
    exact absurd hresults (not_found_of_same rfl)
  | enter t' =>
    obtain ⟨c', -, -, rfl⟩ := step_enter hstep
    exact absurd hresults enterLocked_not_found
  | wake t' =>
    obtain ⟨destination, -, rfl⟩ := step_wake hstep
    exact absurd hresults (not_found_of_same rfl)
  | retake t' =>
    obtain ⟨c', inLoop, deadline, -, -, -, rfl⟩ := step_retake hstep
    exact absurd hresults retakeLocked_not_found
  | look t' =>
    obtain ⟨c', -, -, rfl⟩ := step_look hstep
    exact lookLocked_found hresults

theorem Keyed.earliestFirst (h : s.Keyed) (hstep : MultiEventsSet.step s a = some s') :
    EarliestFirst s a s' := by
  intro t c event hresults
  obtain ⟨key, rest, hentries⟩ := first_of_found hstep hresults
  have hsorted := (s.eventsMultiMap c.destination).sorted
  have hkeyed := h c.destination
  rw [hentries] at hsorted hkeyed ⊢
  refine ⟨List.mem_cons_self, fun event' hevent' => ?_⟩
  obtain ⟨entry, hentry, rfl⟩ := List.mem_map.mp hevent'
  have hkey := hkeyed _ List.mem_cons_self
  rw [← hkeyed entry hentry, ← hkey]
  rcases List.mem_cons.mp hentry with rfl | hrest
  · exact le_rfl
  · exact (List.pairwise_cons.mp hsorted).1 entry hrest

/-! ### The run -/

/-- **The mutex in every run.**  Between any two looks of a thread in succession at a first event that
has not expired the others can go on at some time, and a call returns the earliest event of its
destination, if and only if the first event that a call has found unexpired, with time left, expires
by the next look. -/
theorem letsOthersIn_run_iff (now steady : ℤ) (actions : List (Action T)) :
    LetsOthersIn (initial now steady) actions ∧
        Always MultiEventsSet.step EarliestFirst (initial now steady) actions ↔
      ExpiresByNextLook (initial now steady) actions := by
  have hkeyed : (initial now steady : MultiEventsSet T).Keyed := fun _ _ hentry => by cases hentry
  have hearliest : Always MultiEventsSet.step EarliestFirst (initial now steady) actions :=
    always_of_invariant (P := fun _ _ _ => True)
      (fun s a s' h _ hstep => ⟨h.step hstep, h.earliestFirst hstep⟩) hkeyed
      (always_of_forall (fun _ _ _ => trivial) _ _)
  rw [letsOthersIn_iff]
  exact and_iff_left hearliest

omit [DecidableEq T] in
/-- A consumer looks twice at an event that expires in a second, with ten seconds to block. -/
theorem not_letsOthersIn_of_twoLooks :
    ¬LetsOthersIn (T := Unit) (initial 0 0)
      [.addDestination [99], .addEvent ⟨(1, 1), [99], 1000000000⟩ none,
        .call () true [99] true 10000, .enter (), .look (), .look ()] := by
  intro h
  have hlooks : TwoLooks (T := Unit) (initial 0 0)
      [.addDestination [99], .addEvent ⟨(1, 1), [99], 1000000000⟩ none,
        .call () true [99] true 10000, .enter (), .look (), .look ()] () _ [] _ :=
    ⟨⟨[.addDestination [99], .addEvent ⟨(1, 1), [99], 1000000000⟩ none,
      .call () true [99] true 10000, .enter ()], [], rfl, rfl⟩, List.not_mem_nil, rfl⟩
  obtain ⟨first, rest, v, hsplit, hrun, hopen⟩ := h () _ [] _ hlooks _ _ rfl
    ⟨rfl, _, rfl, by decide⟩ rfl ⟨rfl, _, rfl, by decide⟩
  obtain ⟨rfl, -⟩ := List.append_eq_nil_iff.mp hsplit.symm
  cases hrun
  cases open_iff.mp hopen

end MultiEventsSet

end CatraLibraries
