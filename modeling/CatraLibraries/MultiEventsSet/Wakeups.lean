/-
# Wake-ups

`addEvent` notifies one thread when the event is the first of its destination or expires before the
first one; for every other event it counts on a thread that is awake.  So a thread that leaves with
events behind it leaves them to nobody, when the others sleep: that is the only step that does.

What is promised, that no event that has expired waits for a sleeper, is true in every state of a
run and however far the clock goes on, exactly when every thread that leaves with events behind it
finds another one awake.
-/
import CatraLibraries.MultiEventsSet.MultiEventsSet

namespace CatraLibraries

open Transition

namespace MultiEventsSet

variable {T : Type} {s s' : MultiEventsSet T} {t : T} {c : Call} {destination : List UInt8}

/-! ### Who is awake -/

/-- A thread in a call for the destination does not sleep. -/
def AwakeAt (s : MultiEventsSet T) (destination : List UInt8) (t : T) : Prop :=
  (∃ c at', s.threads t = some (c, at') ∧ c.destination = destination) ∧
    t ∉ s.addedEvent destination

/-- **No event waits for a sleeper**: where the first event has expired and a thread sleeps,
another one is awake. -/
def NoneWaits (s : MultiEventsSet T) : Prop :=
  ∀ destination, ∀ head ∈ (s.eventsMultiMap destination).begin?,
    head.2.expirationTimePoint ≤ s.now → s.addedEvent destination ≠ [] →
      ∃ t, s.AwakeAt destination t

/-- The same with the clock at a later time. -/
def NoneWaitsLater (s : MultiEventsSet T) : Prop :=
  ∀ now, s.now ≤ now → { s with now := now }.NoneWaits

/-- Somebody sees to the events of a destination. -/
def CoveredAt (s : MultiEventsSet T) (destination : List UInt8) : Prop :=
  (s.eventsMultiMap destination).entries ≠ [] → s.addedEvent destination ≠ [] →
    ∃ t, s.AwakeAt destination t

theorem noneWaitsLater_iff : s.NoneWaitsLater ↔ ∀ destination, s.CoveredAt destination := by
  constructor
  · intro h destination hevents hsleep
    obtain ⟨head, rest, hentries⟩ := List.exists_cons_of_ne_nil hevents
    -- the clock goes on to the expiration of the first event
    have hhead : head ∈ (s.eventsMultiMap destination).begin? := by
      show (s.eventsMultiMap destination).entries.head? = some head
      rw [hentries]
      rfl
    exact h (max s.now head.2.expirationTimePoint) (le_max_left _ _) destination head hhead
      (le_max_right _ _) hsleep
  · intro h now _ destination head hhead _ hsleep
    refine h destination ?_ hsleep
    rintro hnil
    have hnone : (s.eventsMultiMap destination).begin? = none := by
      show (s.eventsMultiMap destination).entries.head? = none
      rw [hnil]
      rfl
    cases hnone.symm.trans hhead

/-- The threads that sleep are in a wait for the destination. -/
structure Linked (s : MultiEventsSet T) : Prop where
  nodup : ∀ destination, (s.addedEvent destination).Nodup
  waits : ∀ destination, ∀ t ∈ s.addedEvent destination, ∃ c inLoop deadline,
    s.threads t = some (c, .waiting inLoop deadline) ∧ c.destination = destination

theorem linked_initial (now steady : ℤ) : (initial now steady : MultiEventsSet T).Linked where
  nodup destination := List.nodup_nil
  waits destination t ht := by cases ht

theorem coveredAt_initial (now steady : ℤ) (destination : List UInt8) :
    (initial now steady : MultiEventsSet T).CoveredAt destination :=
  fun hevents => absurd rfl hevents

/-- A thread that is not in a wait does not sleep. -/
theorem Linked.notMem_of_locking (h : s.Linked) (hthread : s.threads t = some (c, .locking))
    (destination : List UInt8) : t ∉ s.addedEvent destination := by
  intro ht
  obtain ⟨c', inLoop, deadline, hc', -⟩ := h.waits destination t ht
  cases hthread.symm.trans hc'

theorem Linked.notMem_of_looking (h : s.Linked) (hthread : s.threads t = some (c, .looking))
    (destination : List UInt8) : t ∉ s.addedEvent destination := by
  intro ht
  obtain ⟨c', inLoop, deadline, hc', -⟩ := h.waits destination t ht
  cases hthread.symm.trans hc'

theorem Linked.notMem_of_none (h : s.Linked) (hthread : s.threads t = none)
    (destination : List UInt8) : t ∉ s.addedEvent destination := by
  intro ht
  obtain ⟨c', inLoop, deadline, hc', -⟩ := h.waits destination t ht
  cases hthread.symm.trans hc'

/-! ### What a call changes -/

/-- A destination of which nobody leaves the call is seen to as before. -/
theorem CoveredAt.frame (h : s.CoveredAt destination)
    (hevents : (s'.eventsMultiMap destination).entries ≠ [] →
      (s.eventsMultiMap destination).entries ≠ [])
    (hqueue : s'.addedEvent destination = s.addedEvent destination)
    (hthreads : ∀ t c at', s.threads t = some (c, at') → c.destination = destination →
      ∃ c' at'', s'.threads t = some (c', at'') ∧ c'.destination = destination) :
    s'.CoveredAt destination := by
  intro hentries hsleep
  rw [hqueue] at hsleep
  obtain ⟨t, ⟨c, at', hthread, hc⟩, ht⟩ := h (hevents hentries) hsleep
  exact ⟨t, hthreads t c at' hthread hc, hqueue ▸ ht⟩

section Threads

variable [DecidableEq T]

/-- The threads of other calls are as they were. -/
theorem threads_update_of_ne {at' : CallAt} (hthread : s.threads t = some (c, at'))
    (hne : destination ≠ c.destination) (entry : Option (Call × CallAt)) :
    ∀ t' c' at'', s.threads t' = some (c', at'') → c'.destination = destination →
      ∃ d at''', Function.update s.threads t entry t' = some (d, at''') ∧
        d.destination = destination := by
  intro t' c' at'' hthread' hc'
  have htt' : t' ≠ t := by
    rintro rfl
    obtain ⟨rfl, -⟩ := Prod.mk.inj (Option.some.inj (hthread.symm.trans hthread'))
    exact hne hc'.symm
  exact ⟨c', at'', (Function.update_of_ne htt' _ _).trans hthread', hc'⟩

theorem threads_returns (s : MultiEventsSet T) (t : T) (c : Call) (result : Result) :
    (s.returns t c result).threads = Function.update s.threads t none := rfl

/-- A thread that goes on in its call is awake. -/
theorem awakeAt_goesTo (at' : CallAt) (ht : t ∉ s.addedEvent c.destination) :
    (s.goesTo t c at').AwakeAt c.destination t :=
  ⟨⟨c, at', Function.update_self _ _ _, rfl⟩, ht⟩

/-- **A thread that leaves** leaves the events to the others that are awake. -/
theorem coveredAt_returns_iff {at' : CallAt} (hthread : s.threads t = some (c, at'))
    (result : Result) :
    (s.returns t c result).CoveredAt c.destination ↔
      ((s.eventsMultiMap c.destination).entries ≠ [] → s.addedEvent c.destination ≠ [] →
        ∃ t', t' ≠ t ∧ s.AwakeAt c.destination t') := by
  refine imp_congr_right fun _ => ?_
  refine imp_congr_right fun _ => ?_
  constructor
  · rintro ⟨t', ⟨c', at'', hthread', hc'⟩, ht'⟩
    have hne : t' ≠ t := by
      rintro rfl
      rw [threads_returns, Function.update_self] at hthread'
      cases hthread'
    rw [threads_returns, Function.update_of_ne hne] at hthread'
    exact ⟨t', hne, ⟨c', at'', hthread', hc'⟩, ht'⟩
  · rintro ⟨t', hne, ⟨c', at'', hthread', hc'⟩, ht'⟩
    exact ⟨t', ⟨c', at'', (Function.update_of_ne hne _ _).trans hthread', hc'⟩, ht'⟩

/-- What the look of a call leaves behind when the call leaves with it. -/
def leftEvents (s : MultiEventsSet T) (c : Call) : List (ℤ × Event2) :=
  match (s.eventsMultiMap c.destination).entries with
  | [] => []
  | (key, event) :: rest =>
    if c.removes = false then (key, event) :: rest
    else if s.now < event.expirationTimePoint then
      if c.blocking = true ∧ 0 < c.remainingTimeInMilliSecs s.now then [] else (key, event) :: rest
    else rest

/-- **A look** at the first event, if it does not end the call, leaves the thread with the mutex;
otherwise it leaves `leftEvents`. -/
theorem lookLocked_cases (s : MultiEventsSet T) (t : T) (c : Call) :
    (s.lookLocked t c = s.goesTo t c .looking ∧ s.leftEvents c = []) ∨
    ∃ (s₁ : MultiEventsSet T) (result : Result), s.lookLocked t c = s₁.returns t c result ∧ s₁.threads = s.threads ∧
      s₁.addedEvent = s.addedEvent ∧
      (s₁.eventsMultiMap c.destination).entries = s.leftEvents c ∧
      ∀ destination ≠ c.destination, s₁.eventsMultiMap destination = s.eventsMultiMap destination := by
  have hwait : ∀ milliSeconds, (s.eventsMultiMap c.destination).entries ≠ [] →
      s.waitFor t c true milliSeconds = s.goesTo t c .looking :=
    fun milliSeconds hentries => if_neg hentries
  unfold lookLocked leftEvents MultiMap.begin?
  cases hentries : (s.eventsMultiMap c.destination).entries with
  | nil => exact Or.inr ⟨s, .nothing, rfl, rfl, rfl, hentries, fun _ _ => rfl⟩
  | cons head rest =>
    obtain ⟨key, event⟩ := head
    have hne : (s.eventsMultiMap c.destination).entries ≠ [] := by
      rw [hentries]
      exact List.cons_ne_nil _ _
    dsimp only [List.head?_cons]
    by_cases hremoves : c.removes = false
    · rw [if_pos hremoves, if_pos hremoves]
      exact Or.inr ⟨s, .found event, rfl, rfl, rfl, hentries, fun _ _ => rfl⟩
    rw [if_neg hremoves, if_neg hremoves]
    by_cases hnow : s.now < event.expirationTimePoint
    · rw [if_pos hnow, if_pos hnow]
      by_cases hblocking : c.blocking = true
      · rw [if_pos hblocking]
        by_cases hremaining : c.remainingTimeInMilliSecs s.now ≤ 0
        · rw [if_pos hremaining, if_neg fun h => absurd h.2 (not_lt.mpr hremaining)]
          exact Or.inr ⟨s, .nothing, rfl, rfl, rfl, hentries, fun _ _ => rfl⟩
        · rw [if_neg hremaining, if_pos (And.intro hblocking (not_le.mp hremaining))]
          refine Or.inl ⟨?_, rfl⟩
          split
          · exact hwait _ hne
          · exact hwait _ hne
      · rw [if_neg hblocking, if_neg fun h => hblocking h.1]
        exact Or.inr ⟨s, .nothing, rfl, rfl, rfl, hentries, fun _ _ => rfl⟩
    · rw [if_neg hnow, if_neg hnow]
      refine Or.inr ⟨s.eraseFirst c.destination, .found event, rfl, rfl, rfl, ?_, ?_⟩
      · unfold eraseFirst
        rw [eventsMultiMap_setEvents_self]
        exact congrArg List.tail hentries
      · intro destination hdestination
        exact eventsMultiMap_setEvents_of_ne hdestination _

/-- What a call comes to when it takes the mutex. -/
inductive Locked (s : MultiEventsSet T) (t : T) (c : Call) : MultiEventsSet T → Prop
  | returns (result : Result) (h : (s.eventsMultiMap c.destination).entries = []) :
      Locked s t c (s.returns t c result)
  | sleeps (inLoop : Bool) (deadline : ℤ) (h : (s.eventsMultiMap c.destination).entries = []) :
      Locked s t c (s.sleeps t c inLoop deadline)
  | looks : Locked s t c (s.goesTo t c .looking)

theorem locked_enterLocked (s : MultiEventsSet T) (t : T) (c : Call) :
    Locked s t c (s.enterLocked t c) := by
  unfold enterLocked
  cases hfind : s.esmMultiEventsSetHashMap c.destination with
  | none =>
    refine Locked.returns .failed ?_
    unfold eventsMultiMap
    rw [hfind]
    rfl
  | some events =>
    dsimp only
    have hevents := eventsMultiMap_of_find hfind
    split
    · next hempty =>
      split
      · unfold waitFor
        rw [hevents, if_pos hempty]
        exact Locked.sleeps _ _ (hevents ▸ hempty)
      · exact Locked.returns .nothing (hevents ▸ hempty)
    · exact Locked.looks

theorem locked_retakeLocked (s : MultiEventsSet T) (t : T) (c : Call) (inLoop : Bool)
    (deadline : ℤ) : Locked s t c (s.retakeLocked t c inLoop deadline) := by
  unfold retakeLocked
  split
  · exact Locked.looks
  · next hentries =>
    have hempty := not_not.mp hentries
    split
    · exact Locked.sleeps inLoop deadline hempty
    · split
      · exact Locked.looks
      · exact Locked.returns .nothing hempty

/-- A step of a thread in a call changes its own destination and itself only. -/
structure Own (s : MultiEventsSet T) (t : T) (c : Call) (s' : MultiEventsSet T) : Prop where
  events : ∀ destination ≠ c.destination,
    s'.eventsMultiMap destination = s.eventsMultiMap destination
  queue : ∀ destination ≠ c.destination, s'.addedEvent destination = s.addedEvent destination
  threads : ∃ entry, s'.threads = Function.update s.threads t entry

theorem Own.coveredAt {at' : CallAt} (h : Own s t c s') (hthread : s.threads t = some (c, at'))
    (hne : destination ≠ c.destination) (hcovered : s.CoveredAt destination) :
    s'.CoveredAt destination := by
  obtain ⟨entry, hentry⟩ := h.threads
  refine hcovered.frame ?_ (h.queue destination hne) ?_
  · rw [h.events destination hne]
    exact id
  · rw [hentry]
    exact threads_update_of_ne hthread hne entry

theorem Locked.own (h : Locked (s.lock t) t c s') : Own s t c s' := by
  cases h with
  | returns result => exact ⟨fun _ _ => rfl, fun _ _ => rfl, none, rfl⟩
  | looks => exact ⟨fun _ _ => rfl, fun _ _ => rfl, some (c, .looking), rfl⟩
  | sleeps inLoop deadline =>
    refine ⟨fun _ _ => rfl, ?_, some (c, .waiting inLoop deadline), rfl⟩
    exact fun destination hne => Function.update_of_ne hne _ _

/-- A call that takes the mutex leaves no event to a sleeper. -/
theorem Locked.coveredAt (h : Locked s t c s') (ht : t ∉ s.addedEvent c.destination) :
    s'.CoveredAt c.destination := by
  cases h with
  | returns result hempty => exact fun hentries => absurd hempty hentries
  | sleeps inLoop deadline hempty => exact fun hentries => absurd hempty hentries
  | looks => exact fun _ _ => ⟨t, awakeAt_goesTo .looking ht⟩

/-! ### The queues -/

omit [DecidableEq T] in
theorem Linked.of_threads (h : s.Linked) (hqueue : s'.addedEvent = s.addedEvent)
    (hthreads : ∀ destination, ∀ t ∈ s.addedEvent destination, s'.threads t = s.threads t) :
    s'.Linked where
  nodup destination := hqueue ▸ h.nodup destination
  waits destination t ht := by
    rw [hqueue] at ht
    rw [hthreads destination t ht]
    exact h.waits destination t ht

/-- A thread that does not sleep goes on, or leaves. -/
theorem Linked.update (h : s.Linked) (ht : ∀ destination, t ∉ s.addedEvent destination)
    (hqueue : s'.addedEvent = s.addedEvent) {entry : Option (Call × CallAt)}
    (hthreads : s'.threads = Function.update s.threads t entry) : s'.Linked := by
  refine h.of_threads hqueue ?_
  intro destination t' ht'
  rw [hthreads]
  refine Function.update_of_ne ?_ _ _
  rintro rfl
  exact ht destination ht'

/-- A thread is woken. -/
theorem Linked.erase (h : s.Linked) (destination : List UInt8) (t : T) :
    { s with
      addedEvent := Function.update s.addedEvent destination
        ((s.addedEvent destination).erase t) }.Linked := by
  have hsub : ∀ destination', List.Sublist
      (Function.update s.addedEvent destination ((s.addedEvent destination).erase t) destination')
      (s.addedEvent destination') := by
    intro destination'
    by_cases hne : destination' = destination
    · subst hne
      rw [Function.update_self]
      exact List.erase_sublist
    · rw [Function.update_of_ne hne]
  exact ⟨fun destination' => (h.nodup destination').sublist (hsub destination'),
    fun destination' t' ht' => h.waits destination' t' ((hsub destination').subset ht')⟩

/-- Who sleeps after a thread went to sleep. -/
theorem mem_addedEvent_sleeps {inLoop : Bool} {deadline : ℤ} {t' : T} :
    t' ∈ (s.sleeps t c inLoop deadline).addedEvent destination ↔
      t' ∈ s.addedEvent destination ∨ (destination = c.destination ∧ t' = t) := by
  show t' ∈ Function.update s.addedEvent c.destination (s.addedEvent c.destination ++ [t])
    destination ↔ _
  by_cases hne : destination = c.destination
  · subst hne
    rw [Function.update_self, List.mem_append, List.mem_singleton]
    exact or_congr_right (and_iff_right rfl).symm
  · rw [Function.update_of_ne hne]
    exact (or_iff_left fun h => hne h.1).symm

theorem Linked.sleeps (h : s.Linked) (ht : ∀ destination, t ∉ s.addedEvent destination)
    (c : Call) (inLoop : Bool) (deadline : ℤ) : (s.sleeps t c inLoop deadline).Linked where
  nodup destination := by
    show (Function.update s.addedEvent c.destination (s.addedEvent c.destination ++ [t])
      destination).Nodup
    by_cases hne : destination = c.destination
    · subst hne
      rw [Function.update_self]
      refine List.nodup_append.mpr ⟨h.nodup _, List.pairwise_singleton _ t, ?_⟩
      rintro a ha b hb rfl
      obtain rfl := List.mem_singleton.mp hb
      exact ht _ ha
    · rw [Function.update_of_ne hne]
      exact h.nodup destination
  waits destination t' ht' := by
    show ∃ c' inLoop' deadline', Function.update s.threads t (some (c, .waiting inLoop deadline)) t' =
      some (c', .waiting inLoop' deadline') ∧ c'.destination = destination
    rcases mem_addedEvent_sleeps.mp ht' with hold | ⟨rfl, rfl⟩
    · have hne : t' ≠ t := by
        rintro rfl
        exact ht destination hold
      rw [Function.update_of_ne hne]
      exact h.waits destination t' hold
    · rw [Function.update_self]
      exact ⟨c, inLoop, deadline, rfl, rfl⟩

theorem Locked.linked (h : Locked s t c s') (hlinked : s.Linked)
    (ht : ∀ destination, t ∉ s.addedEvent destination) : s'.Linked := by
  cases h with
  | returns result => exact hlinked.update ht rfl rfl
  | looks => exact hlinked.update ht rfl rfl
  | sleeps inLoop deadline => exact hlinked.sleeps ht c inLoop deadline

/-! ### The run -/

/-- A thread that leaves with events behind it finds another one awake, if one sleeps. -/
def HandsOver (s : MultiEventsSet T) : Action T → Prop
  | .look t => ∀ c, s.threads t = some (c, .looking) → s.leftEvents c ≠ [] →
      s.addedEvent c.destination ≠ [] → ∃ t', t' ≠ t ∧ s.AwakeAt c.destination t'
  | _ => True

/-- **A look** leaves no event to a sleeper exactly when the thread stays or hands over. -/
theorem coveredAt_lookLocked_iff (h : s.Linked) (hthread : s.threads t = some (c, .looking)) :
    (s.lookLocked t c).CoveredAt c.destination ↔
      (s.leftEvents c ≠ [] → s.addedEvent c.destination ≠ [] →
        ∃ t', t' ≠ t ∧ s.AwakeAt c.destination t') := by
  rcases lookLocked_cases s t c with ⟨hlook, hleft⟩ |
      ⟨s₁, result, hlook, hthreads, hqueue, hevents, -⟩
  · rw [hlook, hleft]
    refine iff_of_true ?_ fun hnil => absurd rfl hnil
    exact fun _ _ => ⟨t, awakeAt_goesTo .looking (h.notMem_of_looking hthread _)⟩
  · rw [hlook, coveredAt_returns_iff (hthreads ▸ hthread) result, hevents, hqueue]
    unfold AwakeAt
    rw [hthreads, hqueue]

theorem own_lookLocked (s : MultiEventsSet T) (t : T) (c : Call) :
    Own s t c (s.lookLocked t c) ∧ (s.lookLocked t c).addedEvent = s.addedEvent := by
  rcases lookLocked_cases s t c with ⟨hlook, -⟩ | ⟨s₁, result, hlook, hthreads, hqueue, -, hevents⟩
  · rw [hlook]
    exact ⟨⟨fun _ _ => rfl, fun _ _ => rfl, some (c, .looking), rfl⟩, rfl⟩
  · rw [hlook]
    refine ⟨⟨hevents, fun d _ => congrFun hqueue d, none, ?_⟩, hqueue⟩
    exact congrArg (Function.update · t none) hthreads

/-- A thread that sleeps is awake once it is out of its queue. -/
theorem Linked.awakeAt_erase (h : s.Linked) (ht : t ∈ s.addedEvent destination) :
    { s with
      addedEvent := Function.update s.addedEvent destination
        ((s.addedEvent destination).erase t) }.AwakeAt destination t := by
  obtain ⟨c, inLoop, deadline, hthread, hc⟩ := h.waits destination t ht
  refine ⟨⟨c, .waiting inLoop deadline, hthread, hc⟩, ?_⟩
  show t ∉ Function.update s.addedEvent destination ((s.addedEvent destination).erase t) destination
  rw [Function.update_self]
  exact (h.nodup destination).not_mem_erase

/-- Waking a thread leaves every destination seen to. -/
theorem Linked.coveredAt_erase (h : s.Linked) (hcovered : s.CoveredAt destination)
    {destination' : List UInt8} (ht : t ∈ s.addedEvent destination') :
    { s with
      addedEvent := Function.update s.addedEvent destination'
        ((s.addedEvent destination').erase t) }.CoveredAt destination := by
  by_cases hne : destination = destination'
  · subst hne
    exact fun _ _ => ⟨t, h.awakeAt_erase ht⟩
  · refine hcovered.frame id (Function.update_of_ne hne _ _) ?_
    exact fun t' c' at' hthread hc' => ⟨c', at', hthread, hc'⟩

omit [DecidableEq T] in
/-- An event more is seen to where there were events before, or nobody sleeps. -/
theorem coveredAt_insertEvent {event : Event2} {events : MultiMap ℤ Event2}
    (hfind : s.esmMultiEventsSetHashMap event.destination = some events)
    (hcovered : s.CoveredAt destination)
    (h : s.addedEvent event.destination = [] ∨ ¬Notifies event events) :
    (s.insertEvent event events).CoveredAt destination := by
  by_cases hne : destination = event.destination
  · subst hne
    intro _ hsleep
    rcases h with hqueue | hnotifies
    · exact absurd hqueue hsleep
    · refine hcovered ?_ hsleep
      rintro hnil
      refine hnotifies fun head hhead => ?_
      have hevents := eventsMultiMap_of_find hfind
      have hnone : events.begin? = none := by
        show events.entries.head? = none
        rw [← hevents, hnil]
        rfl
      cases hnone.symm.trans hhead
  · refine hcovered.frame ?_ rfl fun t' c' at' hthread hc' => ⟨c', at', hthread, hc'⟩
    unfold insertEvent
    rw [eventsMultiMap_setEvents_of_ne hne]
    exact id

omit [DecidableEq T] in
theorem coveredAt_deleteEvent (event : Event2) (hcovered : s.CoveredAt destination) :
    (s.deleteEvent event).CoveredAt destination := by
  unfold deleteEvent
  cases hfind : s.esmMultiEventsSetHashMap event.destination with
  | none => exact hcovered
  | some events =>
    refine hcovered.frame ?_ rfl fun t' c' at' hthread hc' => ⟨c', at', hthread, hc'⟩
    dsimp only
    by_cases hne : destination = event.destination
    · subst hne
      have hevents := eventsMultiMap_of_find hfind
      rw [eventsMultiMap_setEvents_self, hevents]
      intro hentries hnil
      apply hentries
      show events.entries.eraseP _ = []
      rw [hnil]
      rfl
    · rw [eventsMultiMap_setEvents_of_ne hne]
      exact id

omit [DecidableEq T] in
theorem coveredAt_addDestination (destination' : List UInt8) (hcovered : s.CoveredAt destination) :
    (s.addDestination destination').CoveredAt destination := by
  unfold addDestination
  cases hfind : s.esmMultiEventsSetHashMap destination' with
  | some events => exact hcovered
  | none =>
    refine hcovered.frame ?_ rfl fun t' c' at' hthread hc' => ⟨c', at', hthread, hc'⟩
    dsimp only
    by_cases hne : destination = destination'
    · subst hne
      rw [eventsMultiMap_setEvents_self]
      exact fun hentries => absurd rfl hentries
    · rw [eventsMultiMap_setEvents_of_ne hne]
      exact id

omit [DecidableEq T] in
/-- A thread that is out of the queue of its destination is in no other. -/
theorem Linked.notMem_of_waiting (h : s.Linked) {inLoop : Bool} {deadline : ℤ}
    (hthread : s.threads t = some (c, .waiting inLoop deadline))
    (ht : t ∉ s.addedEvent c.destination) (destination : List UInt8) :
    t ∉ s.addedEvent destination := by
  intro hmem
  obtain ⟨c', inLoop', deadline', hc', rfl⟩ := h.waits destination t hmem
  obtain ⟨rfl, -⟩ := Prod.mk.inj (Option.some.inj (hthread.symm.trans hc'))
  exact ht hmem

/-- **Every step** keeps the queues and the threads together. -/
theorem Linked.step {a : Action T} (h : s.Linked) (hstep : step s a = some s') : s'.Linked := by
  cases a with
  | tick now steady =>
    obtain ⟨-, hsome⟩ := Option.ite_none_right_eq_some.mp hstep
    cases hsome
    exact ⟨h.nodup, h.waits⟩
  | addDestination destination =>
    obtain ⟨-, hsome⟩ := Option.ite_none_right_eq_some.mp hstep
    cases hsome
    unfold addDestination
    split
    · exact h
    · exact ⟨h.nodup, h.waits⟩
  | addEvent event wakes =>
    obtain ⟨-, hsome⟩ := Option.ite_none_right_eq_some.mp hstep
    rcases addEvent_cases hsome with ⟨-, rfl⟩ | ⟨events, -, ⟨rfl, -⟩ | ⟨t, -, rfl⟩⟩
    · exact h
    · exact ⟨h.nodup, h.waits⟩
    · have hinsert : (s.insertEvent event events).Linked := ⟨h.nodup, h.waits⟩
      exact hinsert.erase event.destination t
  | deleteEvent event =>
    obtain ⟨-, hsome⟩ := Option.ite_none_right_eq_some.mp hstep
    cases hsome
    unfold deleteEvent
    split
    · exact h
    · exact ⟨h.nodup, h.waits⟩
  | call t removes destination blocking milliSecondsToBlock =>
    obtain ⟨hthread, hsome⟩ := Option.ite_none_right_eq_some.mp hstep
    cases hsome
    exact h.update (h.notMem_of_none hthread) rfl rfl
  | enter t =>
    obtain ⟨c, -, hthread, rfl⟩ := step_enter hstep
    have hlocked := locked_enterLocked (s.lock t) t c
    exact hlocked.linked ⟨h.nodup, h.waits⟩ (h.notMem_of_locking hthread)
  | wake t =>
    obtain ⟨destination, -, rfl⟩ := step_wake hstep
    exact h.erase destination t
  | retake t =>
    obtain ⟨c, inLoop, deadline, -, hthread, ht, rfl⟩ := step_retake hstep
    have hlocked := locked_retakeLocked (s.lock t) t c inLoop deadline
    exact hlocked.linked ⟨h.nodup, h.waits⟩ (h.notMem_of_waiting hthread ht)
  | look t =>
    obtain ⟨c, hthread, -, rfl⟩ := step_look hstep
    obtain ⟨hown, hqueue⟩ := own_lookLocked s t c
    obtain ⟨entry, hentry⟩ := hown.threads
    exact h.update (h.notMem_of_looking hthread) hqueue hentry

/-- A thread that takes the mutex leaves every destination seen to. -/
theorem Locked.covered {at' : CallAt} (h : Locked (s.lock t) t c s')
    (hthread : s.threads t = some (c, at')) (ht : t ∉ s.addedEvent c.destination)
    (hcovered : ∀ destination, s.CoveredAt destination) (destination : List UInt8) :
    s'.CoveredAt destination := by
  by_cases hne : destination = c.destination
  · subst hne
    exact h.coveredAt ht
  · exact h.own.coveredAt hthread hne (hcovered destination)

/-- **One step** leaves every destination seen to exactly when it hands over. -/
theorem covered_step_iff {a : Action T} (h : s.Linked)
    (hcovered : ∀ destination, s.CoveredAt destination) (hstep : MultiEventsSet.step s a = some s') :
    (∀ destination, s'.CoveredAt destination) ↔ s.HandsOver a := by
  cases a with
  | tick now steady =>
    obtain ⟨-, hsome⟩ := Option.ite_none_right_eq_some.mp hstep
    cases hsome
    exact iff_of_true hcovered trivial
  | addDestination destination =>
    obtain ⟨-, hsome⟩ := Option.ite_none_right_eq_some.mp hstep
    cases hsome
    exact iff_of_true (fun d => coveredAt_addDestination destination (hcovered d)) trivial
  | addEvent event wakes =>
    refine iff_of_true ?_ trivial
    intro d
    obtain ⟨-, hsome⟩ := Option.ite_none_right_eq_some.mp hstep
    rcases addEvent_cases hsome with ⟨-, rfl⟩ | ⟨events, hfind, ⟨rfl, hunseen⟩ | ⟨t, ht, rfl⟩⟩
    · exact hcovered d
    · exact coveredAt_insertEvent hfind (hcovered d) hunseen
    · -- the event is seen to by the thread that is woken
      have hinsert : (s.insertEvent event events).Linked := ⟨h.nodup, h.waits⟩
      by_cases hne : d = event.destination
      · subst hne
        exact fun _ _ => ⟨t, hinsert.awakeAt_erase ht⟩
      · refine hinsert.coveredAt_erase ?_ ht
        refine (hcovered d).frame ?_ rfl fun t' c' at' hthread hc' => ⟨c', at', hthread, hc'⟩
        unfold insertEvent
        rw [eventsMultiMap_setEvents_of_ne hne]
        exact id
  | deleteEvent event =>
    obtain ⟨-, hsome⟩ := Option.ite_none_right_eq_some.mp hstep
    cases hsome
    exact iff_of_true (fun d => coveredAt_deleteEvent event (hcovered d)) trivial
  | call t removes destination blocking milliSecondsToBlock =>
    obtain ⟨hthread, hsome⟩ := Option.ite_none_right_eq_some.mp hstep
    cases hsome
    refine iff_of_true (fun d => ?_) trivial
    refine (hcovered d).frame id rfl ?_
    intro t' c' at' hthread' hc'
    have hne : t' ≠ t := by
      rintro rfl
      cases hthread.symm.trans hthread'
    exact ⟨c', at', (Function.update_of_ne hne _ _).trans hthread', hc'⟩
  | enter t =>
    obtain ⟨c, -, hthread, rfl⟩ := step_enter hstep
    have hlocked := locked_enterLocked (s.lock t) t c
    exact iff_of_true (hlocked.covered hthread (h.notMem_of_locking hthread _) hcovered) trivial
  | wake t =>
    obtain ⟨destination, ht, rfl⟩ := step_wake hstep
    exact iff_of_true (fun d => h.coveredAt_erase (hcovered d) ht) trivial
  | retake t =>
    obtain ⟨c, inLoop, deadline, -, hthread, ht, rfl⟩ := step_retake hstep
    have hlocked := locked_retakeLocked (s.lock t) t c inLoop deadline
    exact iff_of_true (hlocked.covered hthread ht hcovered) trivial
  | look t =>
    obtain ⟨c, hthread, -, rfl⟩ := step_look hstep
    have hlook := coveredAt_lookLocked_iff h hthread
    constructor
    · intro hall c' hthread'
      obtain ⟨rfl, -⟩ := Prod.mk.inj (Option.some.inj (hthread.symm.trans hthread'))
      exact hlook.mp (hall c.destination)
    · intro hhands d
      by_cases hne : d = c.destination
      · subst hne
        exact hlook.mpr (hhands c hthread)
      · exact (own_lookLocked s t c).1.coveredAt hthread hne (hcovered d)

/-- **The wake-ups of every run.**  In every state of a run, and however far the clock goes on from
it, no event that has expired waits for a sleeper, if and only if every thread that leaves with
events behind it finds another one awake. -/
theorem noneWaits_run_iff (now steady : ℤ) (actions : List (Action T)) :
    Always MultiEventsSet.step (fun _ _ s' => s'.NoneWaitsLater) (initial now steady) actions ↔
      Always MultiEventsSet.step (fun s a _ => s.HandsOver a) (initial now steady) actions := by
  have hinitial : (initial now steady : MultiEventsSet T).Linked ∧
      ∀ d, (initial now steady : MultiEventsSet T).CoveredAt d :=
    ⟨linked_initial now steady, coveredAt_initial now steady⟩
  have hiff : ∀ (s : MultiEventsSet T) a s', (s.Linked ∧ ∀ d, s.CoveredAt d) →
      MultiEventsSet.step s a = some s' → (s'.NoneWaitsLater ↔ s.HandsOver a) := by
    intro s a s' h hstep
    rw [noneWaitsLater_iff]
    exact covered_step_iff h.1 h.2 hstep
  have hkeep : ∀ (s : MultiEventsSet T) a s', (s.Linked ∧ ∀ d, s.CoveredAt d) →
      MultiEventsSet.step s a = some s' → s'.NoneWaitsLater → s'.Linked ∧ ∀ d, s'.CoveredAt d :=
    fun s a s' h hstep hlater => ⟨h.1.step hstep, noneWaitsLater_iff.mp hlater⟩
  exact always_iff_of_invariant hiff hkeep hinitial actions

end Threads

/-- Two consumers sleep, two events that have expired are added, and only the first of them is
notified. -/
def twoEvents : List (Action Bool) :=
  [.addDestination [99], .call false true [99] true 100, .enter false,
    .call true true [99] true 100, .enter true, .addEvent ⟨(1, 1), [99], 5⟩ (some false),
    .addEvent ⟨(1, 2), [99], 5⟩ none, .retake false]

/-- The consumer that the first event wakes takes it and leaves the other one to the sleeper. -/
theorem not_noneWaits_of_twoEvents :
    ¬Always (step (T := Bool)) (fun _ _ s' => s'.NoneWaits) (initial 10 0)
      (twoEvents ++ [.look false]) := by
  intro h
  obtain ⟨s, hrun, s', hstep, hbegin, hnow, hqueue, hthread⟩ :
      ∃ s, run (step (T := Bool)) (initial 10 0) twoEvents = some s ∧
        ∃ s', step s (.look false) = some s' ∧
          (s'.eventsMultiMap [99]).begin? = some (5, ⟨(1, 2), [99], 5⟩) ∧ s'.now = 10 ∧
          s'.addedEvent [99] = [true] ∧ s'.threads false = none :=
    ⟨_, rfl, _, rfl, by decide +kernel, rfl, by decide +kernel, by decide +kernel⟩
  have hsleep : s'.addedEvent [99] ≠ [] := by
    rw [hqueue]
    exact List.cons_ne_nil _ _
  have hexpired : (5 : ℤ) ≤ s'.now := by
    rw [hnow]
    decide
  obtain ⟨t, ⟨c, at', ht, -⟩, hawake⟩ := h.last hrun hstep [99] _ hbegin hexpired hsleep
  cases t with
  | false => cases hthread.symm.trans ht
  | true =>
    rw [hqueue] at hawake
    exact hawake List.mem_cons_self

end MultiEventsSet

end CatraLibraries
