/-
# Every event is accounted for

Beside the set stand the events that were added and those that were deleted, as the callers see
them.  An event that was added is in the set of its destination, or was returned, or was deleted,
once (`Accounted`); the events of a destination stand in the order of their expirations and, where
these are equal, in the order in which they were added (`InOrder`), so that the first one is the one
to return; and a call that blocks does not give up before its time (`Timed`), as long as the end of
its time is a number of nanoseconds with 64 bits.
-/
import Mathlib.Data.List.Nodup
import CatraLibraries.MultiEventsSet.MultiEventsSet

namespace CatraLibraries

open Transition

namespace MultiEventsSet

variable {T : Type}

/-! ### The history -/

/-- The set, the events that were added and those that were deleted. -/
structure History (T : Type) where
  set : MultiEventsSet T
  added : List Event2
  deleted : List Event2

namespace History

/-- One clock is read for the waits and the expirations. -/
def initial (now : ℤ) : History T := ⟨MultiEventsSet.initial now now, [], []⟩

/-- The events that calls returned. -/
def returned (h : History T) : List Event2 :=
  h.set.results.filterMap fun
    | (_, _, .found event) => some event
    | _ => none

/-- The events of a destination. -/
def events (h : History T) (destination : List UInt8) : List Event2 :=
  (h.set.eventsMultiMap destination).entries.map Prod.snd

/-- What is recorded of an action; without the destination, or the event to delete, it is an
exception. -/
def after (h : History T) (a : Action T) (s : MultiEventsSet T) : History T where
  set := s
  added :=
    match a with
    | .addEvent event _ =>
      if (h.set.esmMultiEventsSetHashMap event.destination).isSome then h.added ++ [event]
      else h.added
    | _ => h.added
  deleted :=
    match a with
    | .deleteEvent event =>
      if (h.set.eventsMultiMap event.destination).entries.any (IsEvent event ·) then
        event :: h.deleted
      else h.deleted
    | _ => h.deleted

def step [DecidableEq T] (h : History T) (a : Action T) : Option (History T) :=
  (MultiEventsSet.step h.set a).map (h.after a)

/-- The events have keys of their own, the calls are of `getAndRemoveFirstEvent`, and there is one
clock. -/
def Proper (h : History T) : Action T → Prop
  | .tick now steady => now = steady
  | .addEvent event _ => ∀ event' ∈ h.added, event'.eventKey ≠ event.eventKey
  | .deleteEvent event => ∀ event' ∈ h.added, event'.eventKey = event.eventKey → event' = event
  | .call _ removes _ _ _ => removes = true
  | _ => True

/-- The end of the time of a call that takes the mutex is a 64-bit number. -/
def EndsInRange (h : History T) : Action T → Prop
  | .enter t => ∀ c at', h.set.threads t = some (c, at') →
    -2 ^ 63 ≤ h.set.steady + c.milliSecondsToBlock * 1000000 ∧
      h.set.steady + c.milliSecondsToBlock * 1000000 < 2 ^ 63
  | _ => True

/-- Every event that was added is in the set of its destination, or was returned, or was deleted,
once. -/
structure Accounted (h : History T) : Prop where
  nodup : h.added.Nodup
  count : ∀ event, h.added.count event =
    (h.events event.destination).count event + h.returned.count event + h.deleted.count event
  own : ∀ destination, ∀ entry ∈ (h.set.eventsMultiMap destination).entries,
    entry.2.destination = destination ∧ entry.1 = entry.2.expirationTimePoint

/-- One event expires before another, or at the same time and was added earlier. -/
def Precedes (added : List Event2) (event event' : Event2) : Prop :=
  event.expirationTimePoint < event'.expirationTimePoint ∨
    event.expirationTimePoint = event'.expirationTimePoint ∧
      added.idxOf event < added.idxOf event'

/-- An event that has expired, and precedes the others of its destination. -/
structure IsFirst (h : History T) (destination : List UInt8) (event : Event2) : Prop where
  mem : event ∈ h.events destination
  expired : event.expirationTimePoint ≤ h.set.now
  precedes : ∀ event' ∈ h.events destination, event' ≠ event → Precedes h.added event event'

/-- The time of the call is over, and no event of its destination has expired first. -/
structure TimeIsOver (h : History T) (c : Call) : Prop where
  waited : c.milliSecondsToBlock * 1000000 ≤ h.set.now - c.initialTimePoint
  unexpired : ∀ event ∈ (h.events c.destination).head?, h.set.now < event.expirationTimePoint

/-- What a call may return; it throws where its destination was not added. -/
def Right (h : History T) (c : Call) : Result → Prop
  | .found event => h.IsFirst c.destination event
  | .nothing => c.blocking = true → h.TimeIsOver c
  | .failed => h.set.esmMultiEventsSetHashMap c.destination = none

/-- What a call returns in a step is right. -/
def Answers (h h' : History T) : Prop :=
  ∀ t c result, h'.set.results = (t, c, result) :: h.set.results → h.Right c result

/-- The events of a destination stand in their order. -/
def InOrder (h : History T) : Prop :=
  ∀ destination, (h.set.eventsMultiMap destination).entries.Pairwise
    fun x y => Precedes h.added x.2 y.2

end History

/-! ### The calls and the clock -/

/-- What is known of a call. -/
structure CallTimed (s : MultiEventsSet T) (t : T) (c : Call) (at' : CallAt) : Prop where
  removes : c.removes = true
  begun : c.initialTimePoint ≤ s.now
  waits : ∀ inLoop deadline, at' = .waiting inLoop deadline →
    inLoop = false ∧ c.initialTimePoint + c.milliSecondsToBlock * 1000000 ≤ deadline
  looks : at' = .looking →
    s.evSetMutex = some t ∧ (s.eventsMultiMap c.destination).entries ≠ []

/-- A thread that looks has the mutex and events to look at; it never waits in the loop. -/
structure Timed (s : MultiEventsSet T) : Prop where
  clock : s.now = s.steady
  calls : ∀ t c at', s.threads t = some (c, at') → s.CallTimed t c at'

variable {s s' : MultiEventsSet T} {t : T} {c : Call}

/-- While nobody has the mutex nobody looks. -/
theorem Timed.not_looking (h : s.Timed) (hmutex : s.evSetMutex = none) (t : T) (c : Call) :
    s.threads t ≠ some (c, .looking) := by
  intro hthread
  have := ((h.calls t c _ hthread).looks rfl).1
  cases hmutex.symm.trans this

theorem Timed.of_threads (h : s.Timed) (hclock : s'.now = s'.steady) (hnow : s.now ≤ s'.now)
    (hthreads : s'.threads = s.threads)
    (hlooks : ∀ t c, s.threads t = some (c, .looking) → s'.evSetMutex = s.evSetMutex ∧
      s'.eventsMultiMap c.destination = s.eventsMultiMap c.destination) : s'.Timed where
  clock := hclock
  calls t c at' hthread := by
    rw [hthreads] at hthread
    have hcall := h.calls t c at' hthread
    refine ⟨hcall.removes, hcall.begun.trans hnow, hcall.waits, fun hat => ?_⟩
    subst hat
    obtain ⟨hmutex, hevents⟩ := hlooks t c hthread
    rw [hmutex, hevents]
    exact hcall.looks rfl

section Steps

variable [DecidableEq T]

/-- A thread goes on, and no other one looks. -/
theorem Timed.update (h : s.Timed) (hclocks : s'.now = s.now ∧ s'.steady = s.steady)
    {entry : Option (Call × CallAt)} (hthreads : s'.threads = Function.update s.threads t entry)
    (hothers : ∀ t', t' ≠ t → ∀ c', s.threads t' ≠ some (c', .looking))
    (hentry : ∀ c at', entry = some (c, at') → s'.CallTimed t c at') : s'.Timed where
  clock := by rw [hclocks.1, hclocks.2, h.clock]
  calls t' c' at' hthread := by
    rw [hthreads] at hthread
    by_cases ht : t' = t
    · rw [ht, Function.update_self] at hthread
      exact ht ▸ hentry c' at' hthread
    · rw [Function.update_of_ne ht] at hthread
      have hcall := h.calls t' c' at' hthread
      refine ⟨hcall.removes, hclocks.1 ▸ hcall.begun, hcall.waits, fun hat => ?_⟩
      exact absurd (hat ▸ hthread) (hothers t' ht c')

/-- What a call comes to when it first takes the mutex. -/
theorem enterLocked_cases (s : MultiEventsSet T) (t : T) (c : Call) :
    (s.esmMultiEventsSetHashMap c.destination = none ∧ s.enterLocked t c = s.returns t c .failed) ∨
      (c.blocking = false ∧ s.enterLocked t c = s.returns t c .nothing) ∨
        s.enterLocked t c =
            s.sleeps t c false (s.deadline c.milliSecondsToBlock) ∨
          (s.eventsMultiMap c.destination).entries ≠ [] ∧
            s.enterLocked t c = s.goesTo t c .looking := by
  unfold enterLocked
  cases hfind : s.esmMultiEventsSetHashMap c.destination with
  | none => exact .inl ⟨rfl, rfl⟩
  | some events =>
    have hevents := eventsMultiMap_of_find hfind
    dsimp only
    by_cases hempty : events.entries = []
    · rw [if_pos hempty]
      by_cases hblocking : c.blocking = true
      · rw [if_pos hblocking]
        unfold waitFor
        rw [if_pos (hevents ▸ hempty)]
        exact .inr (.inr (.inl rfl))
      · rw [if_neg hblocking]
        exact .inr (.inl ⟨Bool.eq_false_iff.mpr hblocking, rfl⟩)
    · rw [if_neg hempty]
      exact .inr (.inr (.inr ⟨hevents ▸ hempty, rfl⟩))

/-- What the first wait of a call comes to. -/
theorem retakeLocked_cases (s : MultiEventsSet T) (t : T) (c : Call) (deadline : ℤ) :
    ((s.eventsMultiMap c.destination).entries ≠ [] ∧
        s.retakeLocked t c false deadline = s.goesTo t c .looking) ∨
      s.retakeLocked t c false deadline = s.sleeps t c false deadline ∨
        (s.eventsMultiMap c.destination).entries = [] ∧ deadline ≤ s.steady ∧
          s.retakeLocked t c false deadline = s.returns t c .nothing := by
  unfold retakeLocked
  by_cases hempty : (s.eventsMultiMap c.destination).entries = []
  · rw [if_neg (not_not.mpr hempty)]
    by_cases hdeadline : s.steady < deadline
    · rw [if_pos hdeadline]
      exact .inr (.inl rfl)
    · rw [if_neg hdeadline]
      exact .inr (.inr ⟨hempty, not_lt.mp hdeadline, rfl⟩)
  · rw [if_pos hempty]
    exact .inl ⟨hempty, rfl⟩

/-- What a look at the first event comes to. -/
theorem lookLocked_cases_removes (s : MultiEventsSet T) (t : T) (hremoves : c.removes = true)
    {key : ℤ} {event : Event2} {rest : List (ℤ × Event2)}
    (hentries : (s.eventsMultiMap c.destination).entries = (key, event) :: rest) :
    (s.now < event.expirationTimePoint ∧
        (s.lookLocked t c = s.goesTo t c .looking ∨
          (c.blocking = true → c.remainingTimeInMilliSecs s.now ≤ 0) ∧
            s.lookLocked t c = s.returns t c .nothing)) ∨
      event.expirationTimePoint ≤ s.now ∧
        s.lookLocked t c = (s.eraseFirst c.destination).returns t c (.found event) := by
  have hwait : ∀ milliSeconds,
      s.waitFor t c true milliSeconds = s.goesTo t c .looking := by
    intro milliSeconds
    refine if_neg ?_
    show (s.eventsMultiMap c.destination).entries ≠ []
    rw [hentries]
    exact List.cons_ne_nil _ _
  unfold lookLocked MultiMap.begin?
  rw [hentries]
  dsimp only [List.head?_cons]
  rw [if_neg (by rw [hremoves]; exact Bool.noConfusion)]
  by_cases hnow : s.now < event.expirationTimePoint
  · rw [if_pos hnow]
    refine .inl ⟨hnow, ?_⟩
    by_cases hblocking : c.blocking = true
    · rw [if_pos hblocking]
      by_cases hremaining : c.remainingTimeInMilliSecs s.now ≤ 0
      · rw [if_pos hremaining]
        exact .inr ⟨fun _ => hremaining, rfl⟩
      · rw [if_neg hremaining]
        refine .inl ?_
        split
        · exact hwait _
        · exact hwait _
    · rw [if_neg hblocking]
      exact .inr ⟨fun h => absurd h hblocking, rfl⟩
  · rw [if_neg hnow]
    exact .inr ⟨not_lt.mp hnow, rfl⟩

omit [DecidableEq T] in
/-- A call with no time left has waited for as long as it was to. -/
theorem waited_of_remaining {now : ℤ} (hbegun : c.initialTimePoint ≤ now)
    (h : c.remainingTimeInMilliSecs now ≤ 0) :
    c.milliSecondsToBlock * 1000000 ≤ now - c.initialTimePoint := by
  unfold Call.remainingTimeInMilliSecs at h
  rw [Int.tdiv_eq_ediv_of_nonneg (by omega)] at h
  omega

end Steps

/-! ### Conservation -/

namespace History

variable {h h' : History T} {event : Event2} {destination : List UInt8}

/-- An event in the set was added. -/
theorem Accounted.mem_added (hacc : h.Accounted) {entry : ℤ × Event2}
    (hentry : entry ∈ (h.set.eventsMultiMap destination).entries) : entry.2 ∈ h.added := by
  have hmem : entry.2 ∈ h.events entry.2.destination := by
    rw [(hacc.own destination entry hentry).1]
    exact List.mem_map_of_mem hentry
  have hpos := List.count_pos_iff.mpr hmem
  have := hacc.count entry.2
  exact List.count_pos_iff.mp (by omega)

theorem Accounted.of_same (hacc : h.Accounted)
    (hevents : ∀ destination, h'.set.eventsMultiMap destination = h.set.eventsMultiMap destination)
    (hadded : h'.added = h.added) (hdeleted : h'.deleted = h.deleted)
    (hreturned : h'.returned = h.returned) : h'.Accounted where
  nodup := hadded ▸ hacc.nodup
  count event := by
    unfold events
    rw [hadded, hdeleted, hreturned, hevents]
    exact hacc.count event
  own destination := hevents destination ▸ hacc.own destination

theorem InOrder.of_same (horder : h.InOrder)
    (hevents : ∀ destination, h'.set.eventsMultiMap destination = h.set.eventsMultiMap destination)
    (hadded : h'.added = h.added) : h'.InOrder := by
  intro destination
  rw [hevents, hadded]
  exact horder destination

/-- An event of a destination goes away, and is returned or deleted. -/
theorem Accounted.remove (hacc : h.Accounted) (hown : event.destination = destination)
    (hself : (h.events destination).Perm (event :: h'.events destination))
    (hsub : (h'.set.eventsMultiMap destination).entries.Sublist
      (h.set.eventsMultiMap destination).entries)
    (hother : ∀ destination' ≠ destination,
      h'.set.eventsMultiMap destination' = h.set.eventsMultiMap destination')
    (hadded : h'.added = h.added)
    (hgone : ∀ event', h'.returned.count event' + h'.deleted.count event' =
      [event].count event' + h.returned.count event' + h.deleted.count event') :
    h'.Accounted where
  nodup := hadded ▸ hacc.nodup
  count event' := by
    have hcount := hacc.count event'
    have hgone' := hgone event'
    rw [hadded]
    by_cases hd : event'.destination = destination
    · rw [hd, hself.count_eq, List.count_cons] at hcount
      rw [List.count_singleton] at hgone'
      rw [hd]
      omega
    · have hne : event' ≠ event := fun heq => hd (heq ▸ hown)
      rw [List.count_singleton, if_neg (by simpa using hne.symm)] at hgone'
      have hsame : h'.events event'.destination = h.events event'.destination :=
        congrArg (fun m : MultiMap ℤ Event2 => m.entries.map Prod.snd) (hother _ hd)
      rw [hsame]
      omega
  own destination' entry hentry := by
    by_cases hd : destination' = destination
    · subst hd
      exact hacc.own destination' entry (hsub.subset hentry)
    · rw [hother destination' hd] at hentry
      exact hacc.own destination' entry hentry

theorem InOrder.remove (horder : h.InOrder)
    (hsub : (h'.set.eventsMultiMap destination).entries.Sublist
      (h.set.eventsMultiMap destination).entries)
    (hother : ∀ destination' ≠ destination,
      h'.set.eventsMultiMap destination' = h.set.eventsMultiMap destination')
    (hadded : h'.added = h.added) : h'.InOrder := by
  intro destination'
  rw [hadded]
  by_cases hd : destination' = destination
  · subst hd
    exact (horder destination').sublist hsub
  · rw [hother destination' hd]
    exact horder destination'

section Add

variable (hself : h'.set.eventsMultiMap event.destination =
    (h.set.eventsMultiMap event.destination).insert event.expirationTimePoint event)
  (hother : ∀ destination ≠ event.destination,
    h'.set.eventsMultiMap destination = h.set.eventsMultiMap destination)
  (hadded : h'.added = h.added ++ [event])

include hself hother hadded

theorem Accounted.add (hacc : h.Accounted) (hnew : event ∉ h.added)
    (hdeleted : h'.deleted = h.deleted) (hreturned : h'.returned = h.returned) :
    h'.Accounted where
  nodup := by
    rw [hadded]
    exact List.nodup_append.mpr ⟨hacc.nodup, List.nodup_singleton event,
      fun a ha b hb heq => hnew (List.mem_singleton.mp hb ▸ heq ▸ ha)⟩
  count event' := by
    have hcount := hacc.count event'
    rw [hadded, hdeleted, hreturned, List.count_append]
    by_cases hd : event'.destination = event.destination
    · have hperm : (h'.events event.destination).Perm
          (event :: h.events event.destination) := by
        unfold events
        rw [hself]
        exact (MultiMap.insertEntries_perm _ _ _).map Prod.snd
      rw [hd] at hcount ⊢
      rw [hperm.count_eq, List.count_singleton, List.count_cons]
      omega
    · have hne : event ≠ event' := fun heq => hd (heq ▸ rfl)
      have hsame : h'.events event'.destination = h.events event'.destination :=
        congrArg (fun m : MultiMap ℤ Event2 => m.entries.map Prod.snd) (hother _ hd)
      rw [hsame, List.count_singleton, if_neg (by simpa using hne)]
      exact hcount
  own destination entry hentry := by
    by_cases hd : destination = event.destination
    · subst hd
      rw [hself] at hentry
      rcases MultiMap.mem_insertEntries.mp hentry with rfl | hentry
      · exact ⟨rfl, rfl⟩
      · exact hacc.own _ entry hentry
    · rw [hother destination hd] at hentry
      exact hacc.own destination entry hentry

/-- A new event stands behind those that expire no later. -/
theorem InOrder.add (horder : h.InOrder) (hacc : h.Accounted) (hnew : event ∉ h.added) :
    h'.InOrder := by
  have hold : ∀ destination, (h.set.eventsMultiMap destination).entries.Pairwise
      fun x y => Precedes h'.added x.2 y.2 := by
    intro destination
    refine (horder destination).imp_of_mem ?_
    intro x y hx hy hprecedes
    unfold Precedes
    rw [hadded, List.idxOf_append_of_mem (hacc.mem_added hx),
      List.idxOf_append_of_mem (hacc.mem_added hy)]
    exact hprecedes
  intro destination
  by_cases hd : destination = event.destination
  · subst hd
    rw [hself]
    refine MultiMap.pairwise_insertEntries_of (h.set.eventsMultiMap _).sorted (hold _) ?_ ?_
    · intro x hx hle
      rw [(hacc.own _ x hx).2] at hle
      rcases lt_or_eq_of_le hle with hlt | heq
      · exact .inl hlt
      · -- the new event is the last one that was added
        refine .inr ⟨heq, ?_⟩
        have hmem := hacc.mem_added hx
        rw [hadded, List.idxOf_append_of_mem hmem, List.idxOf_append_of_notMem hnew]
        exact Nat.lt_of_lt_of_le (List.idxOf_lt_length_of_mem hmem) (Nat.le_add_right _ _)
    · intro x hx hlt
      rw [(hacc.own _ x hx).2] at hlt
      exact .inl hlt
  · rw [hother destination hd]
    exact hold destination

end Add

theorem Answers.of_same (hresults : h'.set.results = h.set.results) : h.Answers h' := by
  intro t c result heq
  exact absurd (heq.symm.trans hresults) (List.cons_ne_self _ _)

theorem Answers.of_cons {t : T} {c : Call} {result : Result}
    (hresults : h'.set.results = (t, c, result) :: h.set.results) (hright : h.Right c result) :
    h.Answers h' := by
  intro t' c' result' heq
  obtain ⟨heq, -⟩ := List.cons.inj (heq.symm.trans hresults)
  cases heq
  exact hright

/-- The invariant of a run. -/
structure Consistent (h : History T) : Prop where
  timed : h.set.Timed
  accounted : h.Accounted
  inOrder : h.InOrder

/-- A step that leaves the events and the record of them as they are. -/
theorem Consistent.of_same (hc : h.Consistent) (htimed : h'.set.Timed)
    (hevents : ∀ destination, h'.set.eventsMultiMap destination = h.set.eventsMultiMap destination)
    (hadded : h'.added = h.added) (hdeleted : h'.deleted = h.deleted)
    (hreturned : h'.returned = h.returned) : h'.Consistent :=
  ⟨htimed, hc.accounted.of_same hevents hadded hdeleted hreturned,
    hc.inOrder.of_same hevents hadded⟩

/-! ### The steps -/

section Steps

variable [DecidableEq T] {t : T} {c : Call}

/-- A call goes on or returns no event, and does not change the events. -/
theorem Consistent.own (hc : h.Consistent) {s : MultiEventsSet T} {entry : Option (Call × CallAt)}
    {h' : History T} (hset : h'.set = s) (hadded : h'.added = h.added)
    (hdeleted : h'.deleted = h.deleted) (hclocks : s.now = h.set.now ∧ s.steady = h.set.steady)
    (hthreads : s.threads = Function.update h.set.threads t entry)
    (hevents : s.esmMultiEventsSetHashMap = h.set.esmMultiEventsSetHashMap)
    (hothers : ∀ t', t' ≠ t → ∀ c', h.set.threads t' ≠ some (c', .looking))
    (hentry : ∀ c at', entry = some (c, at') → s.CallTimed t c at')
    (hresults : s.results = h.set.results ∨
      ∃ c result, s.results = (t, c, result) :: h.set.results ∧ (∀ event, result ≠ .found event) ∧
        h.Right c result) : h'.Consistent ∧ h.Answers h' := by
  subst hset
  have hreturned : h'.returned = h.returned := by
    unfold returned
    rcases hresults with hsame | ⟨c, result, hcons, hnot, -⟩
    · rw [hsame]
    · rw [hcons, List.filterMap_cons_none]
      cases result with
      | found event => exact absurd rfl (hnot event)
      | nothing => rfl
      | failed => rfl
  refine ⟨hc.of_same (hc.timed.update hclocks hthreads hothers hentry) (fun d => ?_) hadded hdeleted
    hreturned, ?_⟩
  · unfold eventsMultiMap
    rw [hevents]
  · rcases hresults with hsame | ⟨c, result, hcons, -, hright⟩
    · exact Answers.of_same hsame
    · exact Answers.of_cons hcons hright

theorem consistent_enter (hc : h.Consistent) (hthread : h.set.threads t = some (c, .locking))
    (hmutex : h.set.evSetMutex = none) (hrange : h.EndsInRange (.enter t)) {h' : History T}
    (hset : h'.set = (h.set.lock t).enterLocked t c) (hadded : h'.added = h.added)
    (hdeleted : h'.deleted = h.deleted) : h'.Consistent ∧ h.Answers h' := by
  have hcall := hc.timed.calls t c _ hthread
  have hothers := fun t' (_ : t' ≠ t) => hc.timed.not_looking hmutex t'
  rcases enterLocked_cases (h.set.lock t) t c with ⟨hnone, heq⟩ | ⟨hblocking, heq⟩ | heq | ⟨hne, heq⟩
  · exact hc.own (hset.trans heq) hadded hdeleted ⟨rfl, rfl⟩ rfl rfl hothers (fun _ _ he => (by cases he))
      (.inr ⟨c, .failed, rfl, fun _ he => (by cases he), hnone⟩)
  · refine hc.own (hset.trans heq) hadded hdeleted ⟨rfl, rfl⟩ rfl rfl hothers (fun _ _ he => (by cases he))
      (.inr ⟨c, .nothing, rfl, fun _ he => (by cases he), fun hb => ?_⟩)
    rw [hblocking] at hb
    cases hb
  · refine hc.own (hset.trans heq) hadded hdeleted ⟨rfl, rfl⟩ rfl rfl hothers (fun c' at' he => ?_) (.inl rfl)
    cases he
    refine ⟨hcall.removes, hcall.begun, fun inLoop deadline he => ?_, fun he => (by cases he)⟩
    cases he
    refine ⟨rfl, ?_⟩
    have hclock := hc.timed.clock
    have hbegun := hcall.begun
    obtain ⟨hlow, hhigh⟩ := hrange c _ hthread
    have hend : (h.set.steady + c.milliSecondsToBlock * 1000000).bmod (2 ^ 64) =
        h.set.steady + c.milliSecondsToBlock * 1000000 :=
      Int.bmod_eq_of_le (by omega) (by omega)
    show _ ≤ (h.set.steady + c.milliSecondsToBlock * 1000000).bmod (2 ^ 64)
    rw [hend]
    omega
  · refine hc.own (hset.trans heq) hadded hdeleted ⟨rfl, rfl⟩ rfl rfl hothers (fun c' at' he => ?_) (.inl rfl)
    cases he
    exact ⟨hcall.removes, hcall.begun, fun _ _ he => (by cases he), fun _ => ⟨rfl, hne⟩⟩

theorem consistent_retake (hc : h.Consistent) {inLoop : Bool} {deadline : ℤ}
    (hthread : h.set.threads t = some (c, .waiting inLoop deadline))
    (hmutex : h.set.evSetMutex = none) {h' : History T}
    (hset : h'.set = (h.set.lock t).retakeLocked t c inLoop deadline)
    (hadded : h'.added = h.added) (hdeleted : h'.deleted = h.deleted) :
    h'.Consistent ∧ h.Answers h' := by
  have hcall := hc.timed.calls t c _ hthread
  have hothers := fun t' (_ : t' ≠ t) => hc.timed.not_looking hmutex t'
  obtain ⟨rfl, hdeadline⟩ := hcall.waits inLoop deadline rfl
  rcases retakeLocked_cases (h.set.lock t) t c deadline with ⟨hne, heq⟩ | heq | ⟨hempty, hover, heq⟩
  · refine hc.own (hset.trans heq) hadded hdeleted ⟨rfl, rfl⟩ rfl rfl hothers (fun c' at' he => ?_) (.inl rfl)
    cases he
    exact ⟨hcall.removes, hcall.begun, fun _ _ he => (by cases he), fun _ => ⟨rfl, hne⟩⟩
  · refine hc.own (hset.trans heq) hadded hdeleted ⟨rfl, rfl⟩ rfl rfl hothers (fun c' at' he => ?_) (.inl rfl)
    cases he
    exact ⟨hcall.removes, hcall.begun, hcall.waits, fun he => (by cases he)⟩
  · -- the deadline is the end of the time of the call
    refine hc.own (hset.trans heq) hadded hdeleted ⟨rfl, rfl⟩ rfl rfl hothers (fun _ _ he => (by cases he))
      (.inr ⟨c, .nothing, rfl, fun _ he => (by cases he), fun _ => ⟨?_, ?_⟩⟩)
    · have hclock := hc.timed.clock
      change deadline ≤ h.set.steady at hover
      omega
    · have hnil : h.events c.destination = [] := congrArg (List.map Prod.snd) hempty
      rw [hnil]
      exact fun _ he => (by cases he)

theorem consistent_look (hc : h.Consistent) (hthread : h.set.threads t = some (c, .looking))
    {h' : History T} (hset : h'.set = h.set.lookLocked t c) (hadded : h'.added = h.added)
    (hdeleted : h'.deleted = h.deleted) : h'.Consistent ∧ h.Answers h' := by
  have hcall := hc.timed.calls t c _ hthread
  obtain ⟨hmutex, hne⟩ := hcall.looks rfl
  obtain ⟨⟨key, event⟩, rest, hentries⟩ := List.exists_cons_of_ne_nil hne
  have hevents : h.events c.destination = event :: rest.map Prod.snd :=
    congrArg (List.map Prod.snd) hentries
  -- nobody else has the mutex
  have hothers : ∀ t', t' ≠ t → ∀ c', h.set.threads t' ≠ some (c', .looking) := by
    intro t' ht c' hthread'
    have hmutex' := ((hc.timed.calls t' c' _ hthread').looks rfl).1
    exact ht (Option.some.inj (hmutex'.symm.trans hmutex))
  rcases lookLocked_cases_removes h.set t hcall.removes hentries with ⟨hnow, heq | ⟨hover, heq⟩⟩ |
      ⟨hexpired, heq⟩
  · refine hc.own (hset.trans heq) hadded hdeleted ⟨rfl, rfl⟩ rfl rfl hothers (fun c' at' he => ?_) (.inl rfl)
    cases he
    exact ⟨hcall.removes, hcall.begun, fun _ _ he => (by cases he), fun _ => ⟨hmutex, hne⟩⟩
  · refine hc.own (hset.trans heq) hadded hdeleted ⟨rfl, rfl⟩ rfl rfl hothers (fun _ _ he => (by cases he))
      (.inr ⟨c, .nothing, rfl, fun _ he => (by cases he), fun hblocking => ⟨?_, ?_⟩⟩)
    · exact waited_of_remaining hcall.begun (hover hblocking)
    · rw [hevents]
      exact fun event' he => Option.some.inj he ▸ hnow
  · -- the first event goes from the set to the caller
    have hset' := hset.trans heq
    have hself : (h'.set.eventsMultiMap c.destination).entries =
        (h.set.eventsMultiMap c.destination).entries.tail := by
      rw [hset']
      exact congrArg MultiMap.entries (eventsMultiMap_setEvents_self h.set c.destination _)
    have hresults : h'.set.results = (t, c, .found event) :: h.set.results := by
      rw [hset']
      rfl
    have hother : ∀ destination ≠ c.destination,
        h'.set.eventsMultiMap destination = h.set.eventsMultiMap destination := by
      intro destination hd
      rw [hset']
      exact eventsMultiMap_setEvents_of_ne (s := h.set) hd _
    have hsub : (h'.set.eventsMultiMap c.destination).entries.Sublist
        (h.set.eventsMultiMap c.destination).entries := by
      rw [hself]
      exact List.tail_sublist _
    have hperm : (h.events c.destination).Perm (event :: h'.events c.destination) := by
      rw [hevents]
      unfold events
      rw [hself, hentries]
      exact List.Perm.refl _
    have hreturned : h'.returned = event :: h.returned := by
      unfold returned
      rw [hresults]
      rfl
    have hown : event.destination = c.destination :=
      (hc.accounted.own c.destination (key, event) (hentries ▸ List.mem_cons_self)).1
    refine ⟨⟨?_, ?_, hc.inOrder.remove hsub hother hadded⟩, Answers.of_cons hresults ⟨?_,
      hexpired, ?_⟩⟩
    · rw [hset']
      exact hc.timed.update ⟨rfl, rfl⟩ rfl hothers fun _ _ he => (by cases he)
    · refine hc.accounted.remove hown hperm hsub hother hadded fun event' => ?_
      rw [hreturned, hdeleted, List.count_cons, List.count_singleton]
      omega
    · rw [hevents]
      exact List.mem_cons_self
    · intro event' hmem hne'
      rw [hevents] at hmem
      obtain ⟨entry, hentry, rfl⟩ := List.mem_map.mp ((List.mem_cons.mp hmem).resolve_left hne')
      have horder := hc.inOrder c.destination
      rw [hentries] at horder
      exact (List.pairwise_cons.mp horder).1 entry hentry

omit [DecidableEq T] in
/-- The set is changed while nobody has the mutex. -/
theorem Consistent.timed_of_threads (hc : h.Consistent) (hmutex : h.set.evSetMutex = none)
    {s : MultiEventsSet T} (hclocks : s.now = h.set.now ∧ s.steady = h.set.steady)
    (hthreads : s.threads = h.set.threads) : s.Timed := by
  refine hc.timed.of_threads ?_ hclocks.1.ge hthreads fun t c hthread => ?_
  · rw [hclocks.1, hclocks.2, hc.timed.clock]
  · exact absurd hthread (hc.timed.not_looking hmutex t c)

/-- An event is added, or the destination is not there. -/
theorem consistent_addEvent (hc : h.Consistent) {event : Event2} {wakes : Option T}
    (hproper : h.Proper (.addEvent event wakes)) (hmutex : h.set.evSetMutex = none)
    {s : MultiEventsSet T} (hs : h.set.addEvent event wakes = some s) :
    (h.after (.addEvent event wakes) s).Consistent ∧
      h.Answers (h.after (.addEvent event wakes) s) := by
  rcases addEvent_cases hs with ⟨hnone, rfl⟩ | ⟨events, hfind, hcases⟩
  · have hadded : (h.after (.addEvent event wakes) h.set).added = h.added := by
      show (if _ then _ else _) = _
      rw [hnone]
      rfl
    exact ⟨hc.of_same hc.timed (fun _ => rfl) hadded rfl rfl, Answers.of_same rfl⟩
  · -- a notification changes the queue only
    have hsame : s.esmMultiEventsSetHashMap =
          (h.set.insertEvent event events).esmMultiEventsSetHashMap ∧
        s.threads = h.set.threads ∧ s.results = h.set.results ∧
        s.now = h.set.now ∧ s.steady = h.set.steady := by
      rcases hcases with ⟨rfl, -⟩ | ⟨t, -, rfl⟩
      · exact ⟨rfl, rfl, rfl, rfl, rfl⟩
      · exact ⟨rfl, rfl, rfl, rfl, rfl⟩
    obtain ⟨hevents, hthreads, hresults, hclocks⟩ := hsame
    have heq : ∀ destination, s.eventsMultiMap destination =
        (h.set.insertEvent event events).eventsMultiMap destination := by
      intro destination
      unfold eventsMultiMap
      rw [hevents]
    have hself : s.eventsMultiMap event.destination =
        (h.set.eventsMultiMap event.destination).insert event.expirationTimePoint event := by
      rw [heq, eventsMultiMap_of_find hfind]
      exact eventsMultiMap_setEvents_self h.set _ _
    have hother : ∀ destination ≠ event.destination,
        s.eventsMultiMap destination = h.set.eventsMultiMap destination := by
      intro destination hd
      rw [heq]
      exact eventsMultiMap_setEvents_of_ne hd _
    have hadded : (h.after (.addEvent event wakes) s).added = h.added ++ [event] := by
      show (if _ then _ else _) = _
      rw [hfind]
      rfl
    have hnew : event ∉ h.added := fun hmem => hproper event hmem rfl
    have hreturned : (h.after (.addEvent event wakes) s).returned = h.returned := by
      unfold returned
      exact congrArg _ hresults
    exact ⟨⟨hc.timed_of_threads hmutex hclocks hthreads,
      Accounted.add hself hother hadded hc.accounted hnew rfl hreturned,
      InOrder.add hself hother hadded hc.inOrder hc.accounted hnew⟩, Answers.of_same hresults⟩

omit [DecidableEq T] in
/-- An event is deleted, or there is none to delete. -/
theorem consistent_deleteEvent (hc : h.Consistent) {event : Event2}
    (hproper : h.Proper (.deleteEvent event)) (hmutex : h.set.evSetMutex = none) :
    (h.after (.deleteEvent event) (h.set.deleteEvent event)).Consistent ∧
      h.Answers (h.after (.deleteEvent event) (h.set.deleteEvent event)) := by
  have hsame : (h.set.deleteEvent event).threads = h.set.threads ∧
      (h.set.deleteEvent event).results = h.set.results ∧
      (h.set.deleteEvent event).now = h.set.now ∧
      (h.set.deleteEvent event).steady = h.set.steady := by
    unfold deleteEvent
    split
    · exact ⟨rfl, rfl, rfl, rfl⟩
    · exact ⟨rfl, rfl, rfl, rfl⟩
  obtain ⟨hthreads, hresults, hclocks⟩ := hsame
  have htimed : (h.set.deleteEvent event).Timed := hc.timed_of_threads hmutex hclocks hthreads
  have hreturned : (h.after (.deleteEvent event) (h.set.deleteEvent event)).returned =
      h.returned := by
    unfold returned
    exact congrArg _ hresults
  refine ⟨?_, Answers.of_same hresults⟩
  have hself : ((h.set.deleteEvent event).eventsMultiMap event.destination).entries =
      (h.set.eventsMultiMap event.destination).entries.eraseP (IsEvent event ·) := by
    unfold deleteEvent
    cases hfind : h.set.esmMultiEventsSetHashMap event.destination with
    | none =>
      have hnil : h.set.eventsMultiMap event.destination = MultiMap.empty := by
        unfold eventsMultiMap
        rw [hfind]
        rfl
      dsimp only
      rw [hnil]
      rfl
    | some events =>
      dsimp only
      rw [eventsMultiMap_setEvents_self, eventsMultiMap_of_find hfind]
  have hother : ∀ destination ≠ event.destination,
      (h.set.deleteEvent event).eventsMultiMap destination = h.set.eventsMultiMap destination := by
    intro destination hd
    unfold deleteEvent
    split
    · rfl
    · exact eventsMultiMap_setEvents_of_ne hd _
  have hsub : ((h.set.deleteEvent event).eventsMultiMap event.destination).entries.Sublist
      (h.set.eventsMultiMap event.destination).entries := by
    rw [hself]
    exact List.eraseP_sublist
  by_cases hany : (h.set.eventsMultiMap event.destination).entries.any (IsEvent event ·) = true
  · obtain ⟨entry, hentry, hfound⟩ := List.any_eq_true.mp hany
    obtain ⟨entry, before, rest, -, hfound, hsplit, herase⟩ := List.exists_of_eraseP (p := (IsEvent event ·)) hentry hfound
    have hmem : entry ∈ (h.set.eventsMultiMap event.destination).entries := by
      rw [hsplit]
      exact List.mem_append_right before List.mem_cons_self
    -- the event that is found is the one to delete: no other one has its key
    have hevent : entry.2 = event :=
      hproper entry.2 (hc.accounted.mem_added hmem) (of_decide_eq_true hfound).2
    have hdeleted : (h.after (.deleteEvent event) (h.set.deleteEvent event)).deleted =
        event :: h.deleted := if_pos hany
    refine ⟨htimed, hc.accounted.remove rfl ?_ hsub hother rfl fun event' => ?_,
      hc.inOrder.remove hsub hother rfl⟩
    · unfold events
      show List.Perm _ (event ::
        ((h.set.deleteEvent event).eventsMultiMap event.destination).entries.map Prod.snd)
      rw [hself, herase, hsplit, List.map_append, List.map_cons, List.map_append, hevent]
      exact List.perm_middle
    · rw [hreturned, hdeleted, List.count_cons, List.count_singleton]
      omega
  · -- there is no such event
    have hdeleted : (h.after (.deleteEvent event) (h.set.deleteEvent event)).deleted = h.deleted :=
      if_neg hany
    have hnone : ((h.set.deleteEvent event).eventsMultiMap event.destination).entries =
        (h.set.eventsMultiMap event.destination).entries := by
      rw [hself]
      refine List.eraseP_of_forall_not fun entry hentry hfound => hany ?_
      exact List.any_eq_true.mpr ⟨entry, hentry, hfound⟩
    refine hc.of_same htimed (fun destination => ?_) rfl hdeleted hreturned
    by_cases hd : destination = event.destination
    · subst hd
      exact MultiMap.ext hnone
    · exact hother destination hd

/-- **One step** keeps the account and the order of the events, and what a call returns is right. -/
theorem Consistent.step {a : Action T} (hc : h.Consistent) (hproper : h.Proper a)
    (hrange : h.EndsInRange a) (hstep : History.step h a = some h') : h'.Consistent ∧ h.Answers h' := by
  obtain ⟨s, hs, rfl⟩ := Option.map_eq_some_iff.mp hstep
  cases a with
  | tick now steady =>
    obtain ⟨hle, hs⟩ := Option.ite_none_right_eq_some.mp hs
    obtain rfl := Option.some.inj hs
    obtain rfl : now = steady := hproper
    refine ⟨hc.of_same ?_ (fun _ => rfl) rfl rfl rfl, Answers.of_same rfl⟩
    exact hc.timed.of_threads rfl (hc.timed.clock.trans_le hle) rfl fun _ _ _ => ⟨rfl, rfl⟩
  | addDestination destination =>
    obtain ⟨hmutex, hs⟩ := Option.ite_none_right_eq_some.mp hs
    obtain rfl := Option.some.inj hs
    unfold addDestination
    split
    · exact ⟨hc.of_same hc.timed (fun _ => rfl) rfl rfl rfl, Answers.of_same rfl⟩
    · next hfind =>
      refine ⟨hc.of_same (hc.timed_of_threads hmutex ⟨rfl, rfl⟩ rfl) (fun destination' => ?_) rfl
        rfl rfl, Answers.of_same rfl⟩
      by_cases hd : destination' = destination
      · subst hd
        refine (eventsMultiMap_setEvents_self h.set destination' _).trans ?_
        unfold eventsMultiMap
        rw [hfind]
        rfl
      · exact eventsMultiMap_setEvents_of_ne hd _
  | addEvent event wakes =>
    obtain ⟨hmutex, hs⟩ := Option.ite_none_right_eq_some.mp hs
    exact consistent_addEvent hc hproper hmutex hs
  | deleteEvent event =>
    obtain ⟨hmutex, hs⟩ := Option.ite_none_right_eq_some.mp hs
    obtain rfl := Option.some.inj hs
    exact consistent_deleteEvent hc hproper hmutex
  | call t removes destination blocking milliSecondsToBlock =>
    obtain ⟨hthread, hs⟩ := Option.ite_none_right_eq_some.mp hs
    obtain rfl := Option.some.inj hs
    obtain rfl : removes = true := hproper
    refine ⟨hc.of_same ⟨hc.timed.clock, fun t' c' at' hthread' => ?_⟩ (fun _ => rfl) rfl rfl rfl,
      Answers.of_same rfl⟩
    change Function.update h.set.threads t _ t' = _ at hthread'
    by_cases ht : t' = t
    · rw [ht, Function.update_self] at hthread'
      cases hthread'
      exact ⟨rfl, le_rfl, fun _ _ he => (by cases he), fun he => (by cases he)⟩
    · rw [Function.update_of_ne ht] at hthread'
      have hcall := hc.timed.calls t' c' at' hthread'
      exact ⟨hcall.removes, hcall.begun, hcall.waits, hcall.looks⟩
  | enter t =>
    obtain ⟨c, hmutex, hthread, rfl⟩ := step_enter hs
    exact consistent_enter hc hthread hmutex hrange rfl rfl rfl
  | wake t =>
    obtain ⟨destination, -, rfl⟩ := step_wake hs
    refine ⟨hc.of_same ?_ (fun _ => rfl) rfl rfl rfl, Answers.of_same rfl⟩
    exact hc.timed.of_threads hc.timed.clock le_rfl rfl fun _ _ _ => ⟨rfl, rfl⟩
  | retake t =>
    obtain ⟨c, inLoop, deadline, hmutex, hthread, -, rfl⟩ := step_retake hs
    exact consistent_retake hc hthread hmutex rfl rfl rfl
  | look t =>
    obtain ⟨c, hthread, -, rfl⟩ := step_look hs
    exact consistent_look hc hthread rfl rfl rfl

omit [DecidableEq T] in
theorem consistent_initial (now : ℤ) : (initial now : History T).Consistent where
  timed := ⟨rfl, fun _ _ _ h => by cases h⟩
  accounted := ⟨List.nodup_nil, fun _ => rfl, fun _ _ h => by cases h⟩
  inOrder _ := List.Pairwise.nil

/-- **The events of every run.**  After every step each event that was added is in the set of its
destination, or was returned, or was deleted, once; an event that is returned has expired and
precedes the others of its destination; and a call that blocks returns no event only when its time
is over and no event of its destination has expired first. -/
theorem conserved_run (now : ℤ) {actions : List (Action T)}
    (h : Always History.step (fun h a _ => h.Proper a ∧ h.EndsInRange a) (initial now) actions) :
    Always History.step (fun h _ h' => h'.Accounted ∧ h.Answers h') (initial now) actions := by
  refine always_of_invariant (fun h a h' hc hproper hstep => ?_) (consistent_initial now) h
  obtain ⟨hc', hanswers⟩ := Consistent.step hc hproper.1 hproper.2 hstep
  exact ⟨hc', hc'.accounted, hanswers⟩

/-- Two events of one time, of which the first one is returned and the other one deleted. -/
def twoEvents : List (Action Unit) :=
  [.addDestination [97], .addEvent ⟨(1, 1), [97], 5⟩ none, .addEvent ⟨(1, 2), [97], 5⟩ none,
    .tick 7 7, .call () true [97] true 10, .enter (), .look (), .deleteEvent ⟨(1, 2), [97], 5⟩]

theorem accounted_twoEvents :
    (run History.step (initial 0) twoEvents).map (fun h => (h.added, h.returned, h.deleted)) =
        some ([⟨(1, 1), [97], 5⟩, ⟨(1, 2), [97], 5⟩], [⟨(1, 1), [97], 5⟩], [⟨(1, 2), [97], 5⟩]) ∧
      Always History.step (fun h _ h' => h'.Accounted ∧ h.Answers h') (initial 0) twoEvents := by
  refine ⟨rfl, conserved_run 0 ?_⟩
  refine Always.cons rfl ⟨trivial, trivial⟩ (Always.cons rfl ⟨?_, trivial⟩ (Always.cons rfl
    ⟨?_, trivial⟩ (Always.cons rfl ⟨rfl, trivial⟩ (Always.cons rfl ⟨rfl, trivial⟩ (Always.cons rfl
      ⟨trivial, ?_⟩ (Always.cons rfl ⟨trivial, trivial⟩ (Always.cons rfl ⟨?_, trivial⟩ trivial)))))))
  · exact fun _ h => (by cases h)
  · intro event' h
    obtain rfl : event' = ⟨(1, 1), [97], 5⟩ := List.mem_singleton.mp h
    decide
  · rintro c at' h
    cases h
    decide
  · intro event' h
    rcases List.mem_pair.mp h with rfl | rfl
    · decide
    · exact fun _ => rfl

/-- A consumer that is to block for 2⁶³ / 10⁶ milliseconds gives up at once. -/
def endlessCall : List (Action Unit) :=
  [.addDestination [97], .call () true [97] true 9223372036855, .enter (), .wake (), .retake ()]

theorem not_answers_of_endlessCall :
    Always History.step (fun h a _ => h.Proper a) (initial 0) endlessCall ∧
      ¬Always History.step (fun h _ h' => h'.Accounted ∧ h.Answers h') (initial 0) endlessCall := by
  refine ⟨?_, fun h => ?_⟩
  · exact Always.cons rfl trivial (Always.cons rfl rfl (Always.cons rfl trivial
      (Always.cons rfl trivial (Always.cons rfl trivial trivial))))
  · have hlast := (((((h _ rfl).2 _ rfl).2 _ rfl).2 _ rfl).2 _ rfl).1.2
    have hover := hlast () ⟨true, [97], true, 9223372036855, 0⟩ .nothing rfl rfl
    exact absurd hover.waited (by decide)

end Steps

end History

end MultiEventsSet

end CatraLibraries
