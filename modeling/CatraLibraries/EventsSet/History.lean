/-
# The history of a set of events

What an observer can say who only sees the calls on a set and their answers: which
additions are pending, that is, neither returned nor deleted since.  In every run the
set holds exactly the pending additions, each destination and key as a queue.  So no
event is lost or returned twice, and the event that `getAndRemoveFirstEvent` returns is
the pending one with the least expiration and, among equals, the earliest added.

Deletions are those of `DeleteEvent` that are unambiguous: no other event of the
destination has the key.
-/
import CatraLibraries.EventsSet.DeleteEvent
import Mathlib.Data.List.Induction

namespace CatraLibraries

namespace EventsSet

/-! ### Keeping the history -/

/-- A set and what has been seen of it: the number of calls, the additions that are
pending, each with the number of its call, and the events of the successful calls. -/
structure History where
  set : EventsSet
  calls : Nat
  pending : List (Nat × Event)
  added : List Event
  returned : List Event
  deleted : List Event

namespace History

/-- The history of a set that has just been initialised. -/
def start (bConditionVariablesToBeUsed : Bool) : History :=
  ⟨initial bConditionVariablesToBeUsed, 0, [], [], [], []⟩

/-- An addition becomes pending. -/
def recordAdded (e : Event) (h : History) : History :=
  { h with pending := h.pending ++ [(h.calls, e)], added := h.added ++ [e] }

/-- The earliest pending addition of the event has been returned. -/
def recordReturned (e : Event) (h : History) : History :=
  { h with pending := h.pending.eraseP fun a => a.2 = e, returned := h.returned ++ [e] }

/-- The earliest pending addition of the event has been deleted. -/
def recordDeleted (e : Event) (h : History) : History :=
  { h with pending := h.pending.eraseP fun a => a.2 = e, deleted := h.deleted ++ [e] }

/-- What a call and its answer say. -/
def record (c : Call) (a : Answer) (h : History) : History :=
  match c, a with
  | .addEvent (some e), .done (.ok ()) => h.recordAdded e
  | .deleteEvent (some e), .done (.ok ()) => h.recordDeleted e
  | .getAndRemoveFirstEvent _ _, .got (.returned (.ok e)) => h.recordReturned e
  | _, _ => h

/-- Perform a call and record it. -/
def step (h : History) (c : Call) : History :=
  { h.record c (h.set.exec c).1 with set := (h.set.exec c).2, calls := h.calls + 1 }

/-- Perform and record a sequence of calls. -/
def run (h : History) (calls : List Call) : History := calls.foldl step h

/-- The pending additions for a destination and a key. -/
def pendingUnder (h : History) (d : String) (key : Nat) : List (Nat × Event) :=
  h.pending.filter fun a => a.2.bDestination = d ∧ a.2.ullExpirationLocalDateTimeInMilliSecs = key

/-- **The history fits the set.**  Each queue of the set is that of the pending additions,
oldest first; these are numbered in the order of their calls; and every addition is
accounted for. -/
structure Fits (h : History) : Prop where
  stored : ∀ d key, (h.set.events d).under key = (h.pendingUnder d key).map Prod.snd
  ordered : h.pending.Pairwise fun a b => a.1 < b.1
  numbered : ∀ a ∈ h.pending, a.1 < h.calls
  counted : ∀ e, h.added.count e
    = h.returned.count e + h.deleted.count e + (h.pending.map Prod.snd).count e

/-! ### What each call keeps -/

theorem start_fits (b : Bool) : Fits (start b) :=
  ⟨fun _ _ => rfl, List.Pairwise.nil, by simp [start], by simp [start]⟩

variable {h : History}

/-- A call that changes no queue keeps the fit. -/
theorem Fits.unchanged (hf : Fits h) {s : EventsSet} (hs : ∀ d, s.events d = h.set.events d) :
    Fits { h with set := s, calls := h.calls + 1 } := by
  refine ⟨?_, hf.ordered, ?_, hf.counted⟩
  · intro d key
    rw [hs d]
    exact hf.stored d key
  · intro a ha
    exact Nat.lt_succ_of_lt (hf.numbered a ha)

/-- An addition goes to the end of its queue, in the set and in the history. -/
theorem Fits.added (hf : Fits h) (e : Event) :
    Fits { h.recordAdded e with
      set := h.set.setEvents e.bDestination ((h.set.events e.bDestination).insert
        e.ullExpirationLocalDateTimeInMilliSecs e)
      calls := h.calls + 1 } := by
  refine ⟨?_, ?_, ?_, ?_⟩
  · intro d key
    show ((h.set.setEvents _ _).events d).under key
      = ((h.pending ++ [(h.calls, e)]).filter _).map Prod.snd
    rw [List.filter_append, List.map_append]
    have hold := hf.stored d key
    rw [pendingUnder] at hold
    rw [← hold, events_setEvents]
    by_cases hd : d = e.bDestination
    · rw [if_pos hd, MultiMap.under_insert, hd]
      by_cases hkey : key = e.ullExpirationLocalDateTimeInMilliSecs
      · simp [hkey]
      · simp [hkey, Ne.symm hkey]
    · simp [hd, Ne.symm hd]
  · refine List.pairwise_append.mpr ⟨hf.ordered, List.pairwise_singleton _ _, ?_⟩
    intro a ha b hb
    rw [List.mem_singleton.mp hb]
    exact hf.numbered a ha
  · intro a ha
    show a.1 < h.calls + 1
    rcases List.mem_append.mp ha with ha | ha
    · exact Nat.lt_succ_of_lt (hf.numbered a ha)
    · rw [List.mem_singleton.mp ha]
      exact Nat.lt_succ_self _
  · intro f
    have hold := hf.counted f
    show (h.added ++ [e]).count f = h.returned.count f + h.deleted.count f
      + ((h.pending ++ [(h.calls, e)]).map Prod.snd).count f
    rw [List.count_append, List.map_append, List.count_append, hold]
    exact Nat.add_assoc _ _ _

/-- The front of a queue is an event of that destination and key, and the first pending
addition there is one of it. -/
theorem Fits.front (hf : Fits h) {e : Event} {d : String} {key : Nat}
    (hfront : ((h.set.events d).under key).head? = some e) :
    e.bDestination = d ∧ e.ullExpirationLocalDateTimeInMilliSecs = key ∧
      ∃ i, (h.pendingUnder d key).head? = some (i, e) := by
  rw [hf.stored d key, List.head?_map, Option.map_eq_some_iff] at hfront
  obtain ⟨⟨i, f⟩, hhead, rfl⟩ := hfront
  have hmem := (List.mem_filter.mp (List.mem_of_mem_head? hhead)).2
  exact ⟨(of_decide_eq_true hmem).1, (of_decide_eq_true hmem).2, i, hhead⟩

/-- Taking the front of a queue takes the earliest pending addition of its event. -/
theorem Fits.stored_erase (hf : Fits h) {e : Event} {d : String} {key : Nat}
    (hfront : ((h.set.events d).under key).head? = some e) (d' : String) (key' : Nat) :
    ((h.set.setEvents d ((h.set.events d).erase key)).events d').under key'
      = ((h.pending.eraseP fun a => a.2 = e).filter fun a => a.2.bDestination = d' ∧
          a.2.ullExpirationLocalDateTimeInMilliSecs = key').map Prod.snd := by
  obtain ⟨hd, hkey, i, hhead⟩ := hf.front hfront
  have hold := hf.stored d' key'
  rw [events_setEvents]
  by_cases hqueue : d' = d ∧ key' = key
  · obtain ⟨rfl, rfl⟩ := hqueue
    rw [if_pos rfl, MultiMap.under_erase, if_pos rfl, hold, pendingUnder, ← List.map_tail,
      MultiMap.filter_eraseP_of_imp]
    · intro a ha
      rw [of_decide_eq_true ha]
      exact decide_eq_true ⟨hd, hkey⟩
    · intro a ha
      rw [pendingUnder, List.head?_filter] at hhead
      rw [Option.some.inj (ha.symm.trans hhead)]
      exact decide_eq_true rfl
  · rw [MultiMap.filter_eraseP_of_disjoint]
    · rw [pendingUnder] at hold
      rw [← hold]
      split_ifs with hd'
      · rw [MultiMap.under_erase, if_neg (fun hk => hqueue ⟨hd', hk⟩), hd']
      · rfl
    · intro a ha
      rw [of_decide_eq_true ha, hd, hkey]
      exact decide_eq_false fun hq => hqueue ⟨hq.1.symm, hq.2.symm⟩

/-- Erasing one pending addition of an event lowers the count of that event by one. -/
theorem count_eraseP {e : Event} {l : List (Nat × Event)} (hmem : e ∈ l.map Prod.snd)
    (f : Event) :
    ((l.eraseP fun a => a.2 = e).map Prod.snd).count f + [e].count f
      = (l.map Prod.snd).count f := by
  have hmap : (l.eraseP fun a => a.2 = e).map Prod.snd = (l.map Prod.snd).erase e := by
    rw [List.erase_eq_eraseP', List.eraseP_map]
    rfl
  have hperm := (List.perm_cons_erase hmem).count_eq f
  have hcons : ([e] ++ (l.map Prod.snd).erase e).count f
      = [e].count f + ((l.map Prod.snd).erase e).count f := List.count_append
  rw [hmap, hperm, Nat.add_comm, ← hcons]
  rfl

/-- What is kept when the front of a queue is taken, apart from the counts. -/
theorem Fits.taken (hf : Fits h) {e : Event} {d : String} {key : Nat}
    (hfront : ((h.set.events d).under key).head? = some e) {h' : History}
    (hset : h'.set = h.set.setEvents d ((h.set.events d).erase key))
    (hpending : h'.pending = h.pending.eraseP fun a => a.2 = e)
    (hcalls : h'.calls = h.calls + 1) (hadded : h'.added = h.added)
    (htaken : ∀ f, h'.returned.count f + h'.deleted.count f
      = h.returned.count f + h.deleted.count f + [e].count f) : Fits h' := by
  have hmem : e ∈ h.pending.map Prod.snd := by
    obtain ⟨-, -, i, hhead⟩ := hf.front hfront
    exact List.mem_map.mpr ⟨(i, e), (List.mem_filter.mp (List.mem_of_mem_head? hhead)).1, rfl⟩
  have hsub : (h.pending.eraseP fun a => a.2 = e).Sublist h.pending := List.eraseP_sublist
  refine ⟨?_, ?_, ?_, ?_⟩
  · intro d' key'
    rw [hset, pendingUnder, hpending]
    exact hf.stored_erase hfront d' key'
  · rw [hpending]
    exact hf.ordered.sublist hsub
  · intro a ha
    rw [hpending] at ha
    rw [hcalls]
    exact Nat.lt_succ_of_lt (hf.numbered a (hsub.subset ha))
  · intro f
    have hold := hf.counted f
    have herase := count_eraseP hmem f
    rw [hadded, hpending, htaken, hold]
    omega

/-- A deletion is unambiguous: what is stored under the key of the event is the event. -/
def Unambiguous (s : EventsSet) : Call → Prop
  | .deleteEvent (some e) =>
    ∀ f ∈ (s.events e.bDestination).under e.ullExpirationLocalDateTimeInMilliSecs, f = e
  | _ => True

/-- **Every call keeps the fit.** -/
theorem Fits.step (hf : Fits h) {c : Call} (hc : Unambiguous h.set c) : Fits (h.step c) := by
  cases c with
  | addEvent pevEvent =>
    obtain ⟨err, heq⟩ | ⟨e, b, rfl, hevent, heq⟩ := addEvent_cases pevEvent h.set
    · have hstep : h.step (.addEvent pevEvent) = { h with calls := h.calls + 1 } := by
        cases pevEvent <;> simp [History.step, exec, heq, record, Except.map]
      rw [hstep]
      exact hf.unchanged fun _ => rfl
    · have hstep := hf.added e
      simpa only [History.step, exec, heq, record, Except.map, Prod.map, id] using hstep
  | addDestination pDestination =>
    exact hf.unchanged (addDestination_events pDestination h.set)
  | deleteEvent pevEvent =>
    obtain ⟨err, heq⟩ | ⟨e, x, rfl, hfind, heq⟩ := deleteEvent_cases pevEvent h.set
    · have hstep : h.step (.deleteEvent pevEvent) = { h with calls := h.calls + 1 } := by
        cases pevEvent <;> simp [History.step, exec, heq, record]
      rw [hstep]
      exact hf.unchanged fun _ => rfl
    · have hstep : h.step (.deleteEvent (some e)) = { h.recordDeleted e with
          set := h.set.setEvents e.bDestination ((h.set.events e.bDestination).erase
            e.ullExpirationLocalDateTimeInMilliSecs)
          calls := h.calls + 1 } := by
        simp [History.step, exec, heq, record]
      -- what the deletion finds is the event it was given
      have hfront : ((h.set.events e.bDestination).under
          e.ullExpirationLocalDateTimeInMilliSecs).head? = some e := by
        rw [MultiMap.find?_eq, Option.map_eq_some_iff] at hfind
        obtain ⟨f, hhead, -⟩ := hfind
        rw [hhead, hc f (List.mem_of_mem_head? hhead)]
      rw [hstep]
      refine hf.taken hfront rfl rfl rfl rfl ?_
      intro f
      show h.returned.count f + (h.deleted ++ [e]).count f = _
      rw [List.count_append]
      exact (Nat.add_assoc _ _ _).symm
  | getAndRemoveFirstEvent g now =>
    obtain ⟨err, heq, -⟩ | ⟨g', wait, hg', hblocking, -⟩ | ⟨g', key, e, -, hbegin, -, heq⟩ :=
      getAndRemoveFirstEvent_cases (g.map fun g => { g with bBlocking := false }) now h.set
    · have hstep : h.step (.getAndRemoveFirstEvent g now) = { h with calls := h.calls + 1 } := by
        simp [History.step, exec, heq, record]
      rw [hstep]
      exact hf.unchanged fun _ => rfl
    · obtain ⟨g'', -, rfl⟩ := Option.map_eq_some_iff.mp hg'
      exact absurd hblocking (by simp)
    · have hstep : h.step (.getAndRemoveFirstEvent g now) = { h.recordReturned e with
          set := h.set.setEvents g'.pbDestination ((h.set.events g'.pbDestination).erase key)
          calls := h.calls + 1 } := by
        simp [History.step, exec, heq, record]
      rw [hstep]
      refine hf.taken (MultiMap.begin?_eq_some hbegin).1 rfl rfl rfl rfl ?_
      intro f
      show (h.returned ++ [e]).count f + h.deleted.count f = _
      rw [List.count_append]
      exact Nat.add_right_comm _ _ _

/-! ### Runs -/

/-- Every deletion of the run is unambiguous where it is made. -/
def RunUnambiguous (h : History) : List Call → Prop
  | [] => True
  | c :: calls => Unambiguous h.set c ∧ RunUnambiguous (h.step c) calls

theorem Fits.run (hf : Fits h) (calls : List Call) (hcalls : RunUnambiguous h calls) :
    Fits (h.run calls) := by
  induction calls generalizing h with
  | nil => exact hf
  | cons c calls ih => exact ih (hf.step hcalls.1) hcalls.2

@[simp] theorem step_calls (h : History) (c : Call) : (h.step c).calls = h.calls + 1 := rfl

theorem run_calls (h : History) (calls : List Call) :
    (h.run calls).calls = h.calls + calls.length := by
  induction calls generalizing h with
  | nil => rfl
  | cons c calls ih =>
    show ((h.step c).run calls).calls = _
    rw [ih, step_calls, List.length_cons]
    omega

/-- An addition that is pending after a call was pending before, or the call made it. -/
theorem mem_pending_step {c : Call} {a : Nat × Event} (ha : a ∈ (h.step c).pending) :
    a ∈ h.pending ∨ a.1 = h.calls ∧ c = .addEvent (some a.2) := by
  change a ∈ (h.record c (h.set.exec c).1).pending at ha
  unfold record at ha
  split at ha
  · rcases List.mem_append.mp ha with hold | hnew
    · exact Or.inl hold
    · rw [List.mem_singleton.mp hnew]
      exact Or.inr ⟨rfl, rfl⟩
  · exact Or.inl (List.mem_of_mem_eraseP ha)
  · exact Or.inl (List.mem_of_mem_eraseP ha)
  · exact Or.inl ha

/-- Every pending addition carries the number of the call that made it. -/
theorem pending_numbers (b : Bool) (calls : List Call) :
    ∀ a ∈ ((start b).run calls).pending, calls[a.1]? = some (.addEvent (some a.2)) := by
  induction calls using List.reverseRecOn with
  | nil => exact fun a ha => absurd ha List.not_mem_nil
  | append_singleton calls c ih =>
    intro a ha
    rw [run, List.foldl_append] at ha
    rcases mem_pending_step ha with hold | ⟨hnumber, hc⟩
    · have hcall := ih a hold
      rw [List.getElem?_append_left (List.getElem?_eq_some_iff.mp hcall).1, hcall]
    · have hlen : a.1 = calls.length := by
        rw [hnumber]
        exact (run_calls (start b) calls).trans (Nat.zero_add _)
      rw [hlen, List.getElem?_concat_length, hc]

/-- The addition `a` comes before all pending ones for its destination: it expires first,
or it was made first among those that expire with it. -/
def First (h : History) (a : Nat × Event) : Prop :=
  ∀ b ∈ h.pending, b.2.bDestination = a.2.bDestination →
    a.2.ullExpirationLocalDateTimeInMilliSecs < b.2.ullExpirationLocalDateTimeInMilliSecs ∨
    a.2.ullExpirationLocalDateTimeInMilliSecs = b.2.ullExpirationLocalDateTimeInMilliSecs ∧
      a.1 ≤ b.1

/-- What a non-blocking `getAndRemoveFirstEvent` owes: it returns the first pending
addition of the destination, which has expired; a failure changes nothing. -/
def Serves (h : History) (g : Option Get) (now : Nat) : Prop :=
  ∃ r, (h.set.exec (.getAndRemoveFirstEvent g now)).1 = .got (.returned r) ∧
    (∀ e, r = .ok e → ∃ g' i, g = some g' ∧ (i, e) ∈ h.pending ∧
      e.bDestination = g'.pbDestination ∧ e.ullExpirationLocalDateTimeInMilliSecs ≤ now ∧
      First h (i, e)) ∧
    (∀ err, r = .error err →
      (h.set.exec (.getAndRemoveFirstEvent g now)).2 = h.set ∧
      (err = .noEventsFound → ∃ g', g = some g' ∧
        ∀ a ∈ h.pending, a.2.bDestination ≠ g'.pbDestination) ∧
      (err = .eventNotExpiredYet → ∃ g', g = some g' ∧
        (∃ a ∈ h.pending, a.2.bDestination = g'.pbDestination) ∧
        ∀ a ∈ h.pending, a.2.bDestination = g'.pbDestination →
          now < a.2.ullExpirationLocalDateTimeInMilliSecs))

/-- A pending addition is stored under its destination and its key. -/
theorem Fits.mem_under (hf : Fits h) {a : Nat × Event} (ha : a ∈ h.pending) :
    a.2 ∈ (h.set.events a.2.bDestination).under a.2.ullExpirationLocalDateTimeInMilliSecs := by
  rw [hf.stored]
  exact List.mem_map.mpr ⟨a, List.mem_filter.mpr ⟨ha, decide_eq_true ⟨rfl, rfl⟩⟩, rfl⟩

/-- The first entry of a destination is the first pending addition for it. -/
theorem Fits.begin_first (hf : Fits h) {d : String} {key : Nat} {e : Event}
    (hbegin : (h.set.events d).begin? = some (key, e)) :
    e.bDestination = d ∧ e.ullExpirationLocalDateTimeInMilliSecs = key ∧
      ∃ i, (i, e) ∈ h.pending ∧ First h (i, e) := by
  obtain ⟨hfront, hleast⟩ := MultiMap.begin?_eq_some hbegin
  obtain ⟨hd, hkey, i, hhead⟩ := hf.front hfront
  refine ⟨hd, hkey, i, (List.mem_filter.mp (List.mem_of_mem_head? hhead)).1, ?_⟩
  intro b hb hdest
  have hle := hleast _ _ (hd ▸ hdest ▸ hf.mem_under hb)
  rcases Nat.lt_or_eq_of_le hle with hlt | heq
  · exact Or.inl (hkey ▸ hlt)
  · refine Or.inr ⟨hkey.trans heq, ?_⟩
    -- in its queue the front has the least number
    have hqueue : b ∈ h.pendingUnder d key :=
      List.mem_filter.mpr ⟨hb, decide_eq_true ⟨hdest.trans hd, heq.symm⟩⟩
    have hordered : (h.pendingUnder d key).Pairwise fun a b => a.1 < b.1 :=
      hf.ordered.sublist List.filter_sublist
    obtain ⟨rest, hcons⟩ := List.head?_eq_some_iff.mp hhead
    rw [hcons] at hqueue hordered
    rcases List.mem_cons.mp hqueue with rfl | hrest
    · exact le_rfl
    · exact ((List.pairwise_cons.mp hordered).1 b hrest).le

theorem Fits.serves (hf : Fits h) (g : Option Get) (now : Nat) : Serves h g now := by
  obtain ⟨err, heq, hnone, hyet⟩ | ⟨g', wait, hg', hblocking, -⟩ |
      ⟨g', key, e, hg', hbegin, hnow, heq⟩ :=
    getAndRemoveFirstEvent_cases (g.map fun g => { g with bBlocking := false }) now h.set
  · refine ⟨.error err, by simp [exec, heq], by simp, ?_⟩
    intro err' herr
    obtain rfl := Except.error.inj herr
    refine ⟨by simp [exec, heq], ?_, ?_⟩
    · intro hno
      obtain ⟨g', hg', hempty⟩ := hnone hno
      obtain ⟨g, rfl, rfl⟩ := Option.map_eq_some_iff.mp hg'
      refine ⟨g, rfl, ?_⟩
      intro a ha hdest
      have hmem := hf.mem_under ha
      rw [hdest, MultiMap.begin?_eq_none.mp hempty] at hmem
      exact absurd hmem List.not_mem_nil
    · intro hearly
      obtain ⟨g', key, e, hg', hbegin, hlt⟩ := hyet hearly
      obtain ⟨g, rfl, rfl⟩ := Option.map_eq_some_iff.mp hg'
      obtain ⟨hd, hkey, i, hmem, hfirst⟩ := hf.begin_first hbegin
      refine ⟨g, rfl, ⟨(i, e), hmem, hd⟩, ?_⟩
      intro a ha hdest
      rcases hfirst a ha (hdest.trans hd.symm) with hless | ⟨hsame, -⟩
      · exact hlt.trans hless
      · exact hlt.trans_eq hsame
  · obtain ⟨g, -, rfl⟩ := Option.map_eq_some_iff.mp hg'
    exact absurd hblocking (by simp)
  · refine ⟨.ok e, by simp [exec, heq], ?_, by simp⟩
    intro e' he
    obtain rfl := Except.ok.inj he
    obtain ⟨g, rfl, rfl⟩ := Option.map_eq_some_iff.mp hg'
    obtain ⟨hd, -, i, hmem, hfirst⟩ := hf.begin_first hbegin
    exact ⟨g, i, rfl, hmem, hd, hnow, hfirst⟩

/-- **Every run keeps a faithful queue.**  After any sequence of calls whose deletions are
unambiguous, the set holds exactly the pending additions, each made by an earlier call;
every addition was returned once, deleted once or is still there; and the next
`getAndRemoveFirstEvent` returns the first of them or changes nothing. -/
theorem events_run (bConditionVariablesToBeUsed : Bool) (calls : List Call)
    (hcalls : RunUnambiguous (start bConditionVariablesToBeUsed) calls) :
    Fits ((start bConditionVariablesToBeUsed).run calls) ∧
      (∀ a ∈ ((start bConditionVariablesToBeUsed).run calls).pending,
        calls[a.1]? = some (.addEvent (some a.2))) ∧
      ∀ g now, Serves ((start bConditionVariablesToBeUsed).run calls) g now := by
  have hf := (start_fits bConditionVariablesToBeUsed).run calls hcalls
  exact ⟨hf, pending_numbers bConditionVariablesToBeUsed calls, fun g now => hf.serves g now⟩

/-- Two events with one key, a third that is deleted, and one taken at its time. -/
def fourCalls : List Call :=
  [.addEvent (some firstEvent), .addEvent (some secondEvent),
    .addEvent (some ⟨3, .eventInitialized, "d", 4⟩),
    .deleteEvent (some ⟨3, .eventInitialized, "d", 4⟩),
    .getAndRemoveFirstEvent (some ⟨"d", false, 0, 0, 0⟩) 5]

theorem events_run_fourCalls :
    ((start true).run fourCalls).pending = [(1, secondEvent)] ∧
      Fits ((start true).run fourCalls) := by
  refine ⟨by decide +kernel, (events_run true fourCalls ⟨trivial, trivial, trivial, ?_, trivial,
    trivial⟩).1⟩
  intro f hf
  exact List.mem_singleton.mp hf

end History

end EventsSet

end CatraLibraries
