/-
# Deleting an event

The unique identifier of an event is its pointer, but `deleteEvent` looks for the key
and erases the first event it finds under it.  So it removes the event it was given
exactly when that event is the oldest one stored under its key.
-/
import CatraLibraries.EventsSet.EventsSet
import Mathlib.Data.Multiset.AddSub

namespace CatraLibraries

namespace EventsSet

/-- A call on the set.  The calls of `getAndRemoveFirstEvent` are the non-blocking ones,
which return without giving the mutex up. -/
inductive Call
  | addEvent (pevEvent : Option Event)
  | addDestination (pDestination : Option String)
  | deleteEvent (pevEvent : Option Event)
  | getAndRemoveFirstEvent (g : Option Get) (ullNowLocalInMilliSecs : Nat)

/-- What a call hands back. -/
inductive Answer
  | done (result : Except EvsetError Unit)
  | got (progress : Progress)
  deriving DecidableEq

/-- Perform one call. -/
def exec (s : EventsSet) : Call → Answer × EventsSet
  | .addEvent e => ((s.addEvent e).map (fun r => .done (r.map fun _ => ())) id)
  | .addDestination d => ((s.addDestination d).map .done id)
  | .deleteEvent e => ((s.deleteEvent e).map .done id)
  | .getAndRemoveFirstEvent g now =>
    ((s.getAndRemoveFirstEvent (g.map fun g => { g with bBlocking := false }) now).map .got id)

/-- The set after a sequence of calls. -/
def after (s : EventsSet) (calls : List Call) : EventsSet :=
  calls.foldl (fun s c => (s.exec c).2) s

/-- The set that `init` leaves. -/
def initial (bConditionVariablesToBeUsed : Bool) : EventsSet :=
  (built.init bConditionVariablesToBeUsed 1).2

/-! ### One deletion -/

/-- From `s` to `s'` one entry of the event disappears and nothing else changes. -/
def RemovesExactly (e : Event) (s s' : EventsSet) : Prop :=
  (∃ pre key post, (s.events e.bDestination).entries = pre ++ (key, e) :: post ∧
    (s'.events e.bDestination).entries = pre ++ post) ∧
  ∀ d, d ≠ e.bDestination → s'.events d = s.events d

/-- The event is the oldest one stored under its key in its destination. -/
def OldestOfKey (e : Event) (s : EventsSet) : Prop :=
  ((s.events e.bDestination).under e.ullExpirationLocalDateTimeInMilliSecs).head? = some e

instance (e : Event) (s : EventsSet) : Decidable (OldestOfKey e s) :=
  inferInstanceAs (Decidable (_ = _))

/-- **One deletion.**  A successful `deleteEvent` removes exactly its event if and only
if that is the oldest one under its key. -/
theorem removesExactly_iff {e : Event} {s : EventsSet}
    (h : (s.deleteEvent (some e)).1 = .ok ()) :
    RemovesExactly e s (s.deleteEvent (some e)).2 ↔ OldestOfKey e s := by
  obtain ⟨err, herr⟩ | ⟨e', x, he', hfind, hdelete⟩ := deleteEvent_cases (some e) s
  · rw [herr] at h
    exact absurd h (by simp)
  obtain rfl := Option.some.inj he'
  have hset := congrArg Prod.snd hdelete
  obtain ⟨pre, post, hsplit, herase, hkey⟩ := MultiMap.find?_split hfind
  have holdest : OldestOfKey e s ↔ x = (e.ullExpirationLocalDateTimeInMilliSecs, e) := by
    rw [MultiMap.find?_eq] at hfind
    rw [OldestOfKey]
    cases hhead : ((s.events e.bDestination).under
        e.ullExpirationLocalDateTimeInMilliSecs).head? with
    | none => simp [hhead] at hfind
    | some f =>
      rw [hhead, Option.map_some, Option.some.injEq] at hfind
      rw [← hfind, Option.some.injEq, Prod.mk.injEq]
      exact (and_iff_right rfl).symm
  have hentries : ((s.deleteEvent (some e)).2.events e.bDestination).entries = pre ++ post := by
    rw [hset, events_setEvents, if_pos rfl, herase]
  rw [holdest]
  constructor
  · rintro ⟨⟨pre', key, post', hbefore, hafter⟩, -⟩
    -- what is missing afterwards is one entry, whichever way it is cut out
    have hperm : (x :: (pre ++ post)).Perm ((key, e) :: (pre ++ post)) := by
      calc x :: (pre ++ post)
        _ |>.Perm (pre ++ x :: post) := List.perm_middle.symm
        _ = pre' ++ (key, e) :: post' := by rw [← hsplit, hbefore]
        _ |>.Perm ((key, e) :: (pre' ++ post')) := List.perm_middle
        _ = (key, e) :: (pre ++ post) := by rw [← hafter, hentries]
    have hx : x = (key, e) :=
      (Multiset.cons_inj_left (Multiset.ofList (pre ++ post))).mp (Quotient.sound hperm)
    rw [hx] at hkey ⊢
    rw [← hkey]
  · rintro rfl
    refine ⟨⟨pre, _, post, hsplit, hentries⟩, ?_⟩
    intro d hd
    rw [hset, events_setEvents, if_neg hd]

/-! ### Sequences of calls -/

/-- In the run of `calls` from `s`, every successful deletion satisfies `P`, a property of
the event and of the sets before and after. -/
def Deletions (P : Event → EventsSet → EventsSet → Prop) (s : EventsSet) (calls : List Call) :
    Prop :=
  ∀ before e rest, calls = before ++ .deleteEvent (some e) :: rest →
    ((s.after before).deleteEvent (some e)).1 = .ok () →
    P e (s.after before) ((s.after before).deleteEvent (some e)).2

/-- **Deletion in every run.**  In a run of calls from `init` on, every successful
`deleteEvent` removes exactly the event it was given if and only if each of them is given
the oldest event under its key. -/
theorem deleteEvent_exact_iff (bConditionVariablesToBeUsed : Bool) (calls : List Call) :
    Deletions RemovesExactly (initial bConditionVariablesToBeUsed) calls ↔
      Deletions (fun e s _ => OldestOfKey e s) (initial bConditionVariablesToBeUsed) calls := by
  constructor
  · intro h before e rest hcalls hok
    exact (removesExactly_iff hok).mp (h before e rest hcalls hok)
  · intro h before e rest hcalls hok
    exact (removesExactly_iff hok).mpr (h before e rest hcalls hok)

/-- Two events for one destination that expire in the same millisecond. -/
def firstEvent : Event := ⟨1, .eventInitialized, "d", 5⟩

/-- See `firstEvent`. -/
def secondEvent : Event := ⟨2, .eventInitialized, "d", 5⟩

/-- **The wrong event.**  Deleting the second of two events with one key removes the
first. -/
theorem deleteEvent_removes_other :
    ¬ ∀ calls, Deletions RemovesExactly (initial true) calls := by
  intro h
  have hexact := h [.addEvent (some firstEvent), .addEvent (some secondEvent),
    .deleteEvent (some secondEvent)] [.addEvent (some firstEvent), .addEvent (some secondEvent)]
    secondEvent [] rfl rfl
  obtain ⟨⟨pre, key, post, hbefore, hafter⟩, -⟩ := hexact
  have hbefore' : [(5, firstEvent), (5, secondEvent)] = pre ++ (key, secondEvent) :: post := hbefore
  have hafter' : [(5, secondEvent)] = pre ++ post := hafter
  have hmem : (5, firstEvent) ∈ pre ++ (key, secondEvent) :: post := by
    rw [← hbefore']
    exact List.mem_cons_self
  have hleft : (5, firstEvent) ∈ pre ++ post := by
    rcases List.mem_append.mp hmem with hpre | hpost
    · exact List.mem_append_left _ hpre
    · rcases List.mem_cons.mp hpost with heq | hpost
      · exact absurd heq (by simp [firstEvent, secondEvent])
      · exact List.mem_append_right _ hpost
  rw [← hafter'] at hleft
  exact absurd hleft (by decide)

end EventsSet

end CatraLibraries
