/-
# The factory of events

An `EventsFactory` (`MultiEventsSet/src/EventsFactory.h`) makes the events of a type in blocks, up to a
maximum number, hands them out one by one and takes them back.  Whatever is called, the events of a
type bear the keys `(type, 0)`, `(type, 1)` and so on, and each of them is either in the deque of the
free events or in the map of the used ones.

The test of the maximum refuses a block that would just reach it, which is the failure of the next call
that `Meets` rules out first.  The other two are a negative maximum, which no number of events is below,
and a block that the counters, a `long` and an `int`, cannot count.  `run_right_iff` says that a run does
what the factory is for if and only if none of its calls is of these kinds.
-/
import CatraLibraries.Lib.HashMaps
import CatraLibraries.Lib.Transition
import Mathlib.Algebra.Order.Ring.Int
import Mathlib.Data.List.Perm.Basic
import Mathlib.Logic.Function.Basic

namespace CatraLibraries

open HashMaps Transition

namespace EventsFactory

/-! ### The code -/

/-- An event object: where it is, and its key. -/
structure Event where
  address : ℕ
  eventKey : ℤ × ℤ
  deriving DecidableEq, Repr

/-- `EventTypeInfo`. -/
structure EventTypeInfo where
  eventTypeIdentifier : ℤ
  blockEventsNumber : ℤ
  maxEventsNumberToBeAllocated : ℤ
  currentEventsNumber : ℤ
  freeEvents : List Event
  usedEvents : HashMap (ℤ × ℤ) Event

/-- What the methods throw, with the numbers in their texts. -/
inductive EventsFactoryError
  | eventTypeAlreadyPresent (eventTypeIdentifier : ℤ)
  | errorAddingEventType (eventTypeIdentifier : ℤ)
  | noMoreEvents (currentEventsNumber blockEventsNumber maxEventsNumberToBeAllocated : ℤ)
  | eventTypeNotFound (eventTypeIdentifier : ℤ)
  | eventNotFound (first second : ℤ)
  deriving DecidableEq, Repr

end EventsFactory

/-- An `EventsFactory`: the event types, and all the events that it has made. -/
structure EventsFactory where
  ethmEvents : ℤ → Option EventsFactory.EventTypeInfo
  heap : List EventsFactory.Event

namespace EventsFactory

/-- How a call ends, and the factory after it. -/
abbrev Outcome (α : Type) := Except EventsFactoryError α × EventsFactory

def defaultBlockEventsNumber : ℤ := 50

def defaultMaxEventsNumberToBeAllocated : ℤ := 10000

/-- A new factory. -/
def empty : EventsFactory := ⟨fun _ => none, []⟩

def setType (s : EventsFactory) (eventTypeIdentifier : ℤ) (info : EventTypeInfo) : EventsFactory :=
  { s with ethmEvents := Function.update s.ethmEvents eventTypeIdentifier (some info) }

/-- An event type without events. -/
def newType (eventTypeIdentifier blockEventsNumber maxEventsNumberToBeAllocated : ℤ) :
    EventTypeInfo :=
  ⟨eventTypeIdentifier, blockEventsNumber, maxEventsNumberToBeAllocated, 0, [], ∅⟩

/-- `addEventType (eventTypeIdentifier, blockEventsNumber, maxEventsNumberToBeAllocated)`. -/
def addEventType (s : EventsFactory)
    (eventTypeIdentifier blockEventsNumber maxEventsNumberToBeAllocated : ℤ) : Outcome Unit :=
  if (s.ethmEvents eventTypeIdentifier).isSome then
    (.error (.eventTypeAlreadyPresent eventTypeIdentifier), s)
  else
    (.ok (), s.setType eventTypeIdentifier
      (newType eventTypeIdentifier blockEventsNumber maxEventsNumberToBeAllocated))

/-- One turn of the loop that makes a block. -/
def makeEvent (p : EventTypeInfo × List Event) : EventTypeInfo × List Event :=
  let event : Event := ⟨p.2.length, (p.1.eventTypeIdentifier, p.1.currentEventsNumber)⟩
  ({ p.1 with
    freeEvents := p.1.freeEvents ++ [event]
    currentEventsNumber := p.1.currentEventsNumber + 1 }, p.2 ++ [event])

/-- The loop; there is no outcome where its `int` index overflows. -/
def makeBlock (info : EventTypeInfo) (heap : List Event) : Option (EventTypeInfo × List Event) :=
  if 2 ^ 31 ≤ info.blockEventsNumber then none
  else some (makeEvent^[info.blockEventsNumber.toNat] (info, heap))

/-- The end of `getFreeEvent`; the front of an empty deque is undefined. -/
def takeFront (s : EventsFactory) (eventTypeIdentifier : ℤ) (info : EventTypeInfo) :
    Option (Outcome Event) :=
  match info.freeEvents with
  | [] => none
  | event :: freeEvents =>
    some (.ok event, s.setType eventTypeIdentifier { info with
      freeEvents := freeEvents
      usedEvents := (insertWithoutDuplication event.eventKey event info.usedEvents).2 })

/-- `getFreeEvent (eventTypeIdentifier)` behind the search of the type; there is no outcome where the
sum is no `long`. -/
def getEventOf (s : EventsFactory) (eventTypeIdentifier : ℤ) (info : EventTypeInfo) :
    Option (Outcome Event) :=
  if info.freeEvents.length = 0 then
    if 2 ^ 63 ≤ info.currentEventsNumber + info.blockEventsNumber then none
    else if info.currentEventsNumber + info.blockEventsNumber ≥ info.maxEventsNumberToBeAllocated then
      some (.error (.noMoreEvents info.currentEventsNumber info.blockEventsNumber
        info.maxEventsNumberToBeAllocated), s)
    else
      match makeBlock info s.heap with
      | none => none
      | some (info, heap) => takeFront { s with heap := heap } eventTypeIdentifier info
  else takeFront s eventTypeIdentifier info

/-- `getFreeEvent (eventTypeIdentifier)`. -/
def getFreeEvent (s : EventsFactory) (eventTypeIdentifier : ℤ) : Option (Outcome Event) :=
  let s := if (s.ethmEvents eventTypeIdentifier).isNone then
      (s.addEventType eventTypeIdentifier defaultBlockEventsNumber
        defaultMaxEventsNumberToBeAllocated).2
    else s
  match s.ethmEvents eventTypeIdentifier with
  | none => some (.error (.errorAddingEventType eventTypeIdentifier), s)
  | some info => s.getEventOf eventTypeIdentifier info

/-- `releaseEvent (event)`. -/
def releaseEvent (s : EventsFactory) (event : Event) : Outcome Unit :=
  match s.ethmEvents event.eventKey.1 with
  | none => (.error (.eventTypeNotFound event.eventKey.1), s)
  | some info =>
    match info.usedEvents.lookup event.eventKey with
    | none => (.error (.eventNotFound event.eventKey.1 event.eventKey.2), s)
    | some _ =>
      (.ok (), s.setType event.eventKey.1 { info with
        freeEvents := info.freeEvents ++ [event]
        usedEvents := info.usedEvents.erase event.eventKey })

/-! ### Runs -/

/-- A call. -/
inductive Call
  | addEventType (eventTypeIdentifier blockEventsNumber maxEventsNumberToBeAllocated : ℤ)
  | getFreeEvent (eventTypeIdentifier : ℤ)
  | releaseEvent (event : Event)

/-- How a call ended. -/
inductive Answer
  | done
  | event (event : Event)
  | threw (err : EventsFactoryError)
  | undefined
  deriving DecidableEq

/-- The factory, the events in the hands of its callers, and how the last call ended. -/
structure History where
  factory : EventsFactory
  held : List Event
  answer : Answer

def initial : History := ⟨empty, [], .done⟩

/-- A call; nothing follows one that is undefined. -/
def step (h : History) (c : Call) : Option History :=
  if h.answer = .undefined then none
  else some (match c with
    | .addEventType id block max =>
      match h.factory.addEventType id block max with
      | (.ok (), s) => ⟨s, h.held, .done⟩
      | (.error err, s) => ⟨s, h.held, .threw err⟩
    | .getFreeEvent id =>
      match h.factory.getFreeEvent id with
      | none => { h with answer := .undefined }
      | some (.ok event, s) => ⟨s, event :: h.held, .event event⟩
      | some (.error err, s) => ⟨s, h.held, .threw err⟩
    | .releaseEvent event =>
      match h.factory.releaseEvent event with
      | (.ok (), s) => ⟨s, h.held.erase event, .done⟩
      | (.error err, s) => ⟨s, h.held, .threw err⟩)

/-- **What callers do**: blocks are of one event at least, and an event is released by whoever holds
it. -/
def Proper (h : History) : Call → Prop
  | .addEventType _ blockEventsNumber _ => 1 ≤ blockEventsNumber
  | .getFreeEvent _ => True
  | .releaseEvent event => event ∈ h.held

instance (h : History) (c : Call) : Decidable (Proper h c) := by
  cases c <;> unfold Proper <;> infer_instance

/-! ### What the factory is for -/

/-- The events of a type that have been made, in their order. -/
def eventsOf (s : EventsFactory) (id : ℤ) : List Event := s.heap.filter (·.eventKey.1 = id)

/-- **The events of a type are accounted for.** -/
structure Accounted (s : EventsFactory) (id : ℤ) (info : EventTypeInfo) : Prop where
  keys : (s.eventsOf id).map (·.eventKey)
    = (List.range (s.eventsOf id).length).map fun i : ℕ => (id, (i : ℤ))
  partition : (info.freeEvents ++ values info.usedEvents).Perm (s.eventsOf id)
  bound : ((s.eventsOf id).length : ℤ) ≤ info.maxEventsNumberToBeAllocated

/-- **A call does what the factory is for.** -/
structure Right (h : History) (c : Call) (h' : History) : Prop where
  accounted : ∀ id info, h'.factory.ethmEvents id = some info → h'.factory.Accounted id info
  defined : h'.answer ≠ .undefined
  refuses : ∀ id err, c = .getFreeEvent id → h'.answer = .threw err →
    ∃ info, h.factory.ethmEvents id = some info ∧ info.freeEvents = [] ∧
      info.maxEventsNumberToBeAllocated < info.currentEventsNumber + info.blockEventsNumber
  unchanged : ∀ err, h'.answer = .threw err → h'.factory = h.factory

/-- A further block does not just reach the maximum, and can be counted. -/
structure BlockFits (info : EventTypeInfo) : Prop where
  not_just : info.currentEventsNumber + info.blockEventsNumber ≠ info.maxEventsNumberToBeAllocated
  long : info.currentEventsNumber + info.blockEventsNumber < 2 ^ 63
  int : info.currentEventsNumber + info.blockEventsNumber < info.maxEventsNumberToBeAllocated →
    info.blockEventsNumber < 2 ^ 31

/-- **The condition of a call.** -/
def Meets (h : History) : Call → Prop
  | .addEventType id _ max => h.factory.ethmEvents id = none → 0 ≤ max
  | .getFreeEvent id => ∀ info, h.factory.ethmEvents id = some info → info.freeEvents = [] →
      BlockFits info
  | .releaseEvent _ => True

/-! ### The invariant -/

/-- What holds of a type beyond the accounts. -/
structure Kept (s : EventsFactory) (id : ℤ) (info : EventTypeInfo) : Prop
    extends s.Accounted id info where
  identifier : info.eventTypeIdentifier = id
  current : info.currentEventsNumber = (s.eventsOf id).length
  block_pos : 1 ≤ info.blockEventsNumber
  used_key : ∀ key event, info.usedEvents.lookup key = some event → event.eventKey = key

/-- **The invariant**: the types are kept, an event that is held is used, and there is none of an
unknown type. -/
structure Consistent (h : History) : Prop where
  kept : ∀ id info, h.factory.ethmEvents id = some info → h.factory.Kept id info
  unknown : ∀ id, h.factory.ethmEvents id = none → h.factory.eventsOf id = []
  held : ∀ event ∈ h.held, ∃ info, h.factory.ethmEvents event.eventKey.1 = some info ∧
    info.usedEvents.lookup event.eventKey = some event
  held_nodup : h.held.Nodup

/-! ### Types and blocks -/

section

variable {s : EventsFactory} {h h' : History} {id : ℤ} {info : EventTypeInfo} {event : Event}

theorem ethmEvents_setType (s : EventsFactory) (id : ℤ) (info : EventTypeInfo) (id' : ℤ) :
    (s.setType id info).ethmEvents id' = if id' = id then some info else s.ethmEvents id' := by
  show Function.update s.ethmEvents id (some info) id' = _
  rw [Function.update_apply]

/-- What holds of a type depends on the events alone, not on the other types. -/
theorem Kept.of_heap {s' : EventsFactory} (hk : s.Kept id info) (heap : s'.eventsOf id = s.eventsOf id) :
    s'.Kept id info where
  keys := by rw [heap]; exact hk.keys
  partition := by rw [heap]; exact hk.partition
  bound := by rw [heap]; exact hk.bound
  identifier := hk.identifier
  current := by rw [heap]; exact hk.current
  block_pos := hk.block_pos
  used_key := hk.used_key

/-- The events that `n` turns of the loop make. -/
def newEvents (info : EventTypeInfo) (heap : List Event) (n : ℕ) : List Event :=
  (List.range n).map fun i =>
    ⟨heap.length + i, (info.eventTypeIdentifier, info.currentEventsNumber + i)⟩

/-- **The loop.** -/
theorem iterate_makeEvent (info : EventTypeInfo) (heap : List Event) (n : ℕ) :
    makeEvent^[n] (info, heap) = ({ info with
      freeEvents := info.freeEvents ++ newEvents info heap n
      currentEventsNumber := info.currentEventsNumber + n }, heap ++ newEvents info heap n) := by
  induction n with
  | zero => simp [newEvents]
  | succ n ih =>
    have hnew : newEvents info heap (n + 1) = newEvents info heap n ++
        [⟨(heap ++ newEvents info heap n).length,
          (info.eventTypeIdentifier, info.currentEventsNumber + n)⟩] := by
      simp [newEvents, List.range_succ]
    rw [Function.iterate_succ_apply', ih, makeEvent]
    dsimp only
    rw [hnew, List.append_assoc, List.append_assoc, Nat.cast_succ, Int.add_assoc]

theorem eventsOf_newEvents (hid : info.eventTypeIdentifier = id) (n : ℕ) :
    eventsOf ⟨s.ethmEvents, s.heap ++ newEvents info s.heap n⟩ id
      = s.eventsOf id ++ newEvents info s.heap n := by
  have hall : (newEvents info s.heap n).filter (·.eventKey.1 = id) = newEvents info s.heap n := by
    refine List.filter_eq_self.mpr fun e he => ?_
    obtain ⟨i, -, rfl⟩ := List.mem_map.mp he
    exact decide_eq_true hid
  rw [eventsOf, List.filter_append, hall]
  rfl

theorem eventsOf_newEvents_of_ne {id' : ℤ} (hid : info.eventTypeIdentifier ≠ id') (n : ℕ) :
    eventsOf ⟨s.ethmEvents, s.heap ++ newEvents info s.heap n⟩ id' = s.eventsOf id' := by
  have hnone : (newEvents info s.heap n).filter (·.eventKey.1 = id') = [] := by
    refine List.filter_eq_nil_iff.mpr fun e he => ?_
    obtain ⟨i, -, rfl⟩ := List.mem_map.mp he
    simpa using hid
  rw [eventsOf, List.filter_append, hnone, List.append_nil]
  rfl

/-- **A block** that stays below the maximum keeps its type. -/
theorem Kept.makeBlock (hk : s.Kept id info) (n : ℕ)
    (hmax : info.currentEventsNumber + n ≤ info.maxEventsNumberToBeAllocated) :
    Kept ⟨s.ethmEvents, s.heap ++ newEvents info s.heap n⟩ id { info with
      freeEvents := info.freeEvents ++ newEvents info s.heap n
      currentEventsNumber := info.currentEventsNumber + n } := by
  have hlen : (newEvents info s.heap n).length = n := by simp [newEvents]
  have hevents := eventsOf_newEvents (s := s) hk.identifier n
  have hkeys : (newEvents info s.heap n).map (·.eventKey)
      = (List.range n).map fun i : ℕ => (id, (((s.eventsOf id).length + i : ℕ) : ℤ)) := by
    simp [newEvents, hk.identifier, hk.current]
  refine ⟨⟨?_, ?_, ?_⟩, hk.identifier, ?_, hk.block_pos, hk.used_key⟩
  · rw [hevents, List.map_append, hk.keys, hkeys, List.length_append, hlen, List.range_add,
      List.map_append, List.map_map]
    rfl
  · rw [hevents]
    have hswap : (info.freeEvents ++ newEvents info s.heap n ++ values info.usedEvents).Perm
        (info.freeEvents ++ values info.usedEvents ++ newEvents info s.heap n) := by
      rw [List.append_assoc, List.append_assoc]
      exact List.perm_append_comm.append_left _
    exact hswap.trans (hk.partition.append_right _)
  · rw [hevents, List.length_append, hlen]
    have hcurrent := hk.current
    push_cast
    omega
  · rw [hevents, List.length_append, hlen]
    have hcurrent := hk.current
    push_cast
    omega

/-! ### Out of the deque and back -/

/-- No two events of a type have the same key. -/
theorem Kept.keys_nodup (hk : s.Kept id info) :
    ((info.freeEvents ++ values info.usedEvents).map (·.eventKey)).Nodup := by
  rw [(hk.partition.map _).nodup_iff, hk.keys]
  exact List.nodup_range.map fun i j hij => Int.natCast_inj.mp (Prod.mk.inj hij).2

theorem Kept.front_notMem {rest : List Event} (hk : s.Kept id info)
    (hfree : info.freeEvents = event :: rest) : event.eventKey ∉ info.usedEvents := by
  intro hmem
  obtain ⟨event', hlookup⟩ := Option.isSome_iff_exists.mp (AList.lookup_isSome.mpr hmem)
  have hnodup := hk.keys_nodup
  rw [hfree, List.cons_append, List.map_cons, List.nodup_cons] at hnodup
  refine hnodup.1 (List.mem_map.mpr ⟨event', ?_, hk.used_key _ _ hlookup⟩)
  exact List.mem_append_right _ (mem_values_iff.mpr ⟨_, hlookup⟩)

/-- The front of the deque goes to the used events. -/
theorem Kept.takeFront {rest : List Event} (hk : s.Kept id info)
    (hfree : info.freeEvents = event :: rest) :
    s.Kept id { info with
      freeEvents := rest
      usedEvents := info.usedEvents.insert event.eventKey event } := by
  have hnew := hk.front_notMem hfree
  refine ⟨⟨hk.keys, ?_, hk.bound⟩, hk.identifier, hk.current, hk.block_pos, fun key e he => ?_⟩
  · have hpart := hk.partition
    rw [hfree] at hpart
    show (rest ++ values (info.usedEvents.insert event.eventKey event)).Perm _
    rw [values_insert hnew]
    exact List.perm_middle.trans hpart
  · rcases lookup_insert_eq_some he with ⟨rfl, rfl⟩ | ⟨-, hold⟩
    · rfl
    · exact hk.used_key key e hold

/-- A used event goes to the end of the deque. -/
theorem Kept.release (hk : s.Kept id info)
    (hused : info.usedEvents.lookup event.eventKey = some event) :
    s.Kept id { info with
      freeEvents := info.freeEvents ++ [event]
      usedEvents := info.usedEvents.erase event.eventKey } := by
  refine ⟨⟨hk.keys, ?_, hk.bound⟩, hk.identifier, hk.current, hk.block_pos, fun key e he => ?_⟩
  · have hvalues := values_perm_erase hused
    rw [List.append_assoc]
    exact (hvalues.symm.append_left _).trans hk.partition
  · exact hk.used_key key e (lookup_of_erase he).2

/-! ### The invariant is kept -/

/-- One type is set, over a heap that has the same events of the other types. -/
theorem Consistent.setType (hc : Consistent h) {heap : List Event}
    (hsame : ∀ id' ≠ id, eventsOf ⟨h.factory.ethmEvents, heap⟩ id' = h.factory.eventsOf id')
    (hkept : Kept ⟨h.factory.ethmEvents, heap⟩ id info) {held : List Event} {answer : Answer}
    (hheld : ∀ e ∈ held, if e.eventKey.1 = id then info.usedEvents.lookup e.eventKey = some e
      else e ∈ h.held)
    (hnodup : held.Nodup) :
    Consistent ⟨EventsFactory.setType ⟨h.factory.ethmEvents, heap⟩ id info, held, answer⟩ where
  kept id' info' hinfo := by
    rw [ethmEvents_setType] at hinfo
    by_cases hid : id' = id
    · rw [if_pos hid] at hinfo
      obtain rfl := Option.some.inj hinfo
      subst hid
      exact hkept.of_heap rfl
    · rw [if_neg hid] at hinfo
      exact (hc.kept id' info' hinfo).of_heap (hsame id' hid)
  unknown id' hnone := by
    rw [ethmEvents_setType] at hnone
    by_cases hid : id' = id
    · rw [if_pos hid] at hnone
      exact absurd hnone (by simp)
    · rw [if_neg hid] at hnone
      exact (hsame id' hid).trans (hc.unknown id' hnone)
  held e he := by
    have h := hheld e he
    rw [ethmEvents_setType]
    by_cases hid : e.eventKey.1 = id
    · rw [if_pos hid] at h ⊢
      exact ⟨info, rfl, h⟩
    · rw [if_neg hid] at h ⊢
      exact hc.held e h
  held_nodup := hnodup

/-- A held event of a type is one of its used events. -/
theorem Consistent.lookup (hc : Consistent h) (hinfo : h.factory.ethmEvents id = some info)
    {e : Event} (he : e ∈ h.held) (hid : e.eventKey.1 = id) :
    info.usedEvents.lookup e.eventKey = some e := by
  obtain ⟨info', hinfo', hlookup⟩ := hc.held e he
  rw [hid, hinfo] at hinfo'
  rwa [Option.some.inj hinfo']

/-- **A new type.** -/
theorem Consistent.newType (hc : Consistent h) (hnone : h.factory.ethmEvents id = none)
    {block max : ℤ} (hblock : 1 ≤ block) (hmax : 0 ≤ max) (answer : Answer) :
    Consistent ⟨h.factory.setType id (newType id block max), h.held, answer⟩ := by
  have hevents := hc.unknown id hnone
  have hkept : h.factory.Kept id (EventsFactory.newType id block max) := by
    refine ⟨⟨?_, ?_, ?_⟩, rfl, ?_, hblock, fun key e he => ?_⟩
    · rw [hevents]
      rfl
    · rw [hevents]
      exact List.Perm.refl _
    · rw [hevents]
      exact hmax
    · rw [hevents]
      rfl
    · exact absurd he (by simp [EventsFactory.newType])
  refine hc.setType (fun _ _ => rfl) hkept (fun e he => ?_) hc.held_nodup
  split
  · next hid =>
    obtain ⟨info, hinfo, -⟩ := hc.held e he
    rw [hid, hnone] at hinfo
    exact absurd hinfo (by simp)
  · exact he

/-- **An event is handed out**, perhaps of a new block. -/
theorem Consistent.takeFront (hc : Consistent h) (hinfo : h.factory.ethmEvents id = some info)
    {heap : List Event}
    (hsame : ∀ id' ≠ id, eventsOf ⟨h.factory.ethmEvents, heap⟩ id' = h.factory.eventsOf id')
    {info' : EventTypeInfo} (hk : Kept ⟨h.factory.ethmEvents, heap⟩ id info')
    (hused : info'.usedEvents = info.usedEvents) (hne : info'.freeEvents ≠ []) :
    ∃ event s', EventsFactory.takeFront ⟨h.factory.ethmEvents, heap⟩ id info'
        = some (.ok event, s') ∧ Consistent ⟨s', event :: h.held, .event event⟩ := by
  obtain ⟨event, rest, hfree⟩ := List.exists_cons_of_ne_nil hne
  have hnew := hk.front_notMem hfree
  have hid : event.eventKey.1 = id := by
    have hmem := hk.partition.subset (List.mem_append_left _ (hfree ▸ List.mem_cons_self))
    simpa using (List.mem_filter.mp hmem).2
  have htake := hk.takeFront hfree
  refine ⟨event, _, ?_, hc.setType hsame htake ?_ ?_⟩
  · rw [EventsFactory.takeFront, hfree]
    dsimp only
    rw [insertWithoutDuplication_of_notMem hnew]
  · intro e he
    rcases List.mem_cons.mp he with rfl | he
    · rw [if_pos hid]
      exact AList.lookup_insert _
    · split
      · next hid' =>
        have hlookup := hc.lookup hinfo he hid'
        rw [← hused] at hlookup
        have hkey : e.eventKey ≠ event.eventKey := fun h => hnew (h ▸ mem_of_lookup hlookup)
        exact (AList.lookup_insert_ne hkey).trans hlookup
      · exact he
  · refine List.nodup_cons.mpr ⟨fun he => ?_, hc.held_nodup⟩
    have hlookup := hc.lookup hinfo he hid
    rw [← hused] at hlookup
    exact hnew (mem_of_lookup hlookup)

/-- **What `getFreeEvent` does with a type** whose next block fits, if it needs one. -/
theorem Consistent.getEventOf (hc : Consistent h) (hinfo : h.factory.ethmEvents id = some info)
    (hfits : info.freeEvents = [] → BlockFits info) :
    (∃ event s', h.factory.getEventOf id info = some (.ok event, s') ∧
        Consistent ⟨s', event :: h.held, .event event⟩) ∨
      (∃ err, h.factory.getEventOf id info = some (.error err, h.factory)) ∧
        info.freeEvents = [] ∧
        info.maxEventsNumberToBeAllocated < info.currentEventsNumber + info.blockEventsNumber := by
  have hk := hc.kept id info hinfo
  unfold EventsFactory.getEventOf
  by_cases hfree : info.freeEvents = []
  · obtain ⟨hnot, hlong, hint⟩ := hfits hfree
    rw [if_pos (List.length_eq_zero_iff.mpr hfree), if_neg (by omega)]
    by_cases hmax : info.currentEventsNumber + info.blockEventsNumber
        ≥ info.maxEventsNumberToBeAllocated
    · rw [if_pos hmax]
      exact Or.inr ⟨⟨_, rfl⟩, hfree, lt_of_le_of_ne hmax hnot.symm⟩
    · have hblock := hint (not_le.mp hmax)
      have hpos := hk.block_pos
      have hcount : ((info.blockEventsNumber.toNat : ℕ) : ℤ) = info.blockEventsNumber := by omega
      rw [if_neg hmax, EventsFactory.makeBlock, if_neg (by omega), iterate_makeEvent]
      refine Or.inl (hc.takeFront hinfo (fun id' hid => ?_) (hk.makeBlock _ (by omega)) rfl ?_)
      · exact eventsOf_newEvents_of_ne (hk.identifier ▸ hid.symm) _
      · have hone : info.blockEventsNumber.toNat ≠ 0 := by omega
        simp [hfree, newEvents, hone]
  · rw [if_neg (fun hlen => hfree (List.length_eq_zero_iff.mp hlen))]
    exact Or.inl (hc.takeFront hinfo (fun _ _ => rfl) (hk.of_heap rfl) rfl hfree)

/-- A block that does not fit is refused where it would just reach the maximum, or its number is out
of range. -/
theorem getEventOf_of_not_fits (hfree : info.freeEvents = []) (hnot : ¬BlockFits info) :
    s.getEventOf id info = none ∨ (∃ err, s.getEventOf id info = some (.error err, s)) ∧
      info.currentEventsNumber + info.blockEventsNumber = info.maxEventsNumberToBeAllocated := by
  unfold EventsFactory.getEventOf
  rw [if_pos (List.length_eq_zero_iff.mpr hfree)]
  by_cases hlong : 2 ^ 63 ≤ info.currentEventsNumber + info.blockEventsNumber
  · exact Or.inl (if_pos hlong)
  rw [if_neg hlong]
  by_cases hjust : info.currentEventsNumber + info.blockEventsNumber
      = info.maxEventsNumberToBeAllocated
  · rw [if_pos hjust.ge]
    exact Or.inr ⟨⟨_, rfl⟩, hjust⟩
  · have hint : info.currentEventsNumber + info.blockEventsNumber < info.maxEventsNumberToBeAllocated ∧
        2 ^ 31 ≤ info.blockEventsNumber := by
      by_contra hcon
      exact hnot ⟨hjust, not_le.mp hlong, fun hlt => not_le.mp fun hle => hcon ⟨hlt, hle⟩⟩
    refine Or.inl ?_
    rw [if_neg (not_le.mpr hint.1), EventsFactory.makeBlock, if_pos hint.2]

/-! ### Steps -/

theorem getFreeEvent_known (hinfo : s.ethmEvents id = some info) :
    s.getFreeEvent id = s.getEventOf id info := by
  unfold getFreeEvent
  rw [if_neg (by simp [hinfo])]
  dsimp only
  rw [hinfo]

/-- An unknown type is added with the default numbers. -/
theorem getFreeEvent_unknown (hnone : s.ethmEvents id = none) :
    s.getFreeEvent id = (s.setType id (newType id defaultBlockEventsNumber
      defaultMaxEventsNumberToBeAllocated)).getEventOf id (newType id defaultBlockEventsNumber
        defaultMaxEventsNumberToBeAllocated) := by
  have hadd : (s.addEventType id defaultBlockEventsNumber defaultMaxEventsNumberToBeAllocated).2
      = s.setType id (newType id defaultBlockEventsNumber defaultMaxEventsNumberToBeAllocated) := by
    rw [addEventType, if_neg (by simp [hnone])]
  unfold getFreeEvent
  rw [if_pos (by simp [hnone]), hadd]
  dsimp only
  rw [ethmEvents_setType, if_pos rfl]

theorem blockFits_default (id : ℤ) :
    BlockFits (newType id defaultBlockEventsNumber defaultMaxEventsNumberToBeAllocated) where
  not_just := show (0 : ℤ) + 50 ≠ 10000 by decide
  long := show (0 : ℤ) + 50 < 2 ^ 63 by decide
  int _ := show (50 : ℤ) < 2 ^ 31 by decide

/-- A call that returns is right where the invariant holds behind it. -/
theorem Consistent.right {c : Call} (hc : Consistent h') (hdefined : h'.answer ≠ .undefined)
    (hreturned : ∀ err, h'.answer ≠ .threw err) : Right h c h' where
  accounted id info hinfo := (hc.kept id info hinfo).toAccounted
  defined := hdefined
  refuses _ err _ herr := absurd herr (hreturned err)
  unchanged err herr := absurd herr (hreturned err)

/-- A call that throws and leaves the factory as it was. -/
theorem Consistent.throws {c : Call} (hc : Consistent h) (err : EventsFactoryError)
    (hrefuses : ∀ id, c = .getFreeEvent id →
      ∃ info, h.factory.ethmEvents id = some info ∧ info.freeEvents = [] ∧
        info.maxEventsNumberToBeAllocated < info.currentEventsNumber + info.blockEventsNumber) :
    Consistent ⟨h.factory, h.held, .threw err⟩ ∧ Right h c ⟨h.factory, h.held, .threw err⟩ :=
  ⟨⟨hc.kept, hc.unknown, hc.held, hc.held_nodup⟩,
    fun id info hinfo => (hc.kept id info hinfo).toAccounted, by simp,
    fun id _ hid _ => hrefuses id hid, fun _ _ => rfl⟩

theorem step_addEventType (hc : Consistent h) {block max : ℤ} (hblock : 1 ≤ block)
    (hmeets : Meets h (.addEventType id block max))
    (hstep : step h (.addEventType id block max) = some h') :
    Consistent h' ∧ Right h (.addEventType id block max) h' := by
  unfold step at hstep
  split_ifs at hstep
  obtain rfl := Option.some.inj hstep
  unfold addEventType
  dsimp only
  by_cases hknown : (h.factory.ethmEvents id).isSome = true
  · rw [if_pos hknown]
    exact hc.throws _ (by simp)
  · have hnone : h.factory.ethmEvents id = none := by simpa using hknown
    rw [if_neg hknown]
    have hc' := hc.newType hnone hblock (hmeets hnone) .done
    exact ⟨hc', hc'.right (by simp) (by simp)⟩

theorem step_getFreeEvent (hc : Consistent h) (hmeets : Meets h (.getFreeEvent id))
    (hstep : step h (.getFreeEvent id) = some h') :
    Consistent h' ∧ Right h (.getFreeEvent id) h' := by
  unfold step at hstep
  split_ifs at hstep
  obtain rfl := Option.some.inj hstep
  dsimp only
  cases hinfo : h.factory.ethmEvents id with
  | none =>
    have hc₀ := hc.newType hinfo (show 1 ≤ defaultBlockEventsNumber by decide)
      (show 0 ≤ defaultMaxEventsNumberToBeAllocated by decide) h.answer
    rw [getFreeEvent_unknown hinfo]
    have hnew : (h.factory.setType id (newType id defaultBlockEventsNumber
        defaultMaxEventsNumberToBeAllocated)).ethmEvents id = some (newType id defaultBlockEventsNumber
        defaultMaxEventsNumberToBeAllocated) := by rw [ethmEvents_setType, if_pos rfl]
    rcases hc₀.getEventOf hnew (fun _ => blockFits_default id) with ⟨event, s', hget, hc'⟩ | ⟨-, -, hmax⟩
    · rw [hget]
      exact ⟨hc', hc'.right (by simp) (by simp)⟩
    · exact absurd hmax (show ¬(10000 : ℤ) < 0 + 50 by decide)
  | some info =>
    rw [getFreeEvent_known hinfo]
    rcases hc.getEventOf hinfo (hmeets info hinfo) with ⟨event, s', hget, hc'⟩ | ⟨⟨err, hget⟩, hfull⟩
    · rw [hget]
      exact ⟨hc', hc'.right (by simp) (by simp)⟩
    · rw [hget]
      refine hc.throws err fun id' hid => ?_
      obtain rfl := Call.getFreeEvent.inj hid
      exact ⟨info, hinfo, hfull⟩

theorem step_releaseEvent (hc : Consistent h) (hheld : event ∈ h.held)
    (hstep : step h (.releaseEvent event) = some h') :
    Consistent h' ∧ Right h (.releaseEvent event) h' := by
  unfold step at hstep
  split_ifs at hstep
  obtain rfl := Option.some.inj hstep
  obtain ⟨info, hinfo, hlookup⟩ := hc.held event hheld
  unfold releaseEvent
  dsimp only
  rw [hinfo]
  dsimp only
  rw [hlookup]
  dsimp only
  have hkept := (hc.kept _ info hinfo).release hlookup
  have hc' : Consistent ⟨EventsFactory.setType ⟨h.factory.ethmEvents, h.factory.heap⟩ _ _,
      h.held.erase event, .done⟩ :=
    hc.setType (fun _ _ => rfl) hkept (fun e he => ?_) (hc.held_nodup.erase _)
  · exact ⟨hc', hc'.right (by simp) (by simp)⟩
  · obtain ⟨hne, he⟩ := (hc.held_nodup.mem_erase_iff).mp he
    split
    · next hid =>
      have hlookup' := hc.lookup hinfo he hid
      have hkey : e.eventKey ≠ event.eventKey := by
        intro hkey
        rw [hkey, hlookup] at hlookup'
        exact hne (Option.some.inj hlookup').symm
      exact (AList.lookup_erase_ne hkey).trans hlookup'
    · exact he

/-- **A step that meets its condition** keeps the invariant and is right. -/
theorem step_right {c : Call} (hc : Consistent h) (hproper : Proper h c) (hmeets : Meets h c)
    (hstep : step h c = some h') : Consistent h' ∧ Right h c h' := by
  cases c with
  | addEventType id block max => exact step_addEventType hc hproper hmeets hstep
  | getFreeEvent id => exact step_getFreeEvent hc hmeets hstep
  | releaseEvent event => exact step_releaseEvent hc hproper hstep

/-- **A step that is right meets its condition.** -/
theorem meets_of_right {c : Call} (hright : Right h c h')
    (hstep : step h c = some h') : Meets h c := by
  unfold step at hstep
  split_ifs at hstep
  have hh' := Option.some.inj hstep
  cases c with
  | addEventType id block max =>
    intro hnone
    subst hh'
    have hbound := (hright.accounted id (newType id block max) (by
      simp [addEventType, hnone, ethmEvents_setType])).bound
    exact (Int.natCast_nonneg _).trans hbound
  | getFreeEvent id =>
    intro info hinfo hfree
    by_contra hnot
    dsimp only at hh'
    rw [getFreeEvent_known hinfo] at hh'
    rcases (getEventOf_of_not_fits hfree hnot : h.factory.getEventOf id info = none ∨ _) with hnone | ⟨⟨err, hget⟩, hjust⟩
    · rw [hnone] at hh'
      exact hright.defined (hh' ▸ rfl)
    · rw [hget] at hh'
      obtain ⟨info', hinfo', -, hlt⟩ := hright.refuses id err rfl (hh' ▸ rfl)
      rw [hinfo] at hinfo'
      obtain rfl := Option.some.inj hinfo'
      exact absurd hlt (by omega)
  | releaseEvent event => trivial

theorem consistent_initial : Consistent initial :=
  ⟨fun id info h => absurd h (by simp [initial, empty]), fun _ _ => rfl,
    fun _ h => absurd h List.not_mem_nil, List.nodup_nil⟩

end

/-! ### Runs of the factory -/

/-- **The factory does what it is for in a run if and only if each call meets its condition**: no
negative maximum, no block that just reaches the maximum, none that cannot be counted. -/
theorem run_right_iff (calls : List Call) (hproper : Always step (fun h c _ => Proper h c) initial calls) :
    Always step Right initial calls ↔ Always step (fun h c _ => Meets h c) initial calls := by
  have hiff : ∀ h c h', Consistent h → Proper h c → step h c = some h' →
      (Right h c h' ↔ Meets h c) := fun h c h' hc hp hstep =>
    ⟨fun hright => meets_of_right hright hstep, fun hmeets => (step_right hc hp hmeets hstep).2⟩
  have hkeep : ∀ h c h', Consistent h → Proper h c → step h c = some h' → Right h c h' →
      Consistent h' := fun h c h' hc hp hstep hright =>
    (step_right hc hp (meets_of_right hright hstep) hstep).1
  exact always_iff_within hiff hkeep consistent_initial hproper

/-- A type of two events in one block, with both out and one back. -/
def twoOut : List Call :=
  [.addEventType 1 2 3, .getFreeEvent 1, .getFreeEvent 1, .releaseEvent ⟨0, (1, 0)⟩]

theorem run_right_iff_twoOut :
    Always step Right initial twoOut ↔ Always step (fun h c _ => Meets h c) initial twoOut :=
  run_right_iff twoOut (by decide)

/-- **A maximum that one block would reach**: the first event is refused. -/
theorem not_right_of_just : ¬Always step Right initial [.addEventType 1 5 5, .getFreeEvent 1] := by
  intro hall
  obtain ⟨-, hrest⟩ := hall _ rfl
  obtain ⟨hright, -⟩ := hrest _ rfl
  obtain ⟨info, hinfo, -, hlt⟩ := hright.refuses 1 _ rfl rfl
  obtain rfl := Option.some.inj hinfo
  exact absurd hlt (by decide)

end EventsFactory

end CatraLibraries
