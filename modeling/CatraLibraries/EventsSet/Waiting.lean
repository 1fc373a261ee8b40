/-
# Producers and waiting consumers

Several threads on one set of events.  A producer's `addEvent` is one step.  A consumer's
blocking `getAndRemoveFirstEvent` gives the mutex up in `timedWait`: it waits until a
signal wakes it or the operating system reports a time-out, and continues once it has
the mutex again.  Between these points it runs in one step.

A signal wakes one of the consumers that wait on the condition variable of the
destination, and is lost when none does.  A time-out is reported at any time, also after
an event was added.
-/
import CatraLibraries.EventsSet.EventsSet
import CatraLibraries.Lib.Transition

namespace CatraLibraries

namespace EventsSet

/-- Where a consumer is: not in a call, about to take the mutex, in `timedWait`, about to
take the mutex after `timedWait`, or back with a result. -/
inductive Pc
  | idle
  | calling
  | waiting (wait : Waiting)
  | woken (wait : Waiting) (timedOut : Bool)
  | returned (result : Except EvsetError Event)
  deriving DecidableEq

/-- A consumer thread and the call it makes. -/
structure Consumer where
  get : Get
  pc : Pc
  deriving DecidableEq

/-- The set, the consumers and the clock. -/
structure System where
  set : EventsSet
  consumers : List Consumer
  now : Nat

namespace System

/-- What can happen next. -/
inductive Action
  /-- The clock is read as `now` from here on. -/
  | clock (now : Nat)
  | addDestination (destination : String)
  /-- A producer adds an event; its signal wakes the given consumer. -/
  | addEvent (pevEvent : Option Event) (wakes : Option Nat)
  /-- Consumer `i` calls `getAndRemoveFirstEvent`. -/
  | call (i : Nat) (pbDestination : String) (bBlocking : Bool) (ulSecondsToBlock : Nat)
      (ulAdditionalMilliSecondsToBlock : Nat)
  /-- Consumer `i` takes the mutex and goes on to its end or its first wait. -/
  | enter (i : Nat)
  /-- The wait of consumer `i` is over because its time has passed. -/
  | timeOut (i : Nat)
  /-- Consumer `i` has the mutex again and goes on to its end or its next wait. -/
  | resume (i : Nat)

/-- A consumer that waits on the condition variable of a destination. -/
def waitsOn (destination : String) (c : Consumer) : Option Waiting :=
  match c.pc with
  | .waiting wait => if c.get.pbDestination = destination then some wait else none
  | _ => none

def setPc (s : System) (i : Nat) (c : Consumer) (pc : Pc) : System :=
  { s with consumers := s.consumers.set i { c with pc := pc } }

/-- The consumer after it went on as far as `progress`. -/
def follow (s : System) (i : Nat) (c : Consumer) (p : Progress × EventsSet) : System :=
  match p with
  | (.returned result, set) => { s with set := set }.setPc i c (.returned result)
  | (.waits wait, set) => { s with set := set }.setPc i c (.waiting wait)

/-- The signal of a condition variable: one of its waiters is woken, if there is one. -/
def signal (s : System) (destination : String) : Option Nat → Option System
  | none => if s.consumers.all fun c => (waitsOn destination c).isNone then some s else none
  | some i =>
    match s.consumers[i]? with
    | none => none
    | some c =>
      match waitsOn destination c with
      | none => none
      | some wait => some (s.setPc i c (.woken wait false))

/-- One step. -/
def step (s : System) : Action → Option System
  | .clock now => some { s with now := now }
  | .addDestination destination =>
    some { s with set := (s.set.addDestination (some destination)).2 }
  | .addEvent pevEvent wakes =>
    match s.set.addEvent pevEvent, pevEvent with
    | (.ok true, set), some e => { s with set := set }.signal e.bDestination wakes
    | (_, set), _ => if wakes = none then some { s with set := set } else none
  | .call i pbDestination bBlocking ulSecondsToBlock ulAdditionalMilliSecondsToBlock =>
    match s.consumers[i]? with
    | none => none
    | some c =>
      match c.pc with
      | .idle | .returned _ =>
        let get : Get := ⟨pbDestination, bBlocking, ulSecondsToBlock,
          ulAdditionalMilliSecondsToBlock, s.now⟩
        some { s with consumers := s.consumers.set i ⟨get, .calling⟩ }
      | _ => none
  | .enter i =>
    match s.consumers[i]? with
    | none => none
    | some c =>
      match c.pc with
      | .calling => some (s.follow i c (s.set.getAndRemoveFirstEvent (some c.get) s.now))
      | _ => none
  | .timeOut i =>
    match s.consumers[i]? with
    | none => none
    | some c =>
      match c.pc with
      | .waiting wait => some (s.setPc i c (.woken wait true))
      | _ => none
  | .resume i =>
    match s.consumers[i]? with
    | none => none
    | some c =>
      match c.pc with
      | .woken wait timedOut => some (s.follow i c (s.set.resume c.get wait timedOut s.now))
      | _ => none

/-- A set that was just initialised, and consumers that have not called yet. -/
def start (bConditionVariablesToBeUsed : Bool) (consumers : Nat) : System :=
  ⟨(built.init bConditionVariablesToBeUsed 1).2,
    List.replicate consumers ⟨⟨"", true, 0, 0, 0⟩, .idle⟩, 0⟩

/-! ### Who finds no events -/

/-- The events of the destination that a consumer asks for. -/
def eventsFor (s : System) (c : Consumer) : EventsMultiMap := s.set.events c.get.pbDestination

/-- A consumer that reports in this step that there are no events is right. -/
def Honest (_ : System) (a : Action) (s' : System) : Prop :=
  ∀ i c, a = .enter i ∨ a = .resume i → s'.consumers[i]? = some c →
    c.pc = .returned (.error .noEventsFound) → (s'.eventsFor c).begin? = none

/-- The condition on a step: when the time-out of a consumer's wait for an event comes to
be handled and its blocking time is over, its destination has no events. -/
def TimeOutFindsNone (s : System) : Action → Prop
  | .resume i => ∀ c, s.consumers[i]? = some c → c.pc = .woken .forEvent true →
      c.get.lRemainingTimeInMilliSecs s.now ≤ 0 → (s.eventsFor c).begin? = none
  | _ => True

/-- What going on as far as `p` leaves of consumer `i`. -/
theorem follow_consumer {s : System} {i : Nat} {c : Consumer} (hc : s.consumers[i]? = some c)
    (p : Progress × EventsSet) :
    (s.follow i c p).set = p.2 ∧ (s.follow i c p).consumers[i]? = some ⟨c.get,
      match p.1 with
      | .returned result => .returned result
      | .waits wait => .waiting wait⟩ := by
  have hi : i < s.consumers.length := (List.getElem?_eq_some_iff.mp hc).1
  obtain ⟨progress, set⟩ := p
  cases progress with
  | returned result => exact ⟨rfl, List.getElem?_set_self hi⟩
  | waits wait => exact ⟨rfl, List.getElem?_set_self hi⟩

/-- A consumer that goes on and reports no events is right when its part of the method is. -/
theorem honest_follow {s : System} {i : Nat} {c : Consumer} {a : Action}
    (ha : a = .enter i ∨ a = .resume i) (hc : s.consumers[i]? = some c)
    (p : Progress × EventsSet) :
    Honest s a (s.follow i c p) ↔
      (p.1 = .returned (.error .noEventsFound) →
        (p.2.events c.get.pbDestination).begin? = none) := by
  obtain ⟨hset, hconsumer⟩ := follow_consumer hc p
  constructor
  · intro h hp
    have := h i _ ha hconsumer (by rw [hp])
    rwa [eventsFor, hset] at this
  · intro h j d hj hd hpc
    obtain rfl : i = j := by
      rcases ha with rfl | rfl <;> rcases hj with hj | hj <;> cases hj <;> rfl
    obtain rfl := Option.some.inj (hconsumer.symm.trans hd)
    rw [eventsFor, hset]
    refine h ?_
    cases hprogress : p.1 with
    | returned result =>
      rw [hprogress] at hpc
      exact congrArg _ (Pc.returned.inj hpc)
    | waits wait =>
      rw [hprogress] at hpc
      exact absurd hpc (by simp)

/-- Entering the method, a consumer is always right. -/
theorem enter_right (g : Get) (now : Nat) (s : EventsSet)
    (h : (s.getAndRemoveFirstEvent (some g) now).1 = .returned (.error .noEventsFound)) :
    (((s.getAndRemoveFirstEvent (some g) now).2).events g.pbDestination).begin? = none := by
  obtain ⟨err, heq, hnone, -⟩ | ⟨g', wait, -, -, heq⟩ | ⟨g', key, e, -, -, -, heq⟩ :=
    getAndRemoveFirstEvent_cases (some g) now s <;> rw [heq] at h ⊢
  · obtain rfl := Except.error.inj (Progress.returned.inj h)
    obtain ⟨g', hg', hempty⟩ := hnone rfl
    obtain rfl := Option.some.inj hg'
    exact hempty
  · exact absurd h (by simp)
  · exact absurd h (by simp)

theorem takeFirst_right (g : Get) (now : Nat) (s : EventsSet)
    (h : (s.takeFirst g now).1 = .returned (.error .noEventsFound)) :
    (((s.takeFirst g now).2).events g.pbDestination).begin? = none := by
  obtain ⟨err, heq, hnone, -⟩ | ⟨-, heq⟩ | ⟨key, e, -, -, heq⟩ := takeFirst_cases g now s <;>
    rw [heq] at h ⊢
  · obtain rfl := Except.error.inj (Progress.returned.inj h)
    exact hnone rfl
  · exact absurd h (by simp)
  · exact absurd h (by simp)

/-- **Going on after a wait**, a consumer is right unless it handles the time-out of a wait
for an event with its time over. -/
theorem resume_right_iff (g : Get) (wait : Waiting) (timedOut : Bool) (now : Nat)
    (s : EventsSet) :
    ((s.resume g wait timedOut now).1 = .returned (.error .noEventsFound) →
      (((s.resume g wait timedOut now).2).events g.pbDestination).begin? = none) ↔
    (wait = .forEvent → timedOut = true → g.lRemainingTimeInMilliSecs now ≤ 0 →
      (s.events g.pbDestination).begin? = none) := by
  cases wait with
  | forExpiration =>
    refine ⟨fun _ h => absurd h (by simp), fun _ h => ?_⟩
    exact takeFirst_right g now s h
  | forEvent =>
    rw [resume]
    cases timedOut with
    | true =>
      rw [if_pos rfl]
      split_ifs with htime
      · exact ⟨fun h _ _ _ => h rfl, fun h _ => h rfl rfl htime⟩
      · exact ⟨fun _ _ _ h => absurd h htime, fun _ h => absurd h (by simp)⟩
    | false =>
      rw [if_neg Bool.false_ne_true]
      refine ⟨fun _ _ h => absurd h Bool.false_ne_true, fun _ => ?_⟩
      split_ifs with hempty htime
      · exact fun _ => hempty
      · exact fun h => absurd h (by simp)
      · exact takeFirst_right g now s

/-- **One step**: a consumer that reports no events is right if and only if the step meets
the condition. -/
theorem honest_iff {s s' : System} {a : Action} (h : step s a = some s') :
    Honest s a s' ↔ TimeOutFindsNone s a := by
  cases a with
  | enter i =>
    refine ⟨fun _ => trivial, fun _ => ?_⟩
    cases hc : s.consumers[i]? with
    | none => simp [step, hc] at h
    | some c =>
      simp only [step, hc] at h
      split at h
      · obtain rfl := Option.some.inj h
        exact (honest_follow (Or.inl rfl) hc _).mpr (enter_right c.get s.now s.set)
      · exact absurd h (by simp)
  | resume i =>
    cases hc : s.consumers[i]? with
    | none => simp [step, hc] at h
    | some c =>
      simp only [step, hc] at h
      split at h
      · next wait timedOut hpc =>
        obtain rfl := Option.some.inj h
        rw [honest_follow (Or.inr rfl) hc, resume_right_iff]
        constructor
        · intro hright d hd hwoken
          obtain rfl := Option.some.inj (hc.symm.trans hd)
          obtain ⟨rfl, rfl⟩ := Pc.woken.inj (hpc.symm.trans hwoken)
          exact hright rfl rfl
        · rintro hmeets rfl rfl
          exact hmeets c hc hpc
      · exact absurd h (by simp)
  | clock | addDestination | addEvent | call | timeOut =>
    refine ⟨fun _ => trivial, fun _ i c hi => ?_⟩
    rcases hi with hi | hi <;> exact absurd hi (by simp)

/-- **Every interleaving.**  In a run of producers and consumers every consumer that
reports no events finds its destination empty if and only if every time-out that is
handled after the blocking time does. -/
theorem noEventsFound_iff (bConditionVariablesToBeUsed : Bool) (consumers : Nat)
    (actions : List Action) :
    Transition.Always step Honest (start bConditionVariablesToBeUsed consumers) actions ↔
      Transition.Always step (fun s a _ => TimeOutFindsNone s a)
        (start bConditionVariablesToBeUsed consumers) actions :=
  Transition.always_iff (P := Honest) (fun _ _ _ h => honest_iff h) _ _

/-- Two events that expired long ago, under one key. -/
def expired (address : Nat) : Event := ⟨address, .eventInitialized, "d", 5⟩

/-- Two consumers wait, two events are added, and only the first addition signals: the
second consumer waits on, until its two seconds are over. -/
def lostWakeUp : List Action :=
  [.clock 1000, .addDestination "d", .call 0 "d" true 2 0, .enter 0, .call 1 "d" true 2 0,
    .enter 1, .addEvent (some (expired 1)) (some 0), .addEvent (some (expired 2)) none, .resume 0,
    .clock 3000, .timeOut 1]

/-- **A lost wake-up.**  The second consumer reports that there are no events although the
second event has been there for two seconds. -/
theorem noEventsFound_lost_wake_up :
    ¬ ∀ actions, Transition.Always step Honest (start true 2) actions := by
  intro h
  obtain ⟨t, hrun, hstep⟩ : ∃ t, Transition.run step (start true 2) lostWakeUp = some t ∧
      ∃ t', step t (.resume 1) = some t' ∧
        t'.consumers[1]? = some ⟨⟨"d", true, 2, 0, 1000⟩, .returned (.error .noEventsFound)⟩ ∧
        (t'.set.events "d").begin? = some (5, expired 2) :=
    ⟨_, rfl, _, rfl, by decide +kernel, by decide +kernel⟩
  obtain ⟨t', ht', hconsumer, hbegin⟩ := hstep
  have hhonest := (h (lostWakeUp ++ [.resume 1])).last hrun ht'
  have hnone := hhonest 1 _ (Or.inr rfl) hconsumer rfl
  rw [eventsFor, hbegin] at hnone
  exact absurd hnone (by simp)

end System

end EventsSet

end CatraLibraries
