/-
# The hands of the threads

What a thread knows of the events in its hands is their type, and whether they have been
initialized with the identifier of that type: only such an event may be added to the events
set, so the processor that takes it out can tell its type.

`eventSpec` says what each operation asks of this knowledge and what it leaves of it.  From it
follows, exit by exit, that a producer and the handler that simulates an event leave the hands
of their thread as they were, and that `processEvent` ends by releasing its event to the vector
of its type.
-/
import CatraLibraries.ConnectionsManager.EventTraffic

namespace CatraLibraries

open Threads

/-! ### What a thread knows -/

/-- An event in the hands of a thread. -/
structure Held where
  address : Nat
  ty : EventType
  /-- Whether it is known to be initialized for its type. -/
  ready : Bool

/-- The events in the hands of a thread, the one it processes, and the one it has released with
its last call. -/
structure Known where
  held : List Held
  event : Option Nat
  released : Option Nat

namespace Known

/-- The knowledge after a call that releases nothing. -/
def after (k : Known) (held : List Held) : Known := ⟨held, k.event, none⟩

end Known

/-- The first entry for an address is marked. -/
def setReady (a : Nat) (ready : Bool) : List Held → List Held
  | [] => []
  | h :: hs => if h.address = a then ⟨a, h.ty, ready⟩ :: hs else h :: setReady a ready hs

/-- An entry for an address is taken out. -/
def discard (a : Nat) (held : List Held) : List Held := held.eraseP fun h => h.address = a

@[simp] theorem setReady_head (a : Nat) (ty : EventType) (r ready : Bool) (hs : List Held) :
    setReady a ready (⟨a, ty, r⟩ :: hs) = ⟨a, ty, ready⟩ :: hs := if_pos rfl

@[simp] theorem discard_head (a : Nat) (ty : EventType) (r : Bool) (hs : List Held) :
    discard a (⟨a, ty, r⟩ :: hs) = hs := by
  simp [discard]

theorem map_setReady (a : Nat) (ready : Bool) (held : List Held) :
    (setReady a ready held).map (·.address) = held.map (·.address) := by
  induction held with
  | nil => rfl
  | cons h hs ih =>
    unfold setReady
    split_ifs with ha
    · simp [ha]
    · simp [ih]

theorem map_discard (a : Nat) (held : List Held) :
    (discard a held).map (·.address) = (held.map (·.address)).erase a := by
  unfold discard
  induction held with
  | nil => rfl
  | cons h hs ih =>
    by_cases ha : h.address = a
    · simp [ha]
    · rw [List.eraseP_cons_of_neg (by simpa using ha), List.map_cons, List.map_cons, ih,
        List.erase_cons_tail (by simpa using ha)]

theorem mem_discard {a : Nat} {held : List Held} {h : Held} (hmem : h ∈ discard a held) :
    h ∈ held := List.mem_of_mem_eraseP hmem

/-- What is marked is either an entry as it was or the one of the address. -/
theorem mem_setReady {a : Nat} {ready : Bool} {held : List Held} {h : Held}
    (hmem : h ∈ setReady a ready held) :
    h ∈ held ∨ h.address = a ∧ h.ready = ready ∧ ∃ h' ∈ held, h'.address = a ∧ h'.ty = h.ty := by
  induction held with
  | nil => exact Or.inl hmem
  | cons x xs ih =>
    unfold setReady at hmem
    split_ifs at hmem with hx
    · rcases List.mem_cons.mp hmem with rfl | hmem
      · exact Or.inr ⟨rfl, rfl, x, List.mem_cons_self, hx, rfl⟩
      · exact Or.inl (List.mem_cons_of_mem _ hmem)
    · rcases List.mem_cons.mp hmem with rfl | hmem
      · exact Or.inl List.mem_cons_self
      · rcases ih hmem with hold | ⟨ha, hr, h', hh', hrest⟩
        · exact Or.inl (List.mem_cons_of_mem _ hold)
        · exact Or.inr ⟨ha, hr, h', List.mem_cons_of_mem _ hh', hrest⟩

/-- Where an address occurs once, its entry is the one that is marked. -/
theorem ready_of_mem_setReady {a : Nat} {ready : Bool} {held : List Held} {h : Held}
    (hone : (held.map (·.address)).count a = 1) (hmem : h ∈ setReady a ready held)
    (ha : h.address = a) : h.ready = ready := by
  induction held with
  | nil => exact absurd hmem List.not_mem_nil
  | cons x xs ih =>
    unfold setReady at hmem
    rw [List.map_cons, List.count_cons] at hone
    split_ifs at hmem with hx
    · rcases List.mem_cons.mp hmem with rfl | hmem
      · rfl
      · have hpos : 0 < (xs.map (·.address)).count a :=
          List.count_pos_iff.mpr (List.mem_map.mpr ⟨h, hmem, ha⟩)
        rw [if_pos (by simpa using hx)] at hone
        omega
    · rw [if_neg (by simpa using hx), Nat.add_zero] at hone
      rcases List.mem_cons.mp hmem with rfl | hmem
      · exact absurd ha hx
      · exact ih hone hmem

/-- What the operations ask and give. -/
def eventSpec : OpSpec EventOp EventOp.Result Known where
  pre op k Q :=
    match op with
    | .getFreeEvent ty =>
      Q none (k.after k.held) ∧ ∀ a, Q (some a) (k.after (⟨a, ty, false⟩ :: k.held))
    | .init a lTypeIdentifier _ =>
      (∃ h ∈ k.held, h.address = a ∧ lTypeIdentifier = h.ty.lTypeIdentifier) ∧
        Q false (k.after k.held) ∧ Q true (k.after (setReady a true k.held))
    | .finish a =>
      (∃ h ∈ k.held, h.address = a) ∧ ∀ works, Q works (k.after (setReady a false k.held))
    | .addEvent a =>
      (∃ h ∈ k.held, h.address = a ∧ h.ready = true) ∧
        Q false (k.after k.held) ∧ Q true (k.after (discard a k.held))
    | .releaseEvent ty a =>
      (∃ h ∈ k.held, h.address = a ∧ h.ty = ty) ∧ Q true ⟨discard a k.held, k.event, some a⟩
    | .getAndRemoveFirstEvent _ =>
      Q none (k.after k.held) ∧ ∀ a ty, Q (some a) ⟨⟨a, ty, true⟩ :: k.held, some a, none⟩
    | .getTypeIdentifier a =>
      ∃ h ∈ k.held, h.address = a ∧ h.ready = true ∧
        Q (some h.ty.lTypeIdentifier) (k.after k.held)
    | .outcome => ∀ works, Q works (k.after k.held)
    | .number => ∀ n, Q n (k.after k.held)
  mono := by
    intro op k Q Q' hQ h
    cases op with
    | getFreeEvent ty => exact ⟨hQ _ _ h.1, fun a => hQ _ _ (h.2 a)⟩
    | init a id dest => exact ⟨h.1, hQ _ _ h.2.1, hQ _ _ h.2.2⟩
    | finish a => exact ⟨h.1, fun works => hQ _ _ (h.2 works)⟩
    | addEvent a => exact ⟨h.1, hQ _ _ h.2.1, hQ _ _ h.2.2⟩
    | releaseEvent ty a => exact ⟨h.1, hQ _ _ h.2⟩
    | getAndRemoveFirstEvent dest => exact ⟨hQ _ _ h.1, fun a ty => hQ _ _ (h.2 a ty)⟩
    | getTypeIdentifier a =>
      obtain ⟨x, hx, ha, hr, hq⟩ := h
      exact ⟨x, hx, ha, hr, hQ _ _ hq⟩
    | outcome => exact fun works => hQ _ _ (h works)
    | number => exact fun n => hQ _ _ (h n)

/-! ### The programs and the hands of their threads -/

namespace EventProg

/-- A program leaves the hands of its thread as they are. -/
def Keeps {α : Type} (p : EventProg α) : Prop :=
  ∀ k, wp eventSpec p k fun _ k' => k'.held = k.held ∧ k'.event = k.event

/-- A program of a thread with an event in its hands ends by releasing it. -/
def GivesBack {α : Type} (a : Nat) (ty : EventType) (p : EventProg α) : Prop :=
  ∀ k r held, k.held = ⟨a, ty, r⟩ :: held →
    wp eventSpec p k fun _ k' => k'.held = held ∧ k'.event = k.event ∧ k'.released = some a

variable {α β : Type} {a : Nat} {ty : EventType}

theorem Keeps.bind {p : EventProg α} {f : α → EventProg β} (hp : Keeps p)
    (hf : ∀ x, Keeps (f x)) : Keeps (p >>= f) := by
  intro k
  rw [Prog.bind_def, wp_bind]
  refine wp_mono p (fun x k' hk' => ?_) (hp k)
  rw [← hk'.1, ← hk'.2]
  exact hf x k'

theorem Keeps.givesBack {p : EventProg α} {f : α → EventProg β} (hp : Keeps p)
    (hf : ∀ x, GivesBack a ty (f x)) : GivesBack a ty (p >>= f) := by
  intro k r held hheld
  rw [Prog.bind_def, wp_bind]
  refine wp_mono p (fun x k' hk' => ?_) (hp k)
  rw [← hk'.2]
  exact hf x k' r held (hk'.1.trans hheld)

theorem keeps_return (x : α) : Keeps (return x) := fun _ => ⟨rfl, rfl⟩

theorem keeps_outcome : Keeps outcome := fun _ _ => ⟨rfl, rfl⟩

/-- A free event is taken, and what is done with it ends in the hands as they were. -/
theorem Keeps.getFreeEvent {f : Option Nat → EventProg β} (hnone : Keeps (f none))
    (hsome : ∀ a k held, k.held = ⟨a, ty, false⟩ :: held →
      wp eventSpec (f (some a)) k fun _ k' => k'.held = held ∧ k'.event = k.event) :
    Keeps (getFreeEvent ty >>= f) :=
  fun k => ⟨hnone (k.after k.held), fun a => hsome a (k.after _) k.held rfl⟩

/-- An event is initialized with the identifier of its type. -/
theorem wp_init {f : Bool → EventProg β} {dest : String} {k : Known} {r : Bool} {held : List Held}
    {Q : β → Known → Prop} (hk : k.held = ⟨a, ty, r⟩ :: held)
    (hfalse : wp eventSpec (f false) (k.after k.held) Q)
    (htrue : wp eventSpec (f true) (k.after (⟨a, ty, true⟩ :: held)) Q) :
    wp eventSpec (init a ty.lTypeIdentifier dest >>= f) k Q := by
  refine ⟨⟨⟨a, ty, r⟩, by rw [hk]; exact List.mem_cons_self, rfl, rfl⟩, hfalse, ?_⟩
  rw [hk, setReady_head]
  exact htrue

/-- An initialized event is added to the set, or stays in the hands. -/
theorem wp_addEvent {f : Bool → EventProg β} {k : Known} {held : List Held}
    {Q : β → Known → Prop} (hk : k.held = ⟨a, ty, true⟩ :: held)
    (hfalse : wp eventSpec (f false) (k.after k.held) Q)
    (htrue : wp eventSpec (f true) (k.after held) Q) : wp eventSpec (addEvent a >>= f) k Q := by
  refine ⟨⟨⟨a, ty, true⟩, by rw [hk]; exact List.mem_cons_self, rfl, rfl⟩, hfalse, ?_⟩
  rw [hk, discard_head]
  exact htrue

theorem wp_finish {f : Bool → EventProg β} {k : Known} {r : Bool} {held : List Held}
    {Q : β → Known → Prop} (hk : k.held = ⟨a, ty, r⟩ :: held)
    (h : ∀ works, wp eventSpec (f works) (k.after (⟨a, ty, false⟩ :: held)) Q) :
    wp eventSpec (finish a >>= f) k Q := by
  refine ⟨⟨⟨a, ty, r⟩, by rw [hk]; exact List.mem_cons_self, rfl⟩, fun works => ?_⟩
  rw [hk, setReady_head]
  exact h works

theorem wp_releaseEvent {f : Bool → EventProg β} {k : Known} {r : Bool} {held : List Held}
    {Q : β → Known → Prop} (hk : k.held = ⟨a, ty, r⟩ :: held)
    (h : wp eventSpec (f true) ⟨held, k.event, some a⟩ Q) :
    wp eventSpec (releaseEvent ty a >>= f) k Q := by
  refine ⟨⟨⟨a, ty, r⟩, by rw [hk]; exact List.mem_cons_self, rfl, rfl⟩, ?_⟩
  rw [hk, discard_head]
  exact h

theorem givesBack_release (x : α) :
    GivesBack a ty (do let _ ← releaseEvent ty a; return x) := by
  intro k r held hk
  exact wp_releaseEvent hk ⟨rfl, rfl, rfl⟩

theorem givesBack_finish (x : α) :
    GivesBack a ty (do let _ ← finish a; let _ ← releaseEvent ty a; return x) := by
  intro k r held hk
  exact wp_finish hk fun _ => givesBack_release x _ _ held rfl

/-- What gives an event back leaves the other events in the hands. -/
theorem GivesBack.keeps {p : EventProg α} (hp : GivesBack a ty p) {k : Known} {r : Bool}
    {held : List Held} (hk : k.held = ⟨a, ty, r⟩ :: held) :
    wp eventSpec p k fun _ k' => k'.held = held ∧ k'.event = k.event :=
  wp_mono p (fun _ _ h => ⟨h.1, h.2.1⟩) (hp k r held hk)

/-- **A timer** passes its event on or gives it back. -/
theorem keeps_handleTimeOut (ty : EventType) : Keeps (handleTimeOut ty) := by
  refine keeps_outcome.bind fun started => ?_
  cases started with
  | false => exact keeps_return false
  | true =>
    refine Keeps.getFreeEvent keeps_outcome fun a k held hk => wp_init hk ?_ ?_
    · exact (givesBack_release true).keeps hk
    · exact wp_addEvent rfl ((givesBack_finish true).keeps rfl) ⟨rfl, rfl⟩

/-- **The sockets pool** passes its event on or gives it back. -/
theorem keeps_updateSocketStatus : Keeps updateSocketStatus := by
  refine keeps_outcome.bind fun ready => ?_
  cases ready with
  | false => exact keeps_outcome
  | true =>
    refine Keeps.getFreeEvent (keeps_return false) fun a k held hk => wp_init hk ?_ ?_
    · exact (givesBack_release false).keeps hk
    · -- the socket is deleted from the pool before the event is added
      intro deleted
      cases deleted with
      | false => exact (givesBack_finish false).keeps rfl
      | true => exact wp_addEvent rfl ((givesBack_finish false).keeps rfl) ⟨rfl, rfl⟩

theorem keeps_updateSockets (n : Nat) : Keeps (updateSockets n) := by
  induction n with
  | zero => exact keeps_return ()
  | succ n ih => exact keeps_updateSocketStatus.bind fun _ => ih

theorem keeps_handleCheckSocketsPoolEvent : Keeps handleCheckSocketsPoolEvent :=
  fun _ n => Keeps.bind (keeps_updateSockets n) (fun _ => keeps_outcome) _

theorem keeps_acceptConnection : Keeps acceptConnection := by
  refine keeps_outcome.bind fun works => ?_
  cases works with
  | false => exact keeps_return none
  | true =>
    refine keeps_outcome.bind fun found => ?_
    cases found <;> exact keeps_return _

/-- **Accepting** gives every event back that it has simulated. -/
theorem keeps_acceptLoop (bProcessorName : String) (n : Nat) :
    Keeps (acceptLoop bProcessorName n) := by
  induction n with
  | zero => exact keeps_return true
  | succ n ih =>
    refine keeps_acceptConnection.bind fun accepted => ?_
    match accepted with
    | none => exact keeps_return false
    | some false => exact keeps_return true
    | some true =>
      refine Keeps.getFreeEvent (keeps_return false) fun a k held hk => wp_init hk ?_ ?_
      · exact (givesBack_release false).keeps hk
      · intro handled
        cases handled with
        | false => exact (givesBack_finish false).keeps rfl
        | true =>
          refine wp_finish rfl fun finished => ?_
          cases finished with
          | false => exact (givesBack_release false).keeps rfl
          | true =>
            refine wp_releaseEvent rfl ?_
            -- the hands are as they were before the event was simulated
            have hrest : Keeps (do
                if ← outcome then
                  if ← outcome then acceptLoop bProcessorName n else return true
                else return false) := by
              refine keeps_outcome.bind fun timeTaken => ?_
              cases timeTaken with
              | false => exact keeps_return false
              | true =>
                refine keeps_outcome.bind fun goesOn => ?_
                cases goesOn with
                | false => exact keeps_return true
                | true => exact ih
            exact hrest _

/-- **Every branch** of `processEvent` ends by releasing the event. -/
theorem givesBack_handled {handler : EventProg Bool} (h : Keeps handler) :
    GivesBack a ty (handled handler ty a) := by
  refine h.givesBack fun works => ?_
  cases works with
  | false => exact givesBack_finish false
  | true =>
    intro k r held hk
    refine wp_finish hk fun finished => ?_
    cases finished with
    | false => exact givesBack_release false _ _ held rfl
    | true =>
      refine ⟨⟨_, List.mem_cons_self, rfl, rfl⟩, ?_⟩
      rw [Known.after, discard_head]
      exact ⟨rfl, rfl, rfl⟩

/-- **`processEvent`** releases its event with its last call, to the vector of its type. -/
theorem processEvent_wp (bProcessorName : String) (ulMax : Nat) (k : Known)
    (hk : k.held = [⟨a, ty, true⟩]) :
    wp eventSpec (processEvent bProcessorName ulMax a) k fun _ k' =>
      k'.held = [] ∧ k'.event = k.event ∧ k'.released = some a := by
  refine ⟨⟨a, ty, true⟩, by rw [hk]; exact List.mem_cons_self, rfl, rfl, ?_⟩
  -- the branch is the one of the type
  cases ty with
  | connectionToAccept => exact givesBack_handled (keeps_acceptLoop _ _) _ _ _ hk
  | checkUnusedSockets => exact givesBack_handled keeps_outcome _ _ _ hk
  | checkSocketsPool => exact givesBack_handled keeps_handleCheckSocketsPoolEvent _ _ _ hk
  | connection => exact givesBack_handled keeps_outcome _ _ _ hk

end EventProg

/-- What a thread knows when its program ends: it has no event in its hands, and the one it has
processed has been released with the last call. -/
def Known.Done (k : Known) : Prop := k.held = [] ∧ ∀ a, k.event = some a → k.released = some a

open EventProg in
theorem EventTask.body_wp (task : EventTask) :
    wp eventSpec task.body ⟨[], none, none⟩ fun _ k => k.Done := by
  have htimer : ∀ ty, wp eventSpec (do let _ ← handleTimeOut ty) ⟨[], none, none⟩
      fun _ k => k.Done := by
    intro ty
    refine (wp_bind (handleTimeOut ty) _ _ _).mpr
      (wp_mono _ (fun _ k hk => ⟨hk.1, fun a ha => ?_⟩) (keeps_handleTimeOut ty _))
    rw [hk.2] at ha
    cases ha
  cases task with
  | checkServerSocketTimes => exact htimer _
  | checkUnusedSocketsTimes => exact htimer _
  | checkSocketsPoolTimes => exact htimer _
  | processor bProcessorName ulMax =>
    refine ⟨⟨rfl, fun a ha => by cases ha⟩, fun a ty => ?_⟩
    refine (wp_bind (processEvent bProcessorName ulMax a) _ _ _).mpr (wp_mono _ (fun _ k hk => ?_)
      (processEvent_wp bProcessorName ulMax _ rfl))
    refine ⟨hk.1, fun b hb => ?_⟩
    exact hk.2.2.trans (hk.2.1.symm.trans hb)

end CatraLibraries
