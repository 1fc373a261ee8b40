/-
# Where the events are

Every event that has been allocated is in the free vector of its type, in the events set, or in
the hands of one thread, once.  `Accounting` is this with what makes it an invariant: what the
threads know is true, and an event that waits is initialized with the identifier of its type.

The operations keep it as long as no `addEvent` reports an error for an event that it has
added, and the programs never ask for more than their thread knows; so it holds in every run.
After such a call, though, the event is in the set and in the hands of its producer, which
releases it to the free vector.
-/
import CatraLibraries.ConnectionsManager.EventAccounting
import CatraLibraries.Lib.Places
import Mathlib.Data.List.Nodup

namespace CatraLibraries

open Threads Places

/-- Where an event can be. -/
inductive EventPlace (T : Type)
  | free (ulEventTypeIndex : EventType)
  | waiting (pbDestination : String)
  | hands (t : T)
  deriving DecidableEq

namespace CMEventsSet

/-- The events that wait for a destination. -/
def waiting (s : CMEventsSet) (pbDestination : String) : List Nat :=
  (s.eventsSet.events pbDestination).entries.map fun x => x.2.address

/-- What lies in a place, when the threads have these events in their hands. -/
def place {T : Type} (s : CMEventsSet) (hands : T → List Nat) : EventPlace T → List Nat
  | .free ulEventTypeIndex => s.vFreeEvents ulEventTypeIndex
  | .waiting pbDestination => s.waiting pbDestination
  | .hands t => hands t

end CMEventsSet

namespace TrafficState

variable {T : Type}

/-- The events in the hands of a thread; an idle thread has none. -/
def hands (s : TrafficState T) (t : T) : List Nat :=
  match s.threads t with
  | none => []
  | some th => th.data.held

/-- What lies in a place. -/
def place (s : TrafficState T) : EventPlace T → List Nat := s.shared.place s.hands

/-- Every allocated event is in one place, once; if that is a free vector, it is the one of its
type. -/
def Accounted [DecidableEq T] (s : TrafficState T) : Prop :=
  ∀ ty a, a ∈ s.shared.allocatedEvents ty →
    ∃ p, Placed s.place a p ∧ ∀ ty', p = .free ty' → ty' = ty

/-- A processor that becomes idle has the event it has processed back in the free vector of its
type, once. -/
def Returned (s s' : TrafficState T) : Prop :=
  ∀ t th pevEvent, s.threads t = some th → th.data.event = some pevEvent →
    s'.threads t = none →
    ∃ ty, pevEvent ∈ s'.shared.allocatedEvents ty ∧ (s'.shared.vFreeEvents ty).count pevEvent = 1

/-- The call that is made is an `addEvent` that adds the event and reports an error. -/
def SignalFails (s : TrafficState T) : Action EventTask EventChoice T → Prop
  | .start _ _ => False
  | .call t c =>
    ∃ pevEvent f l, s.threads t = some ⟨.call (.addEvent pevEvent) f, l⟩ ∧
      (s.shared.addEvent pevEvent c.works c.signalWorks).1 = .signalFailed

end TrafficState

/-! ### The accounting -/

namespace CMEventsSet

/-- The object is initialized with the identifier of a type. -/
def Initialized (s : CMEventsSet) (a : Nat) (ty : EventType) : Prop :=
  (s.objects a).esEventStatus = .eventInitialized ∧
    (s.objects a).lTypeIdentifier = ty.lTypeIdentifier

end CMEventsSet

variable {T : Type} [DecidableEq T]

/-- The events in the hands of threads with this data and knowledge. -/
def handsOf (w : T → Option (Hands × Known)) (t : T) : List Nat :=
  match w t with
  | none => []
  | some (l, _) => l.held

theorem handsOf_update (w : T → Option (Hands × Known)) (t : T) (l : Hands) (k : Known) :
    handsOf (Function.update w t (some (l, k))) = Function.update (handsOf w) t l.held := by
  funext t'
  unfold handsOf
  rcases eq_or_ne t' t with rfl | ht
  · rw [Function.update_self, Function.update_self]
  · rw [Function.update_of_ne ht, Function.update_of_ne ht]

theorem handsOf_update_none (w : T → Option (Hands × Known)) (t : T) :
    handsOf (Function.update w t none) = Function.update (handsOf w) t [] := by
  funext t'
  unfold handsOf
  rcases eq_or_ne t' t with rfl | ht
  · rw [Function.update_self, Function.update_self]
  · rw [Function.update_of_ne ht, Function.update_of_ne ht]

/-- The invariant of the event traffic. -/
structure Accounting (d : CMEventsSet) (w : T → Option (Hands × Known)) : Prop where
  types : d.ulNumberOfDifferentEventTypeToManage = EventType.number
  hands : ∀ t l k, w t = some (l, k) → l.held = k.held.map (·.address) ∧ l.event = k.event
  known : ∀ t l k, w t = some (l, k) → ∀ h ∈ k.held,
    h.address ∈ d.allocatedEvents h.ty ∧ (h.ready = true → d.Initialized h.address h.ty)
  waiting : ∀ dest a, a ∈ d.waiting dest → ∃ ty, a ∈ d.allocatedEvents ty ∧ d.Initialized a ty
  free : ∀ ty a, a ∈ d.vFreeEvents ty → a ∈ d.allocatedEvents ty
  fresh : ∀ ty a, a ∈ d.allocatedEvents ty → a < d.nextAddress
  kinds : ∀ ty ty' a, a ∈ d.allocatedEvents ty → a ∈ d.allocatedEvents ty' → ty = ty'
  placed : ∀ ty a, a ∈ d.allocatedEvents ty → ∃ p, Placed (d.place (handsOf w)) a p

namespace Accounting

variable {d d' : CMEventsSet} {w : T → Option (Hands × Known)} {t : T} {l l' : Hands} {k k' : Known}

/-- An event in the hands of a thread is nowhere else. -/
theorem held_only (h : Accounting d w) (hw : w t = some (l, k)) {x : Held} (hx : x ∈ k.held)
    {q : EventPlace T} (hq : x.address ∈ d.place (handsOf w) q) : q = .hands t := by
  obtain ⟨p, hp⟩ := h.placed _ _ (h.known t l k hw x hx).1
  have hmem : x.address ∈ d.place (handsOf w) (.hands t) := by
    show x.address ∈ handsOf w t
    unfold handsOf
    rw [hw]
    show x.address ∈ l.held
    rw [(h.hands t l k hw).1]
    exact List.mem_map_of_mem hx
  rw [hp.eq_of_mem hmem, hp.eq_of_mem hq]

theorem count_held (h : Accounting d w) (hw : w t = some (l, k)) {x : Held} (hx : x ∈ k.held) :
    (k.held.map (·.address)).count x.address = 1 := by
  obtain ⟨p, hp⟩ := h.placed _ _ (h.known t l k hw x hx).1
  have hhands : d.place (handsOf w) (.hands t) = k.held.map (·.address) := by
    show handsOf w t = _
    unfold handsOf
    rw [hw]
    exact (h.hands t l k hw).1
  have hmem : x.address ∈ d.place (handsOf w) (.hands t) := by
    rw [hhands]
    exact List.mem_map_of_mem hx
  have hcount := hp.count_self
  rwa [← hp.eq_of_mem hmem, hhands] at hcount

/-- A thread starts with empty hands. -/
theorem starts (h : Accounting d w) (hw : w t = none) :
    Accounting d (Function.update w t (some (⟨[], none⟩, ⟨[], none, none⟩))) := by
  have hhands : handsOf (Function.update w t (some (⟨[], none⟩, ⟨[], none, none⟩))) = handsOf w := by
    rw [handsOf_update, Function.update_eq_self_iff]
    unfold handsOf
    rw [hw]
  refine ⟨h.types, ?_, ?_, h.waiting, h.free, h.fresh, h.kinds, by rw [hhands]; exact h.placed⟩
  · intro t' l k hw'
    rcases eq_or_ne t' t with rfl | ht
    · rw [Function.update_self] at hw'
      obtain ⟨rfl, rfl⟩ := Prod.mk.inj (Option.some.inj hw')
      exact ⟨rfl, rfl⟩
    · rw [Function.update_of_ne ht] at hw'
      exact h.hands t' l k hw'
  · intro t' l k hw' x hx
    rcases eq_or_ne t' t with rfl | ht
    · rw [Function.update_self] at hw'
      obtain ⟨rfl, rfl⟩ := Prod.mk.inj (Option.some.inj hw')
      exact absurd hx List.not_mem_nil
    · rw [Function.update_of_ne ht] at hw'
      exact h.known t' l k hw' x hx

/-- A thread with empty hands may become idle. -/
theorem ends (h : Accounting d w) (hw : w t = some (l, k)) (hk : k.held = []) :
    Accounting d (Function.update w t none) := by
  have hheld : l.held = [] := by
    rw [(h.hands t l k hw).1, hk]
    rfl
  have hhands : handsOf (Function.update w t none) = handsOf w := by
    rw [handsOf_update_none, Function.update_eq_self_iff]
    unfold handsOf
    rw [hw]
    exact hheld.symm
  have hold : ∀ t' y, Function.update w t none t' = some y → w t' = some y := by
    intro t' y hy
    rcases eq_or_ne t' t with rfl | ht
    · rw [Function.update_self] at hy
      cases hy
    · rwa [Function.update_of_ne ht] at hy
  exact ⟨h.types, fun t' l k hw' => h.hands t' l k (hold t' _ hw'),
    fun t' l k hw' => h.known t' l k (hold t' _ hw'), h.waiting, h.free, h.fresh, h.kinds,
    by rw [hhands]; exact h.placed⟩

/-- **One call.**  The accounting is kept when the thread knows what it has, nobody else knows
less, and the events stay placed. -/
theorem call (h : Accounting d w) (hw : w t = some (l, k))
    (htypes : d'.ulNumberOfDifferentEventTypeToManage = d.ulNumberOfDifferentEventTypeToManage)
    (halloc : d'.allocatedEvents = d.allocatedEvents) (hnext : d'.nextAddress = d.nextAddress)
    (hhands : l'.held = k'.held.map (·.address) ∧ l'.event = k'.event)
    (hknown : ∀ x ∈ k'.held,
      x.address ∈ d.allocatedEvents x.ty ∧ (x.ready = true → d'.Initialized x.address x.ty))
    (hothers : ∀ t' l k, t' ≠ t → w t' = some (l, k) → ∀ x ∈ k.held, x.ready = true →
      d'.Initialized x.address x.ty)
    (hwaiting : ∀ dest a, a ∈ d'.waiting dest →
      ∃ ty, a ∈ d.allocatedEvents ty ∧ d'.Initialized a ty)
    (hfree : ∀ ty a, a ∈ d'.vFreeEvents ty → a ∈ d.allocatedEvents ty)
    (hplaced : ∀ a, (∃ p, Placed (d.place (handsOf w)) a p) →
      ∃ p, Placed (d'.place (Function.update (handsOf w) t l'.held)) a p) :
    Accounting d' (Function.update w t (some (l', k'))) := by
  refine ⟨htypes.trans h.types, ?_, ?_, by rwa [halloc], by rwa [halloc], ?_, by rw [halloc]; exact h.kinds, ?_⟩
  · intro t' l k hw'
    rcases eq_or_ne t' t with rfl | ht
    · rw [Function.update_self] at hw'
      obtain ⟨rfl, rfl⟩ := Prod.mk.inj (Option.some.inj hw')
      exact hhands
    · rw [Function.update_of_ne ht] at hw'
      exact h.hands t' l k hw'
  · intro t' l k hw' x hx
    rw [halloc]
    rcases eq_or_ne t' t with rfl | ht
    · rw [Function.update_self] at hw'
      obtain ⟨rfl, rfl⟩ := Prod.mk.inj (Option.some.inj hw')
      exact hknown x hx
    · rw [Function.update_of_ne ht] at hw'
      exact ⟨(h.known t' l k hw' x hx).1, hothers t' l k ht hw' x hx⟩
  · rw [halloc, hnext]
    exact h.fresh
  · intro ty a ha
    rw [halloc] at ha
    rw [handsOf_update]
    exact hplaced a (h.placed ty a ha)

end Accounting

/-! ### The operations keep the accounting -/

namespace Accounting

variable {d d' : CMEventsSet} {w : T → Option (Hands × Known)} {t : T} {l : Hands} {k : Known}
  {a : Nat} {ty : EventType}

omit [DecidableEq T] in
theorem handsOf_eq (hw : w t = some (l, k)) : handsOf w t = l.held := by
  unfold handsOf
  rw [hw]

/-- What lies somewhere has been allocated. -/
theorem allocated (h : Accounting d w) {p : EventPlace T} (ha : a ∈ d.place (handsOf w) p) :
    ∃ ty, a ∈ d.allocatedEvents ty := by
  cases p with
  | free ty => exact ⟨ty, h.free ty a ha⟩
  | waiting dest =>
    obtain ⟨ty, hty, -⟩ := h.waiting dest a ha
    exact ⟨ty, hty⟩
  | hands t =>
    change a ∈ handsOf w t at ha
    cases hw : w t with
    | none =>
      unfold handsOf at ha
      rw [hw] at ha
      exact absurd ha List.not_mem_nil
    | some y =>
      obtain ⟨l, k⟩ := y
      rw [handsOf_eq hw, (h.hands t l k hw).1] at ha
      obtain ⟨x, hx, rfl⟩ := List.mem_map.mp ha
      exact ⟨x.ty, (h.known t l k hw x hx).1⟩

/-- A call that touches no event. -/
theorem pass (h : Accounting d w) (hw : w t = some (l, k)) :
    Accounting d (Function.update w t (some (l, k.after k.held))) := by
  refine h.call hw rfl rfl rfl (h.hands t l k hw) (h.known t l k hw)
    (fun t' l k _ hw' x hx => (h.known t' l k hw' x hx).2) h.waiting h.free fun a ha => ?_
  rwa [← handsOf_eq hw, Function.update_eq_self]

/-- New events are free. -/
theorem allocate {works : Bool} (h : Accounting d w)
    (hd : d.allocateMoreFreeUserEvents ty works = some d') : Accounting d' w := by
  unfold CMEventsSet.allocateMoreFreeUserEvents at hd
  split_ifs at hd
  obtain rfl := Option.some.inj hd
  have hnew : ∀ b, b ∈ List.range' d.nextAddress ty.newEvents ↔
      d.nextAddress ≤ b ∧ b < d.nextAddress + ty.newEvents := fun b => by
    rw [List.mem_range'_1]
  have halloc : ∀ ty' b, b ∈ Function.update d.allocatedEvents ty
      (d.allocatedEvents ty ++ List.range' d.nextAddress ty.newEvents) ty' ↔
      b ∈ d.allocatedEvents ty' ∨ ty' = ty ∧ b ∈ List.range' d.nextAddress ty.newEvents := by
    intro ty' b
    rcases eq_or_ne ty' ty with rfl | hty
    · rw [Function.update_self, List.mem_append]
      simp
    · rw [Function.update_of_ne hty]
      simp [hty]
  refine ⟨h.types, h.hands, ?_, ?_, ?_, ?_, ?_, ?_⟩
  · intro t l k hw x hx
    exact ⟨(halloc _ _).mpr (Or.inl (h.known t l k hw x hx).1), (h.known t l k hw x hx).2⟩
  · intro dest b hb
    obtain ⟨ty', hty', hinit⟩ := h.waiting dest b hb
    exact ⟨ty', (halloc _ _).mpr (Or.inl hty'), hinit⟩
  · intro ty' b hb
    rw [halloc]
    dsimp only at hb
    rcases eq_or_ne ty' ty with rfl | hty
    · rw [Function.update_self, List.mem_append] at hb
      exact hb.imp (h.free _ b) fun hb => ⟨rfl, hb⟩
    · rw [Function.update_of_ne hty] at hb
      exact Or.inl (h.free ty' b hb)
  · intro ty' b hb
    rcases (halloc _ _).mp hb with hb | ⟨-, hb⟩
    · exact (h.fresh ty' b hb).trans_le (Nat.le_add_right _ _)
    · exact ((hnew b).mp hb).2
  · intro ty₁ ty₂ b h₁ h₂
    rcases (halloc _ _).mp h₁ with h₁ | ⟨h₁, hb₁⟩ <;>
      rcases (halloc _ _).mp h₂ with h₂ | ⟨h₂, hb₂⟩
    · exact h.kinds _ _ _ h₁ h₂
    · exact absurd (h.fresh _ _ h₁) (not_lt.mpr ((hnew b).mp hb₂).1)
    · exact absurd (h.fresh _ _ h₂) (not_lt.mpr ((hnew b).mp hb₁).1)
    · rw [h₁, h₂]
  · intro ty' b hb
    rcases (halloc _ _).mp hb with hb | ⟨rfl, hb⟩
    · -- an old event is not among the new ones
      obtain ⟨p, hp⟩ := h.placed ty' b hb
      refine ⟨p, hp.congr fun q => ?_⟩
      have hold : (List.range' d.nextAddress ty.newEvents).count b = 0 :=
        List.count_eq_zero.mpr fun hmem =>
          absurd (h.fresh _ _ hb) (not_lt.mpr ((hnew b).mp hmem).1)
      cases q with
      | free ty₂ =>
        show (Function.update d.vFreeEvents ty _ ty₂).count b = (d.vFreeEvents ty₂).count b
        rcases eq_or_ne ty₂ ty with rfl | hty
        · rw [Function.update_self, List.count_append, hold, Nat.add_zero]
        · rw [Function.update_of_ne hty]
      | waiting dest => rfl
      | hands t => rfl
    · -- a new event is nowhere else
      refine ⟨.free ty', fun q => ?_⟩
      have hnone : ∀ q : EventPlace T, (d.place (handsOf w) q).count b = 0 := fun q =>
        List.count_eq_zero.mpr fun hmem => by
          obtain ⟨ty₂, hty₂⟩ := h.allocated hmem
          exact absurd (h.fresh _ _ hty₂) (not_lt.mpr ((hnew b).mp hb).1)
      have hone : (List.range' d.nextAddress ty'.newEvents).count b = 1 :=
        List.count_eq_one_of_mem (List.nodup_range') hb
      cases q with
      | free ty₂ =>
        show (Function.update d.vFreeEvents ty' _ ty₂).count b = _
        rcases eq_or_ne ty₂ ty' with rfl | hty
        · rw [Function.update_self, List.count_append, hone, if_pos rfl]
          exact congrArg (· + 1) (hnone (.free ty₂))
        · rw [Function.update_of_ne hty, if_neg (by simpa using hty)]
          exact hnone (.free ty₂)
      | waiting dest => exact (hnone (.waiting dest)).trans (if_neg (by simp)).symm
      | hands t => exact (hnone (.hands t)).trans (if_neg (by simp)).symm

/-- The first free event goes into the hands of the thread. -/
theorem takeFree {rest : List Nat} (h : Accounting d w) (hw : w t = some (l, k))
    (hfree : d.vFreeEvents ty = a :: rest) :
    Accounting { d with vFreeEvents := Function.update d.vFreeEvents ty rest }
      (Function.update w t
        (some ({ l with held := a :: l.held }, k.after (⟨a, ty, false⟩ :: k.held)))) := by
  have hmem : a ∈ d.vFreeEvents ty := by
    rw [hfree]
    exact List.mem_cons_self
  have hsub : ∀ ty' b, b ∈ Function.update d.vFreeEvents ty rest ty' → b ∈ d.vFreeEvents ty' := by
    intro ty' b hb
    rcases eq_or_ne ty' ty with rfl | hty
    · rw [Function.update_self] at hb
      rw [hfree]
      exact List.mem_cons_of_mem _ hb
    · rwa [Function.update_of_ne hty] at hb
  obtain ⟨hheld, hevent⟩ := h.hands t l k hw
  refine h.call hw rfl rfl rfl ⟨congrArg (a :: ·) hheld, hevent⟩ ?_
    (fun t' l k _ hw' x hx => (h.known t' l k hw' x hx).2) h.waiting
    (fun ty' b hb => h.free ty' b (hsub ty' b hb)) fun b => Moves.placed (a := a)
      (p := .free ty) (q := .hands t) ⟨by simp, hmem, ?_, ?_, ?_⟩
  · intro x hx
    rcases List.mem_cons.mp hx with rfl | hx
    · exact ⟨h.free ty a hmem, fun hready => absurd hready (by simp)⟩
    · exact h.known t l k hw x hx
  · show (Function.update d.vFreeEvents ty rest ty).Perm ((d.vFreeEvents ty).erase a)
    rw [Function.update_self, hfree, List.erase_cons_head]
  · show (Function.update (handsOf w) t (a :: l.held) t).Perm (a :: handsOf w t)
    rw [Function.update_self, handsOf_eq hw]
  · intro r hp hq
    cases r with
    | free ty' => exact Function.update_of_ne (fun h => hp (by rw [h])) ..
    | waiting dest => rfl
    | hands t' => exact Function.update_of_ne (fun h => hq (by rw [h])) ..

/-- An event in the hands of the thread becomes free. -/
theorem release {x : Held} (h : Accounting d w) (hw : w t = some (l, k)) (hx : x ∈ k.held) :
    Accounting
      { d with vFreeEvents := Function.update d.vFreeEvents x.ty (d.vFreeEvents x.ty ++ [x.address]) }
      (Function.update w t (some ({ l with held := l.held.erase x.address },
        ⟨discard x.address k.held, k.event, some x.address⟩))) := by
  obtain ⟨hheld, hevent⟩ := h.hands t l k hw
  have halloc := (h.known t l k hw x hx).1
  refine h.call hw rfl rfl rfl ⟨by rw [map_discard, ← hheld], hevent⟩
    (fun y hy => h.known t l k hw y (mem_discard hy))
    (fun t' l k _ hw' x hx => (h.known t' l k hw' x hx).2) h.waiting ?_ fun b => Moves.placed
      (a := x.address) (p := .hands t) (q := .free x.ty) ⟨by simp, ?_, ?_, ?_, ?_⟩
  · intro ty' b hb
    dsimp only at hb
    rcases eq_or_ne ty' x.ty with rfl | hty
    · rw [Function.update_self, List.mem_append, List.mem_singleton] at hb
      rcases hb with hb | rfl
      · exact h.free _ b hb
      · exact halloc
    · rw [Function.update_of_ne hty] at hb
      exact h.free ty' b hb
  · show x.address ∈ handsOf w t
    rw [handsOf_eq hw, hheld]
    exact List.mem_map_of_mem hx
  · show (Function.update (handsOf w) t _ t).Perm ((handsOf w t).erase x.address)
    rw [Function.update_self, handsOf_eq hw]
  · show (Function.update d.vFreeEvents x.ty _ x.ty).Perm (x.address :: d.vFreeEvents x.ty)
    rw [Function.update_self]
    exact List.perm_append_singleton ..
  · intro r hp hq
    cases r with
    | free ty' => exact Function.update_of_ne (fun h => hq (by rw [h])) ..
    | waiting dest => rfl
    | hands t' => exact Function.update_of_ne (fun h => hp (by rw [h])) ..

/-- What an object that is not in the hands of the thread is known to be stays true. -/
theorem initialized_of_ne {o : EventObject} {b : Nat} (hb : b ≠ a)
    (hinit : d.Initialized b ty) :
    CMEventsSet.Initialized { d with objects := Function.update d.objects a o } b ty := by
  unfold CMEventsSet.Initialized at hinit ⊢
  dsimp only
  rwa [Function.update_of_ne hb]

/-- An event in the hands of the thread is initialized for its type. -/
theorem initEvent {x : Held} {dest : String} {expiration : Nat} (h : Accounting d w)
    (hw : w t = some (l, k)) (hx : x ∈ k.held) :
    Accounting { d with
        objects := Function.update d.objects x.address
          ⟨.eventInitialized, x.ty.lTypeIdentifier, dest, expiration⟩ }
      (Function.update w t (some (l, k.after (setReady x.address true k.held)))) := by
  obtain ⟨hheld, hevent⟩ := h.hands t l k hw
  have halloc := (h.known t l k hw x hx).1
  -- whatever is known of an allocated object stays true
  have hkeep : ∀ b ty, b ∈ d.allocatedEvents ty → (b = x.address ∨ d.Initialized b ty) →
      CMEventsSet.Initialized { d with
        objects := Function.update d.objects x.address
          ⟨.eventInitialized, x.ty.lTypeIdentifier, dest, expiration⟩ } b ty := by
    intro b ty hb hinit
    rcases eq_or_ne b x.address with rfl | hne
    · obtain rfl := h.kinds _ _ _ halloc hb
      unfold CMEventsSet.Initialized
      dsimp only
      rw [Function.update_self]
      exact ⟨rfl, rfl⟩
    · exact initialized_of_ne hne (hinit.resolve_left hne)
  refine h.call hw rfl rfl rfl ⟨by rw [hheld]; exact (map_setReady ..).symm, hevent⟩ ?_ ?_ ?_ h.free
    fun b hb => ?_
  · intro y hy
    rcases mem_setReady hy with hold | ⟨ha, -, x', hx', ha', hty⟩
    · obtain ⟨hy₁, hy₂⟩ := h.known t l k hw y hold
      exact ⟨hy₁, fun hready => hkeep _ _ hy₁ (Or.inr (hy₂ hready))⟩
    · have hy₁ : y.address ∈ d.allocatedEvents y.ty := by
        rw [ha, ← hty, ← ha']
        exact (h.known t l k hw x' hx').1
      exact ⟨hy₁, fun _ => hkeep _ _ hy₁ (Or.inl ha)⟩
  · intro t' l k _ hw' y hy hready
    obtain ⟨hy₁, hy₂⟩ := h.known t' l k hw' y hy
    exact hkeep _ _ hy₁ (Or.inr (hy₂ hready))
  · intro dest' b hb
    obtain ⟨ty, hty, hinit⟩ := h.waiting dest' b hb
    exact ⟨ty, hty, hkeep _ _ hty (Or.inr hinit)⟩
  · rw [← handsOf_eq hw, Function.update_eq_self]
    exact hb

/-- An event in the hands of the thread is finished. -/
theorem finishEvent {x : Held} {o : EventObject} (h : Accounting d w) (hw : w t = some (l, k))
    (hx : x ∈ k.held) :
    Accounting { d with objects := Function.update d.objects x.address o }
      (Function.update w t (some (l, k.after (setReady x.address false k.held)))) := by
  obtain ⟨hheld, hevent⟩ := h.hands t l k hw
  refine h.call hw rfl rfl rfl ⟨by rw [hheld]; exact (map_setReady ..).symm, hevent⟩ ?_ ?_ ?_ h.free
    fun b hb => ?_
  · intro y hy
    rcases mem_setReady hy with hold | ⟨ha, hr, x', hx', ha', hty⟩
    · obtain ⟨hy₁, hy₂⟩ := h.known t l k hw y hold
      refine ⟨hy₁, fun hready => initialized_of_ne (fun ha => ?_) (hy₂ hready)⟩
      rw [ready_of_mem_setReady (h.count_held hw hx) hy ha] at hready
      cases hready
    · refine ⟨?_, fun hready => ?_⟩
      · rw [ha, ← hty, ← ha']
        exact (h.known t l k hw x' hx').1
      · rw [hr] at hready
        cases hready
  · intro t' l' k' ht hw' y hy hready
    refine initialized_of_ne (fun ha => ?_) ((h.known t' l' k' hw' y hy).2 hready)
    -- the event would be in two hands
    have hmem : x.address ∈ d.place (handsOf w) (.hands t') := by
      show _ ∈ handsOf w t'
      rw [handsOf_eq hw', (h.hands t' l' k' hw').1, ← ha]
      exact List.mem_map_of_mem hy
    exact ht (EventPlace.hands.inj (h.held_only hw hx hmem))
  · intro dest b hb
    obtain ⟨ty, hty, hinit⟩ := h.waiting dest b hb
    refine ⟨ty, hty, initialized_of_ne (fun ha => ?_) hinit⟩
    have hplace := h.held_only hw hx (q := .waiting dest) (by rw [← ha]; exact hb)
    cases hplace
  · rw [← handsOf_eq hw, Function.update_eq_self]
    exact hb

theorem waiting_setEvents (d : CMEventsSet) (dest : String) (m : EventsMultiMap) (dest' : String) :
    CMEventsSet.waiting { d with eventsSet := d.eventsSet.setEvents dest m } dest'
      = if dest' = dest then m.entries.map fun x => x.2.address else d.waiting dest' := by
  unfold CMEventsSet.waiting
  dsimp only
  rw [EventsSet.events_setEvents]
  split_ifs <;> rfl

/-- An initialized event goes from the hands of the thread into the set. -/
theorem addEvent {x : Held} {dest : String} {expiration : Nat} {e : Event} (h : Accounting d w)
    (hw : w t = some (l, k)) (hx : x ∈ k.held) (hready : x.ready = true)
    (he : e.address = x.address) :
    Accounting
      { d with
        eventsSet := d.eventsSet.setEvents dest ((d.eventsSet.events dest).insert expiration e) }
      (Function.update w t (some ({ l with held := l.held.erase x.address },
        k.after (discard x.address k.held)))) := by
  obtain ⟨hheld, hevent⟩ := h.hands t l k hw
  obtain ⟨halloc, hinit⟩ := h.known t l k hw x hx
  have hperm : (((d.eventsSet.events dest).insert expiration e).entries.map
      fun x => x.2.address).Perm (x.address :: d.waiting dest) := by
    rw [← he]
    exact (MultiMap.insertEntries_perm expiration e (d.eventsSet.events dest).entries).map _
  refine h.call hw rfl rfl rfl ⟨by rw [Known.after, map_discard, ← hheld], hevent⟩
    (fun y hy => h.known t l k hw y (mem_discard hy))
    (fun t' l k _ hw' x hx => (h.known t' l k hw' x hx).2) ?_ h.free fun b => Moves.placed
      (a := x.address) (p := .hands t) (q := .waiting dest) ⟨by simp, ?_, ?_, ?_, ?_⟩
  · intro dest' b hb
    rw [waiting_setEvents] at hb
    split_ifs at hb with hdest
    · rcases List.mem_cons.mp (hperm.mem_iff.mp hb) with rfl | hb
      · exact ⟨x.ty, halloc, hinit hready⟩
      · exact h.waiting dest b hb
    · exact h.waiting dest' b hb
  · show x.address ∈ handsOf w t
    rw [handsOf_eq hw, hheld]
    exact List.mem_map_of_mem hx
  · show (Function.update (handsOf w) t _ t).Perm ((handsOf w t).erase x.address)
    rw [Function.update_self, handsOf_eq hw]
  · show (CMEventsSet.waiting _ dest).Perm (x.address :: d.waiting dest)
    rw [waiting_setEvents, if_pos rfl]
    exact hperm
  · intro r hp hq
    cases r with
    | free ty' => rfl
    | waiting dest' =>
      show CMEventsSet.waiting _ dest' = d.waiting dest'
      rw [waiting_setEvents, if_neg fun h => hq (by rw [h])]
    | hands t' => exact Function.update_of_ne (fun h => hp (by rw [h])) ..

/-- The first event of the set goes into the hands of a processor, which knows that it is
initialized for its type. -/
theorem takeFirst {dest : String} {key : Nat} {e : Event} (h : Accounting d w)
    (hw : w t = some (l, k)) (hbegin : (d.eventsSet.events dest).begin? = some (key, e)) :
    ∃ ty, Accounting
      { d with eventsSet := d.eventsSet.setEvents dest ((d.eventsSet.events dest).erase key) }
      (Function.update w t (some (⟨e.address :: l.held, some e.address⟩,
        ⟨⟨e.address, ty, true⟩ :: k.held, some e.address, none⟩))) := by
  have hentries : (d.eventsSet.events dest).entries
      = (key, e) :: ((d.eventsSet.events dest).erase key).entries := by
    rw [MultiMap.erase_begin? hbegin]
    exact (List.cons_head?_tail hbegin).symm
  have hwaiting : d.waiting dest
      = e.address :: ((d.eventsSet.events dest).erase key).entries.map fun x => x.2.address := by
    unfold CMEventsSet.waiting
    rw [hentries, List.map_cons]
  have hmem : e.address ∈ d.waiting dest := by
    rw [hwaiting]
    exact List.mem_cons_self
  obtain ⟨ty, halloc, hinit⟩ := h.waiting dest _ hmem
  obtain ⟨hheld, -⟩ := h.hands t l k hw
  refine ⟨ty, h.call hw rfl rfl rfl ⟨congrArg (e.address :: ·) hheld, rfl⟩ ?_
    (fun t' l k _ hw' x hx => (h.known t' l k hw' x hx).2) ?_ h.free fun b => Moves.placed
      (a := e.address) (p := .waiting dest) (q := .hands t) ⟨by simp, hmem, ?_, ?_, ?_⟩⟩
  · intro x hx
    rcases List.mem_cons.mp hx with rfl | hx
    · exact ⟨halloc, fun _ => hinit⟩
    · exact h.known t l k hw x hx
  · intro dest' b hb
    rw [waiting_setEvents] at hb
    split_ifs at hb with hdest
    · refine h.waiting dest b ?_
      rw [hwaiting]
      exact List.mem_cons_of_mem _ hb
    · exact h.waiting dest' b hb
  · show (CMEventsSet.waiting _ dest).Perm ((d.waiting dest).erase e.address)
    rw [waiting_setEvents, if_pos rfl, hwaiting, List.erase_cons_head]
  · show (Function.update (handsOf w) t (e.address :: l.held) t).Perm (e.address :: handsOf w t)
    rw [Function.update_self, handsOf_eq hw]
  · intro r hp hq
    cases r with
    | free ty' => rfl
    | waiting dest' =>
      show CMEventsSet.waiting _ dest' = d.waiting dest'
      rw [waiting_setEvents, if_neg fun h => hp (by rw [h])]
    | hands t' => exact Function.update_of_ne (fun h => hq (by rw [h])) ..

end Accounting

/-! ### The contract of the threads -/

/-- The accounting as a contract.  Right after a call that has released an event, the event is
in the free vector of its type. -/
def eventContract (T : Type) [DecidableEq T] :
    Contract EventOp EventOp.Result Hands CMEventsSet T EventChoice Known where
  spec := eventSpec
  inv := Accounting
  begin := ⟨[], none, none⟩
  done := Known.Done
  effect d k := ∀ a, k.released = some a → ∃ ty, a ∈ d.allocatedEvents ty ∧ a ∈ d.vFreeEvents ty
  meets op c _ d :=
    ∀ pevEvent, op = .addEvent pevEvent → (d.addEvent pevEvent c.works c.signalWorks).1 ≠ .signalFailed

/-- What `getFreeEvent` can do: more events may be allocated, and the first free one is taken if
there is one. -/
theorem CMEventsSet.getFreeEvent_cases (ty : EventType) (works : Bool) (d : CMEventsSet) :
    ∃ d₁, (d₁ = d ∨ d.allocateMoreFreeUserEvents ty works = some d₁) ∧
      (d.getFreeEvent ty works = (none, d₁) ∨
        ∃ a rest, d₁.vFreeEvents ty = a :: rest ∧
          d.getFreeEvent ty works
            = (some a, { d₁ with vFreeEvents := Function.update d₁.vFreeEvents ty rest })) := by
  have htake : ∀ d₁ : CMEventsSet, d₁.takeFreeEvent ty = (none, d₁) ∨
      ∃ a rest, d₁.vFreeEvents ty = a :: rest ∧ d₁.takeFreeEvent ty
        = (some a, { d₁ with vFreeEvents := Function.update d₁.vFreeEvents ty rest }) := by
    intro d₁
    unfold takeFreeEvent
    cases hfree : d₁.vFreeEvents ty with
    | nil => exact Or.inl rfl
    | cons a rest => exact Or.inr ⟨a, rest, rfl, rfl⟩
  unfold getFreeEvent
  split_ifs with htypes hempty
  · exact ⟨d, Or.inl rfl, Or.inl rfl⟩
  · cases halloc : d.allocateMoreFreeUserEvents ty works with
    | none => exact ⟨d, Or.inl rfl, Or.inl rfl⟩
    | some d₁ => exact ⟨d₁, Or.inr rfl, htake d₁⟩
  · exact ⟨d, Or.inl rfl, htake d⟩

namespace Accounting

variable {d : CMEventsSet} {w : T → Option (Hands × Known)} {t : T} {l : Hands} {k : Known}

/-- **Every call keeps the accounting**, unless it is an `addEvent` whose signal fails. -/
theorem calls (h : Accounting d w) (hw : w t = some (l, k)) (op : EventOp) (c : EventChoice)
    (hmeets : (eventContract T).meets op c l d) {Q : op.Result → Known → Prop}
    (hpre : eventSpec.pre op k Q) :
    ∃ k', Q (op.exec c l d).1 k' ∧ (eventContract T).effect (op.exec c l d).2.2 k' ∧
      Accounting (op.exec c l d).2.2 (Function.update w t (some ((op.exec c l d).2.1, k'))) := by
  have hnone : ∀ d' k', k'.released = none → (eventContract T).effect d' k' := by
    intro d' k' hreleased a ha
    rw [hreleased] at ha
    cases ha
  cases op with
  | getFreeEvent ty =>
    obtain ⟨d₁, hd₁, hresult⟩ := d.getFreeEvent_cases ty c.works
    have h₁ : Accounting d₁ w := by
      rcases hd₁ with rfl | hd₁
      · exact h
      · exact h.allocate hd₁
    dsimp only [EventOp.exec]
    rcases hresult with hget | ⟨a, rest, hfree, hget⟩
    · rw [hget]
      exact ⟨_, hpre.1, hnone _ _ rfl, h₁.pass hw⟩
    · rw [hget]
      exact ⟨_, hpre.2 a, hnone _ _ rfl, h₁.takeFree hw hfree⟩
  | init a id dest =>
    obtain ⟨⟨x, hx, rfl, rfl⟩, hfalse, htrue⟩ := hpre
    dsimp only [EventOp.exec, CMEventsSet.initEvent]
    split_ifs with hfails
    · exact ⟨_, hfalse, hnone _ _ rfl, h.pass hw⟩
    · exact ⟨_, htrue, hnone _ _ rfl, h.initEvent hw hx⟩
  | finish a =>
    obtain ⟨⟨x, hx, rfl⟩, hQ⟩ := hpre
    dsimp only [EventOp.exec, CMEventsSet.finishEvent]
    split_ifs with hfails
    · refine ⟨_, hQ false, hnone _ _ rfl, ?_⟩
      have hsame := h.finishEvent (o := d.objects x.address) hw hx
      rwa [Function.update_eq_self] at hsame
    · exact ⟨_, hQ true, hnone _ _ rfl, h.finishEvent hw hx⟩
  | addEvent a =>
    obtain ⟨⟨x, hx, rfl, hready⟩, hfalse, htrue⟩ := hpre
    have hsignal := hmeets x.address rfl
    dsimp only [EventOp.exec]
    unfold CMEventsSet.addEvent at hsignal ⊢
    cases hworks : c.works with
    | false => exact ⟨_, hfalse, hnone _ _ rfl, h.pass hw⟩
    | true =>
      rw [hworks] at hsignal
      rcases EventsSet.addEvent_cases (some (d.event x.address)) d.eventsSet with
        ⟨err, hadd⟩ | ⟨e, b, he, -, hadd⟩
      · rw [hadd]
        exact ⟨_, hfalse, hnone _ _ rfl, h.pass hw⟩
      · obtain rfl := Option.some.inj he
        rw [hadd] at hsignal ⊢
        dsimp only at hsignal ⊢
        rw [if_neg (by simp)] at hsignal ⊢
        cases hfails : b && !c.signalWorks with
        | true =>
          rw [hfails] at hsignal
          exact absurd rfl hsignal
        | false => exact ⟨_, htrue, hnone _ _ rfl, h.addEvent hw hx hready rfl⟩
  | releaseEvent ty a =>
    obtain ⟨⟨x, hx, rfl, rfl⟩, hQ⟩ := hpre
    have htypes : ¬ x.ty.index ≥ d.ulNumberOfDifferentEventTypeToManage := by
      rw [h.types]
      cases x.ty <;> decide
    dsimp only [EventOp.exec, CMEventsSet.releaseEvent]
    rw [if_neg htypes]
    refine ⟨_, hQ, fun b hb => ?_, h.release hw hx⟩
    obtain rfl := Option.some.inj hb
    refine ⟨x.ty, (h.known t l k hw x hx).1, ?_⟩
    dsimp only
    rw [Function.update_self]
    exact List.mem_append_right _ List.mem_cons_self
  | getAndRemoveFirstEvent dest =>
    dsimp only [EventOp.exec, CMEventsSet.getAndRemoveFirstEvent]
    rcases EventsSet.takeFirst_cases ⟨dest, true, 1, 0, c.number⟩ c.number d.eventsSet with
      ⟨err, htake, -⟩ | ⟨-, htake⟩ | ⟨key, e, hbegin, -, htake⟩
    · rw [htake]
      exact ⟨_, hpre.1, hnone _ _ rfl, h.pass hw⟩
    · rw [htake]
      exact ⟨_, hpre.1, hnone _ _ rfl, h.pass hw⟩
    · rw [htake]
      obtain ⟨ty, haccounting⟩ := h.takeFirst hw hbegin
      exact ⟨_, hpre.2 e.address ty, hnone _ _ rfl, haccounting⟩
  | getTypeIdentifier a =>
    obtain ⟨x, hx, rfl, hready, hQ⟩ := hpre
    obtain ⟨hstatus, hid⟩ := (h.known t l k hw x hx).2 hready
    dsimp only [EventOp.exec, CMEventsSet.getTypeIdentifier]
    rw [if_neg (by simp [hstatus]), hid]
    exact ⟨_, hQ, hnone _ _ rfl, h.pass hw⟩
  | outcome => exact ⟨_, hpre c.works, hnone _ _ rfl, h.pass hw⟩
  | number => exact ⟨_, hpre c.number, hnone _ _ rfl, h.pass hw⟩

end Accounting

theorem eventContract_kept : (eventContract T).Kept eventTraffic where
  programs := EventTask.body_wp
  starts := fun h hw => Accounting.starts h hw
  ends := fun h hw hdone => Accounting.ends h hw hdone.1
  calls := fun h hw hmeets hpre => Accounting.calls h hw _ _ hmeets hpre

/-! ### Runs -/

namespace TrafficState

/-- The events in hands, read from the threads and from what they know. -/
theorem hands_eq {s : TrafficState T} {w : T → Option (Hands × Known)}
    (hfits : ∀ t, (eventContract T).Fits (s.threads t) (w t)) : s.hands = handsOf w := by
  funext t
  have hfit := hfits t
  unfold hands handsOf
  cases hth : s.threads t with
  | none =>
    cases hw : w t with
    | none => rfl
    | some y =>
      rw [hth, hw] at hfit
      exact hfit.elim
  | some th =>
    cases hw : w t with
    | none =>
      rw [hth, hw] at hfit
      exact hfit.elim
    | some y =>
      rw [hth, hw] at hfit
      exact congrArg Hands.held hfit.1

theorem accounted {s : TrafficState T} (hs : (eventContract T).Covered s) : Accounted s := by
  obtain ⟨w, hinv, hfits⟩ := hs
  intro ty a ha
  obtain ⟨p, hp⟩ := hinv.placed ty a ha
  rw [← hands_eq hfits] at hp
  refine ⟨p, hp, fun ty' hty' => ?_⟩
  subst hty'
  have hmem : a ∈ s.shared.vFreeEvents ty' := List.count_pos_iff.mp (by
    have := hp.count_self
    change (s.shared.vFreeEvents ty').count a = 1 at this
    omega)
  exact hinv.kinds _ _ _ (hinv.free ty' a hmem) ha

theorem initial_covered : (eventContract T).Covered (initial T) := by
  refine ⟨fun _ => none, ?_, fun t => trivial⟩
  refine ⟨rfl, ?_, ?_, ?_, ?_, ?_, ?_, ?_⟩
  · intro t l k hw
    cases hw
  · intro t l k hw
    cases hw
  · intro dest a ha
    exact absurd ha List.not_mem_nil
  · intro ty a ha
    exact absurd ha List.not_mem_nil
  · intro ty a ha
    exact absurd ha List.not_mem_nil
  · intro ty ty' a ha
    exact absurd ha List.not_mem_nil
  · intro ty a ha
    exact absurd ha List.not_mem_nil

end TrafficState

/-- Only taking an event from the set changes which one is processed. -/
theorem EventOp.exec_event (op : EventOp) (c : EventChoice) (l : Hands) (d : CMEventsSet) :
    (op.exec c l d).2.1.event = l.event ∨ (op.exec c l d).2.1.held ≠ [] := by
  cases op with
  | getFreeEvent ty =>
    dsimp only [EventOp.exec]
    split <;> exact Or.inl rfl
  | init a id dest => exact Or.inl rfl
  | finish a => exact Or.inl rfl
  | addEvent a =>
    dsimp only [EventOp.exec]
    split <;> exact Or.inl rfl
  | releaseEvent ty a =>
    dsimp only [EventOp.exec]
    split <;> exact Or.inl rfl
  | getAndRemoveFirstEvent dest =>
    dsimp only [EventOp.exec]
    split
    · exact Or.inl rfl
    · exact Or.inr fun h => by cases h
  | getTypeIdentifier a => exact Or.inl rfl
  | outcome => exact Or.inl rfl
  | number => exact Or.inl rfl

namespace TrafficState

theorem meets_of_not {s : TrafficState T} {a : Action EventTask EventChoice T}
    (h : ¬ SignalFails s a) : (eventContract T).Meets s a := by
  cases a with
  | start t r => trivial
  | call t c =>
    rintro op f l hth pevEvent rfl hfails
    exact h ⟨pevEvent, f, l, hth, hfails⟩

/-- **A processor that becomes idle** has released its event, to the right vector. -/
theorem returned {s s' : TrafficState T} {a : Action EventTask EventChoice T}
    (hs : (eventContract T).Covered s) (hmeets : (eventContract T).Meets s a)
    (h : step eventTraffic s a = some s') : Returned s s' := by
  intro t th pevEvent ht hevent ht'
  obtain ⟨op, c, w, k, hinv, hw, ⟨hheld, hreleased⟩, heffect⟩ :=
    Contract.Covered.idle eventContract_kept hs hmeets h ht ht'
  obtain ⟨hhands, hknown⟩ := hinv.hands t _ k hw
  rw [hheld, List.map_nil] at hhands
  -- the last call has not taken another event
  have hsame := (op.exec_event c th.data s.shared).resolve_right fun hne => hne hhands
  have hk : k.event = some pevEvent := by
    rw [← hknown, ← hevent]
    exact hsame
  obtain ⟨ty, halloc, hfree⟩ := heffect pevEvent (hreleased pevEvent hk)
  refine ⟨ty, halloc, ?_⟩
  obtain ⟨p, hp⟩ := hinv.placed ty pevEvent halloc
  have hplace : .free ty = p := hp.eq_of_mem hfree
  have hcount := hp.count_self
  rwa [← hplace] at hcount

/-- **Where the events are**, in every run in which no `addEvent` reports an error for an event
that it has added: in one place each, and after `processEvent` in the free vector of their
type. -/
theorem run_accounted (as : List (Action EventTask EventChoice T))
    (h : Transition.Always (step eventTraffic) (fun s a _ => ¬ SignalFails s a) (initial T) as) :
    Transition.Always (step eventTraffic) (fun s _ s' => Accounted s' ∧ Returned s s')
      (initial T) as := by
  refine Transition.always_of_invariant ?_ initial_covered h
  intro s a s' hs hmeets hstep
  have hcovered := hs.step eventContract_kept (meets_of_not hmeets) hstep
  exact ⟨hcovered, accounted hcovered, returned hs (meets_of_not hmeets) hstep⟩

/-- A thread makes its next call, and the signal works. -/
def working (n : Nat) : Action EventTask EventChoice Unit := .call () ⟨true, true, n⟩

theorem not_signalFails (n : Nat) (s : TrafficState Unit) : ¬ SignalFails s (working n) := by
  rintro ⟨pevEvent, f, l, -, hfails⟩
  dsimp only at hfails
  unfold CMEventsSet.addEvent at hfails
  rw [if_neg (by simp)] at hfails
  split at hfails
  · cases hfails
  · rw [if_neg (by simp)] at hfails
    cases hfails

/-- A timer adds an event for millisecond 5, and a processor takes and processes it. -/
def checkSocketsPoolRun : List (Action EventTask EventChoice Unit) :=
  [.start () .checkSocketsPoolTimes, working 5, working 5, working 5, working 5,
    .start () (.processor "CMProcessor" 1), working 5, working 5, working 0, working 0, working 0,
    working 0]

theorem run_accounted_checkSocketsPool :
    (Transition.run (step eventTraffic) (initial Unit) checkSocketsPoolRun).map
        (fun s => (hands s (), s.shared.waiting "CMProcessor", s.shared.vFreeEvents .checkSocketsPool))
      = some ([], [], List.range' 1 19 ++ [0]) ∧
    Transition.Always (step eventTraffic) (fun s _ s' => Accounted s' ∧ Returned s s')
      (initial Unit) checkSocketsPoolRun := by
  refine ⟨by decide +kernel, run_accounted checkSocketsPoolRun ?_⟩
  refine Transition.always_of_actions (fun a ha s s' => ?_) _
  simp only [checkSocketsPoolRun, List.mem_cons, List.not_mem_nil, or_false] at ha
  rcases ha with rfl | rfl | rfl | rfl | rfl | rfl | rfl | rfl | rfl | rfl | rfl | rfl
  all_goals first | exact not_signalFails _ s | exact id

/-- The producer of an event whose signal fails releases it, although it is in the set. -/
theorem run_not_accounted :
    ∃ s, Transition.run (step eventTraffic) (initial Unit)
        [.start () .checkSocketsPoolTimes, working 5, working 5, working 5,
          .call () ⟨true, false, 0⟩, working 0, working 0] = some s ∧ ¬ Accounted s := by
  have heval : (Transition.run (step eventTraffic) (initial Unit)
      [.start () .checkSocketsPoolTimes, working 5, working 5, working 5,
        .call () ⟨true, false, 0⟩, working 0, working 0]).map
      (fun s => (s.shared.allocatedEvents .checkSocketsPool, s.shared.waiting "CMProcessor",
        s.shared.vFreeEvents .checkSocketsPool))
      = some (List.range' 0 20, [0], List.range' 1 19 ++ [0]) := by decide +kernel
  obtain ⟨s, hrun, hs⟩ := Option.map_eq_some_iff.mp heval
  obtain ⟨halloc, hrest⟩ := Prod.mk.inj hs
  obtain ⟨hwaiting, hfree⟩ := Prod.mk.inj hrest
  refine ⟨s, hrun, fun h => ?_⟩
  obtain ⟨p, hp, -⟩ := h .checkSocketsPool 0 (by rw [halloc]; decide)
  have hp₁ : .waiting "CMProcessor" = p := hp.eq_of_mem (by
    show 0 ∈ s.shared.waiting "CMProcessor"
    rw [hwaiting]
    decide)
  have hp₂ : .free .checkSocketsPool = p := hp.eq_of_mem (by
    show 0 ∈ s.shared.vFreeEvents .checkSocketsPool
    rw [hfree]
    decide)
  cases hp₁.trans hp₂.symm

end TrafficState

end CatraLibraries
