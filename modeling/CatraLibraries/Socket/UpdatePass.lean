/-
# The calls of updateSocketStatus

With `bAllowDeletionSocketFromUpdateMethod`, `checkSocketsStatus` writes down the records of the
ready sockets and then calls `updateSocketStatus` for each of them, which reads the record when
its turn has come.  An earlier call may have deleted the socket by then, and the record is free,
or belongs to a socket that was added since.

A run here is a sequence of passes, with the calls of the methods of the pool between the calls of
`updateSocketStatus`: what an implementation of it does.
-/
import CatraLibraries.Socket.PollSlots

namespace CatraLibraries

namespace SocketsPool

open HashMaps Transition

/-- A pool, the sockets that are still to be updated in the pass, and the pool when the pass wrote
them down. -/
structure Pass where
  system : System
  vSocketsToBeUpdated : List SocketToBeUpdated
  recorded : Pool

/-- The steps of a pass, and the calls that are made before, in and after it. -/
inductive PassAction
  | checkSocketsStatus (pollReturn : PollReturn) (records : List ℕ)
  | updateSocketStatus
  | call (action : Action)

/-- `checkSocketsStatus` begins when no other one is at work, and goes through the records in any
order. -/
def passStep (p : Pass) : PassAction → Option Pass
  | .checkSocketsStatus pollReturn records =>
    if p.vSocketsToBeUpdated = [] ∧ records.Perm (values p.system.pool.setByFileDescriptor) then
      match checkSocketsStatus pollReturn records p.system.pool with
      | (.error _, pool) => some ⟨{ p.system with pool := pool }, [], pool⟩
      | (.ok vSocketsToBeUpdated, pool) =>
        some ⟨{ p.system with pool := pool }, vSocketsToBeUpdated, pool⟩
    else none
  | .updateSocketStatus =>
    match p.vSocketsToBeUpdated with
    | [] => none
    | _ :: vSocketsToBeUpdated => some { p with vSocketsToBeUpdated := vSocketsToBeUpdated }
  | .call action => (step p.system action).map fun system => { p with system := system }

/-- A pool after `init`, before the first pass. -/
def Pass.init (ulMaxSocketsNumber : ℕ) (psiSocketsInfo : ℕ → SocketInfo)
    (ppfDescriptors : ℕ → PollFd) (sockets : ℕ → SocketImpl) : Pass :=
  ⟨System.init ulMaxSocketsNumber psiSocketsInfo ppfDescriptors sockets, [],
    SocketsPool.init ulMaxSocketsNumber psiSocketsInfo ppfDescriptors sockets⟩

/-- The next call is for a registered socket, with what it was found ready for. -/
def UpdatesOwn (p : Pass) : PassAction → Prop
  | .updateSocketStatus => ∀ e ∈ p.vSocketsToBeUpdated.head?,
    (updateSocketStatus p.system.pool e).psSocket ∈ p.system.registered ∧
      updateSocketStatus p.system.pool e = updateSocketStatus p.recorded e
  | _ => True

/-- A deletion frees the record of the socket that it is given, and none that is still to be
updated. -/
def SparesPending (p : Pass) : PassAction → Prop
  | .call (.deleteSocket (some psSocket)) => ∀ i,
    p.system.pool.setByFileDescriptor.lookup (p.system.pool.sockets psSocket).iFd = some i →
      p.system.pool.socketOf i = psSocket ∧ ∀ e ∈ p.vSocketsToBeUpdated, e.psiSocketInfo ≠ i
  | _ => True

/-- A deletion is of a registered socket, and an addition of one that is not to be updated in
the pass. -/
def AddsNew (p : Pass) : PassAction → Prop
  | .call (.addSocket _ _ (some psSocket) _) => ∀ e ∈ p.vSocketsToBeUpdated,
    p.recorded.socketOf e.psiSocketInfo ≠ psSocket
  | .call (.deleteSocket (some psSocket)) => ∀ i,
    p.system.pool.setByFileDescriptor.lookup (p.system.pool.sockets psSocket).iFd = some i →
      p.system.pool.socketOf i = psSocket
  | _ => True

variable {s s' : System} {p p' : Pass} {pool pool' : Pool} {i psSocket : ℕ} {e : SocketToBeUpdated}

/-! ### The records of a pass -/

theorem mem_socketsToBeUpdated {psiSocketsInfo : ℕ → SocketInfo} {records : List ℕ}
    {ppfDescriptors : ℕ → PollFd}
    (he : e ∈ (socketsToBeUpdated psiSocketsInfo records ppfDescriptors).1) :
    e.psiSocketInfo ∈ records := by
  induction records generalizing ppfDescriptors with
  | nil => cases he
  | cons i records ih =>
    unfold socketsToBeUpdated at he
    dsimp only at he
    split at he
    · rcases List.mem_cons.mp he with rfl | he
      · exact List.mem_cons_self
      · exact List.mem_cons_of_mem _ (ih he)
    · exact List.mem_cons_of_mem _ (ih he)

/-- `checkSocketsStatus` changes the slots only, and writes down records that it went through. -/
theorem checkSocketsStatus_spec (pollReturn : PollReturn) (records : List ℕ) (pool : Pool) :
    (∃ error, checkSocketsStatus pollReturn records pool = (.error error, pool)) ∨
    (∃ v ppfDescriptors, checkSocketsStatus pollReturn records pool =
      (.ok v, { pool with ppfDescriptors := ppfDescriptors }) ∧
        ∀ e ∈ v, e.psiSocketInfo ∈ records) := by
  unfold checkSocketsStatus
  split
  · exact .inl ⟨_, rfl⟩
  · split
    · exact .inl ⟨_, rfl⟩
    · exact .inl ⟨_, rfl⟩
    · exact .inl ⟨_, rfl⟩
    · exact .inr ⟨_, _, rfl, fun _ => mem_socketsToBeUpdated⟩

namespace Registered

/-- A socket is registered once. -/
theorem nodup_registered (h : Registered s) : s.registered.Nodup := by
  refine h.sockets.nodup_iff.mp (List.Nodup.map_on ?_ (List.nodup_append.mp h.nodup).2.1)
  intro i hi j hj hij
  exact h.socketOf_injective hi hj hij

/-- The slots do not matter to the records. -/
theorem of_slots (h : Registered s) (ppfDescriptors : ℕ → PollFd) :
    Registered { s with pool := { s.pool with ppfDescriptors := ppfDescriptors } } :=
  ⟨h.partition, h.descriptor, h.sockets⟩

/-- **One step** keeps the records, when a deletion frees the record of its socket. -/
theorem step (h : Registered s) {a : Action} (hstep : SocketsPool.step s a = some s')
    (hfits : ∀ psSocket, a = .deleteSocket (some psSocket) → ∀ i,
      s.pool.setByFileDescriptor.lookup (s.pool.sockets psSocket).iFd = some i →
        s.pool.socketOf i = psSocket) :
    Registered s' := by
  rcases step_cases hstep with ⟨hsame, hreg, -⟩ | ⟨_, _, psSocket, _, _, -, hadded, hreg⟩ |
    ⟨psSocket, psiSocketInfo, rfl, hdel, hreg⟩ | ⟨psSocket, impl, -, hnot, rfl⟩
  · have hregistered := h.of_unchanged hsame
    rwa [← hreg] at hregistered
  · have hregistered := h.of_added hadded
    rwa [← hreg] at hregistered
  · have hregistered := h.of_deleted hdel.found (hfits _ rfl _ hdel.found) hdel.number hdel.free
      hdel.byFileDescriptor hdel.sockets hdel.infos
    rwa [← hreg] at hregistered
  · exact h.of_socket hnot impl

/-- **One step leaves a used record as it is**, unless it frees it. -/
theorem step_record (h : Registered s) {a : Action} (hstep : SocketsPool.step s a = some s')
    (hi : i ∈ values s.pool.setByFileDescriptor)
    (hkeep : ∀ psSocket, a = .deleteSocket (some psSocket) →
      s.pool.setByFileDescriptor.lookup (s.pool.sockets psSocket).iFd ≠ some i) :
    i ∈ values s'.pool.setByFileDescriptor ∧ s'.pool.psiSocketsInfo i = s.pool.psiSocketsInfo i := by
  rcases step_cases hstep with ⟨hsame, -, -⟩ | ⟨_, _, psSocket, _, psiSocketInfo, -, hadded, -⟩ |
    ⟨psSocket, psiSocketInfo, rfl, hdel, -⟩ | ⟨psSocket, impl, -, hnot, rfl⟩
  · rw [hsame.byFileDescriptor]
    exact ⟨hi, hsame.infos i (h.notMem_free hi)⟩
  · have hfree : psiSocketInfo ∈ s.pool.vFreeSocketsInfo := hadded.free ▸ List.mem_cons_self
    rw [hadded.byFileDescriptor, values_insert hadded.fresh, hadded.infos]
    refine ⟨List.mem_cons_of_mem _ hi, Function.update_of_ne ?_ _ _⟩
    rintro rfl
    exact h.notMem_free hi hfree
  · have hvalues := values_perm_erase hdel.found
    rw [hdel.byFileDescriptor, hdel.infos]
    refine ⟨(List.mem_cons.mp (hvalues.mem_iff.mp hi)).resolve_left ?_, rfl⟩
    rintro rfl
    exact hkeep _ rfl hdel.found
  · exact ⟨hi, rfl⟩

end Registered

/-! ### A pass that spares the pending records -/

/-- The records that are still to be updated are used, and as they were when they were written
down. -/
structure Pending (p : Pass) : Prop where
  registered : Registered p.system
  used : ∀ e ∈ p.vSocketsToBeUpdated, e.psiSocketInfo ∈ values p.system.pool.setByFileDescriptor
  same : ∀ e ∈ p.vSocketsToBeUpdated,
    p.system.pool.psiSocketsInfo e.psiSocketInfo = p.recorded.psiSocketsInfo e.psiSocketInfo

/-- What `checkSocketsStatus` writes down is used. -/
theorem pending_checkSocketsStatus {pollReturn : PollReturn} {records : List ℕ}
    (h : Registered p.system)
    (hstep : passStep p (.checkSocketsStatus pollReturn records) = some p') : Pending p' := by
  dsimp only [passStep] at hstep
  split at hstep
  · next hperm =>
    rcases checkSocketsStatus_spec pollReturn records p.system.pool with
      ⟨error, hcheck⟩ | ⟨v, ppfDescriptors, hcheck, hv⟩
    · rw [hcheck] at hstep
      cases hstep
      refine ⟨h, ?_, ?_⟩
      · rintro e ⟨⟩
      · rintro e ⟨⟩
    · rw [hcheck] at hstep
      cases hstep
      exact ⟨h.of_slots ppfDescriptors, fun e he => hperm.2.mem_iff.mp (hv e he), fun e _ => rfl⟩
  · cases hstep

/-- **One step** of a run that spares the pending records keeps them, and its call is for a
registered socket. -/
theorem Pending.step (h : Pending p) {a : PassAction} (hspares : SparesPending p a)
    (hstep : passStep p a = some p') : Pending p' ∧ UpdatesOwn p a := by
  cases a with
  | checkSocketsStatus pollReturn records =>
    exact ⟨pending_checkSocketsStatus h.registered hstep, trivial⟩
  | updateSocketStatus =>
    dsimp only [passStep] at hstep
    split at hstep
    · cases hstep
    · next e rest hv =>
      cases hstep
      have he : e ∈ p.vSocketsToBeUpdated := hv ▸ List.mem_cons_self
      have hrest : ∀ e' ∈ rest, e' ∈ p.vSocketsToBeUpdated := fun e' he' =>
        hv ▸ List.mem_cons_of_mem _ he'
      refine ⟨⟨h.registered, fun e' he' => h.used e' (hrest e' he'),
        fun e' he' => h.same e' (hrest e' he')⟩, ?_⟩
      intro e' he'
      rw [hv] at he'
      cases he'
      constructor
      · exact h.registered.mem_registered.mpr ⟨_, h.used e he, rfl⟩
      · unfold updateSocketStatus
        rw [h.same e he]
  | call action =>
    obtain ⟨s', hs', rfl⟩ := Option.map_eq_some_iff.mp hstep
    have hfits : ∀ psSocket, action = .deleteSocket (some psSocket) → ∀ i,
        p.system.pool.setByFileDescriptor.lookup (p.system.pool.sockets psSocket).iFd = some i →
          p.system.pool.socketOf i = psSocket ∧ ∀ e ∈ p.vSocketsToBeUpdated, e.psiSocketInfo ≠ i := by
      rintro psSocket rfl
      exact hspares
    have hrecord : ∀ e ∈ p.vSocketsToBeUpdated,
        e.psiSocketInfo ∈ values s'.pool.setByFileDescriptor ∧
          s'.pool.psiSocketsInfo e.psiSocketInfo = p.system.pool.psiSocketsInfo e.psiSocketInfo := by
      intro e he
      apply h.registered.step_record hs' (h.used e he)
      intro psSocket ha hfind
      exact (hfits psSocket ha _ hfind).2 e he rfl
    refine ⟨⟨?_, fun e he => (hrecord e he).1, fun e he => (hrecord e he).2.trans (h.same e he)⟩,
      trivial⟩
    apply h.registered.step hs'
    intro psSocket ha i hfind
    exact (hfits psSocket ha i hfind).1

/-! ### A pass that deletes a socket that is still to be updated -/

/-- A socket that is to be updated and is not registered stays so until its turn, as long as it is
not added again. -/
theorem not_updatesOwn_of_lost {actions : List PassAction}
    (hadds : Always passStep (fun p a _ => AddsNew p a) p actions)
    (hrun : run passStep p actions = some p') (hdone : p'.vSocketsToBeUpdated = [])
    (he : e ∈ p.vSocketsToBeUpdated)
    (hlost : p.recorded.socketOf e.psiSocketInfo ∉ p.system.registered) :
    ¬Always passStep (fun p a _ => UpdatesOwn p a) p actions := by
  induction actions generalizing p with
  | nil =>
    cases hrun
    rw [hdone] at he
    cases he
  | cons a actions ih =>
    intro hown
    obtain ⟨p₁, hstep, hrun⟩ := Option.bind_eq_some_iff.mp hrun
    obtain ⟨hadd, hadds⟩ := hadds p₁ hstep
    obtain ⟨hcall, hown⟩ := hown p₁ hstep
    cases a with
    | checkSocketsStatus pollReturn records =>
      dsimp only [passStep] at hstep
      split at hstep
      · next hnone =>
        rw [hnone.1] at he
        cases he
      · cases hstep
    | updateSocketStatus =>
      dsimp only [passStep] at hstep
      split at hstep
      · cases hstep
      · next e₁ rest hv =>
        cases hstep
        rw [hv] at he
        rcases List.mem_cons.mp he with rfl | he
        · -- its turn
          obtain ⟨hmem, heq⟩ := hcall e (by rw [hv]; rfl)
          rw [heq] at hmem
          exact hlost hmem
        · exact ih hadds hrun he hlost hown
    | call action =>
      obtain ⟨s', hs', rfl⟩ := Option.map_eq_some_iff.mp hstep
      refine ih hadds hrun he ?_ hown
      show p.recorded.socketOf e.psiSocketInfo ∉ s'.registered
      rcases step_cases hs' with ⟨-, hreg, -⟩ | ⟨_, _, psSocket, _, _, rfl, -, hreg⟩ |
        ⟨psSocket, _, -, -, hreg⟩ | ⟨psSocket, impl, -, -, rfl⟩
      · rwa [hreg]
      · rw [hreg, List.mem_cons, not_or]
        exact ⟨hadd e he, hlost⟩
      · rw [hreg]
        exact fun hmem => hlost (List.mem_of_mem_erase hmem)
      · exact hlost

/-- In a run whose deletions are right and whose additions are of new sockets, a pass that calls
for registered sockets only has spared the pending records. -/
theorem sparesPending_of_updatesOwn {actions : List PassAction} (h : Pending p)
    (hadds : Always passStep (fun p a _ => AddsNew p a) p actions)
    (hrun : run passStep p actions = some p') (hdone : p'.vSocketsToBeUpdated = [])
    (hown : Always passStep (fun p a _ => UpdatesOwn p a) p actions) :
    Always passStep (fun p a _ => SparesPending p a) p actions := by
  induction actions generalizing p with
  | nil => trivial
  | cons a actions ih =>
    obtain ⟨p₁, hstep, hrun⟩ := Option.bind_eq_some_iff.mp hrun
    obtain ⟨hadd, hadds⟩ := hadds p₁ hstep
    obtain ⟨-, hown⟩ := hown p₁ hstep
    have hspares : SparesPending p a := by
      unfold SparesPending
      split
      · next psSocket =>
        intro i hfind
        have hself : p.system.pool.socketOf i = psSocket := hadd i hfind
        refine ⟨hself, ?_⟩
        rintro e he rfl
        -- the socket of a pending record is deleted
        obtain ⟨s', hs', rfl⟩ := Option.map_eq_some_iff.mp hstep
        refine not_updatesOwn_of_lost hadds hrun hdone he ?_ hown
        show p.recorded.socketOf e.psiSocketInfo ∉ s'.registered
        have hsame : p.recorded.socketOf e.psiSocketInfo = psSocket := by
          rw [← hself]
          exact (congrArg SocketInfo.psSocket (h.same e he)).symm
        rw [hsame]
        rcases step_cases hs' with ⟨-, -, hnone⟩ | ⟨_, _, _, _, _, hcall, -, -⟩ |
          ⟨psSocket', _, hcall, -, hreg⟩ | ⟨_, _, hcall, -, -⟩
        · rw [hnone _ rfl] at hfind
          cases hfind
        · cases hcall
        · cases hcall
          rw [hreg]
          exact h.registered.nodup_registered.not_mem_erase
        · cases hcall
      · trivial
    exact Always.cons hstep hspares (ih (h.step hspares hstep).1 hadds hrun hown)

/-- **The calls of `updateSocketStatus`.**  In a run from `init` whose deletions spare the sockets
that are still to be updated, every call is for a registered socket, with what it was found ready
for.  Where the sockets that are added are new ones and all passes end, they spare them in no other
run. -/
theorem updatesOwn_run (ulMaxSocketsNumber : ℕ) (psiSocketsInfo : ℕ → SocketInfo)
    (ppfDescriptors : ℕ → PollFd) (sockets : ℕ → SocketImpl) (actions : List PassAction) :
    (Always passStep (fun p a _ => SparesPending p a)
        (Pass.init ulMaxSocketsNumber psiSocketsInfo ppfDescriptors sockets) actions →
      Always passStep (fun p a _ => UpdatesOwn p a)
        (Pass.init ulMaxSocketsNumber psiSocketsInfo ppfDescriptors sockets) actions) ∧
    ∀ p, run passStep (Pass.init ulMaxSocketsNumber psiSocketsInfo ppfDescriptors sockets) actions =
        some p → p.vSocketsToBeUpdated = [] →
      Always passStep (fun p a _ => AddsNew p a)
        (Pass.init ulMaxSocketsNumber psiSocketsInfo ppfDescriptors sockets) actions →
      Always passStep (fun p a _ => UpdatesOwn p a)
        (Pass.init ulMaxSocketsNumber psiSocketsInfo ppfDescriptors sockets) actions →
      Always passStep (fun p a _ => SparesPending p a)
        (Pass.init ulMaxSocketsNumber psiSocketsInfo ppfDescriptors sockets) actions := by
  have hinit : Pending (Pass.init ulMaxSocketsNumber psiSocketsInfo ppfDescriptors sockets) := by
    refine ⟨Registered.init .., ?_, ?_⟩
    · rintro e ⟨⟩
    · rintro e ⟨⟩
  have hstep : ∀ p a p', Pending p → SparesPending p a → passStep p a = some p' →
      Pending p' ∧ UpdatesOwn p a := fun _ _ _ h => h.step
  refine ⟨always_of_invariant hstep hinit, ?_⟩
  intro p hrun hdone hadds hown
  exact sparesPending_of_updatesOwn hinit hadds hrun hdone hown

/-- Two sockets are ready, and the call for the first one deletes the second one. -/
theorem not_updatesOwn_other_deleted :
    ¬Always passStep (fun p a _ => UpdatesOwn p a)
      (Pass.init 2 (fun _ => ⟨0, 0, ⟨false, false, false⟩, 0, 0⟩)
        (fun _ => ⟨0, ⟨false, false, false⟩, ⟨false, false, false⟩⟩)
        (fun psSocket => ⟨psSocket + 3, -1⟩))
      [.call (.addSocket ⟨true, false, false⟩ 0 (some 0) 0),
        .call (.addSocket ⟨true, false, false⟩ 0 (some 1) 0),
        .checkSocketsStatus (.ready fun _ => ⟨true, false, false⟩) [0, 1],
        .updateSocketStatus, .call (.deleteSocket (some 1)), .updateSocketStatus] := by
  intro h
  have hcall := (((((h _ rfl).2 _ rfl).2 _ rfl).2 _ rfl).2 _ rfl).2 _ rfl
  exact absurd (hcall.1 _ rfl).1 (by decide)

end SocketsPool

end CatraLibraries
