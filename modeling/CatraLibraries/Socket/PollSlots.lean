/-
# The slots given to poll

`checkSocketsStatus` hands the first slots of the array to `poll`, one for each socket, and then
goes through the records, each of which reads its own slot.  `Slots` says that the slots of the
records are the ones given to `poll`, each with the descriptor and the events of its socket.

`deleteSocket` copies the last slot over the one that gets free, but the record of the socket it
belonged to still points at the last one.  The slots are kept by the deletions that free the last
slot, and by no others.
-/
import CatraLibraries.Socket.PoolRecords

namespace CatraLibraries

namespace SocketsPool

open HashMaps Transition

/-! ### `checkSocketsStatus` -/

/-- `poll` on one slot; a descriptor below zero is not looked at. -/
def pollSlot (ready : ℤ → PollEvents) (slot : PollFd) : PollFd :=
  { slot with
    revents :=
      if slot.fd < 0 then ⟨false, false, false⟩
      else
        ⟨slot.events.pollIn && (ready slot.fd).pollIn, slot.events.pollOut && (ready slot.fd).pollOut,
          slot.events.pollPri && (ready slot.fd).pollPri⟩ }

/-- `poll` on the first slots, where `ready` has what each descriptor is ready for. -/
def poll (ready : ℤ → PollEvents) (ulSocketsPoolSize : ℕ) (ppfDescriptors : ℕ → PollFd) :
    ℕ → PollFd := fun i =>
  if i < ulSocketsPoolSize then pollSlot ready (ppfDescriptors i) else ppfDescriptors i

/-- What the call of `poll` returns: zero, `-1`, or the number of the slots with events. -/
inductive PollReturn
  | timeout
  | failed (eintr : Bool)
  | ready (ready : ℤ → PollEvents)

/-- `SocketToBeUpdated_t`. -/
structure SocketToBeUpdated where
  usLocalSocketCheckType : CheckType
  psiSocketInfo : ℕ
  deriving DecidableEq, Repr

/-- The requested bits among those that `revents` has. -/
def localSocketCheckType (info : SocketInfo) (slot : PollFd) : CheckType :=
  ⟨info.usSocketCheckType.read && slot.revents.pollIn,
    info.usSocketCheckType.write && slot.revents.pollOut,
    info.usSocketCheckType.exception && slot.revents.pollPri⟩

/-- The loop over the records, in the order of the iterator.  The `revents` of a slot are cleared
when they are read. -/
def socketsToBeUpdated (psiSocketsInfo : ℕ → SocketInfo) :
    List ℕ → (ℕ → PollFd) → List SocketToBeUpdated × (ℕ → PollFd)
  | [], ppfDescriptors => ([], ppfDescriptors)
  | psiSocketInfo :: records, ppfDescriptors =>
    let info := psiSocketsInfo psiSocketInfo
    let slot := ppfDescriptors info.ppfDescriptor
    let usLocalSocketCheckType := localSocketCheckType info slot
    let (vSocketsToBeUpdated, ppfDescriptors) := socketsToBeUpdated psiSocketsInfo records
      (Function.update ppfDescriptors info.ppfDescriptor
        { slot with revents := ⟨false, false, false⟩ })
    (if usLocalSocketCheckType.any then
        ⟨usLocalSocketCheckType, psiSocketInfo⟩ :: vSocketsToBeUpdated
      else vSocketsToBeUpdated, ppfDescriptors)

/-- `checkSocketsStatus` up to the calls of `updateSocketStatus`; `records` is the order of the
iterator. -/
def checkSocketsStatus (pollReturn : PollReturn) (records : List ℕ) (pool : Pool) :
    Outcome (List SocketToBeUpdated) :=
  if size pool.setByFileDescriptor = 0 then (.error .poolEmpty, pool)
  else
    match pollReturn with
    | .timeout => (.error .socketStatusNotChanged, pool)
    | .failed true => (.error .socketStatusNotChanged, pool)
    | .failed false => (.error .pollFailed, pool)
    | .ready ready =>
      let (vSocketsToBeUpdated, ppfDescriptors) := socketsToBeUpdated pool.psiSocketsInfo records
        (poll ready (size pool.setByFileDescriptor) pool.ppfDescriptors)
      (.ok vSocketsToBeUpdated, { pool with ppfDescriptors := ppfDescriptors })

/-- A call of `updateSocketStatus`. -/
structure UpdateSocketStatus where
  psSocket : ℕ
  lSocketType : ℤ
  pvSocketData : ℕ
  usSocketCheckType : CheckType
  deriving DecidableEq, Repr

/-- The call that is made for an entry of the vector: it reads the record. -/
def updateSocketStatus (pool : Pool) (suSocketToBeUpdated : SocketToBeUpdated) :
    UpdateSocketStatus :=
  let info := pool.psiSocketsInfo suSocketToBeUpdated.psiSocketInfo
  ⟨info.psSocket, info.lSocketType, info.pvData, suSocketToBeUpdated.usLocalSocketCheckType⟩

/-! ### What is to be reported -/

/-- The requested events that the socket itself is ready for. -/
def readyFor (ready : ℤ → PollEvents) (usSocketCheckType : CheckType) (iFd : ℤ) : CheckType :=
  if iFd < 0 then ⟨false, false, false⟩
  else
    ⟨usSocketCheckType.read && (ready iFd).pollIn, usSocketCheckType.write && (ready iFd).pollOut,
      usSocketCheckType.exception && (ready iFd).pollPri⟩

/-- The report about the socket of a record: its own events, if there are any. -/
def ownReport (ready : ℤ → PollEvents) (pool : Pool) (psiSocketInfo : ℕ) :
    Option UpdateSocketStatus :=
  let info := pool.psiSocketsInfo psiSocketInfo
  let usSocketCheckType :=
    readyFor ready info.usSocketCheckType (pool.sockets info.psSocket).iFd
  if usSocketCheckType.any then
    some ⟨info.psSocket, info.lSocketType, info.pvData, usSocketCheckType⟩
  else none

/-- `checkSocketsStatus` reports every ready socket with its own events, and no other. -/
def ReportsOwn (pool : Pool) : Prop :=
  ∀ ready records, records.Perm (values pool.setByFileDescriptor) → records ≠ [] →
    ∃ vSocketsToBeUpdated pool',
      checkSocketsStatus (.ready ready) records pool = (.ok vSocketsToBeUpdated, pool') ∧
      vSocketsToBeUpdated.map (updateSocketStatus pool') = records.filterMap (ownReport ready pool)

/-- The slots of the records are the first ones, and have what their sockets want. -/
structure Slots (pool : Pool) : Prop where
  bijection : ((values pool.setByFileDescriptor).map fun i =>
    (pool.psiSocketsInfo i).ppfDescriptor).Perm (List.range (size pool.setByFileDescriptor))
  slot : ∀ i ∈ values pool.setByFileDescriptor,
    (pool.ppfDescriptors (pool.psiSocketsInfo i).ppfDescriptor).fd =
      (pool.sockets (pool.socketOf i)).iFd ∧
    (pool.ppfDescriptors (pool.psiSocketsInfo i).ppfDescriptor).events =
      (pool.psiSocketsInfo i).usSocketCheckType.events

variable {s s' : System} {pool pool' : Pool} {usSocketCheckType : CheckType} {lSocketType : ℤ}
  {psSocket pvSocketData psiSocketInfo i j : ℕ} {ready : ℤ → PollEvents}

/-- A record reads the events of its own socket. -/
theorem localSocketCheckType_pollSlot {info : SocketInfo} {slot : PollFd} {iFd : ℤ}
    (hfd : slot.fd = iFd) (hevents : slot.events = info.usSocketCheckType.events) :
    localSocketCheckType info (pollSlot ready slot) = readyFor ready info.usSocketCheckType iFd := by
  subst hfd
  unfold localSocketCheckType pollSlot readyFor
  dsimp only
  rw [hevents]
  by_cases hneg : slot.fd < 0
  · rw [if_pos hneg, if_pos hneg]
    simp
  · rw [if_neg hneg, if_neg hneg]
    simp [CheckType.events]

/-- The records of a list with slots of their own find what `poll` left in them. -/
theorem socketsToBeUpdated_eq {psiSocketsInfo : ℕ → SocketInfo} {own : ℕ → CheckType}
    (records : List ℕ) (ppfDescriptors : ℕ → PollFd)
    (hown : ∀ i ∈ records, localSocketCheckType (psiSocketsInfo i)
      (ppfDescriptors (psiSocketsInfo i).ppfDescriptor) = own i)
    (hnodup : (records.map fun i => (psiSocketsInfo i).ppfDescriptor).Nodup) :
    (socketsToBeUpdated psiSocketsInfo records ppfDescriptors).1 =
      records.filterMap fun i => if (own i).any then some ⟨own i, i⟩ else none := by
  induction records generalizing ppfDescriptors with
  | nil => rfl
  | cons i records ih =>
    rw [List.map_cons, List.nodup_cons] at hnodup
    have hrest : ∀ j ∈ records, localSocketCheckType (psiSocketsInfo j)
        (Function.update ppfDescriptors (psiSocketsInfo i).ppfDescriptor
          { ppfDescriptors (psiSocketsInfo i).ppfDescriptor with revents := ⟨false, false, false⟩ }
          (psiSocketsInfo j).ppfDescriptor) = own j := by
      intro j hj
      rw [Function.update_of_ne]
      · exact hown j (List.mem_cons_of_mem _ hj)
      · intro heq
        exact hnodup.1 (List.mem_map.mpr ⟨j, hj, heq⟩)
    have hrest := ih _ hrest hnodup.2
    unfold socketsToBeUpdated
    dsimp only
    rw [hown i List.mem_cons_self, hrest, List.filterMap_cons]
    by_cases hany : (own i).any = true
    · rw [if_pos hany, if_pos hany]
    · rw [if_neg hany, if_neg hany]

/-! ### Slots and reports -/

namespace Slots

theorem lt_size (h : Slots pool) (hi : i ∈ values pool.setByFileDescriptor) :
    (pool.psiSocketsInfo i).ppfDescriptor < size pool.setByFileDescriptor :=
  List.mem_range.mp (h.bijection.mem_iff.mp (List.mem_map.mpr ⟨i, hi, rfl⟩))

/-- **With its own slot for every record, each socket is reported with its own events.** -/
theorem reportsOwn (h : Slots pool) : ReportsOwn pool := by
  intro ready records hperm hne
  have hmem : ∀ i ∈ records, i ∈ values pool.setByFileDescriptor := fun i => hperm.mem_iff.mp
  have hown : ∀ i ∈ records, localSocketCheckType (pool.psiSocketsInfo i)
      (poll ready (size pool.setByFileDescriptor) pool.ppfDescriptors
        (pool.psiSocketsInfo i).ppfDescriptor) =
      readyFor ready (pool.psiSocketsInfo i).usSocketCheckType (pool.sockets (pool.socketOf i)).iFd := by
    intro i hi
    obtain ⟨hfd, hevents⟩ := h.slot i (hmem i hi)
    unfold poll
    rw [if_pos (h.lt_size (hmem i hi))]
    exact localSocketCheckType_pollSlot hfd hevents
  have hnodup : (records.map fun i => (pool.psiSocketsInfo i).ppfDescriptor).Nodup :=
    ((hperm.map _).trans h.bijection).nodup_iff.mpr List.nodup_range
  have hupdated := socketsToBeUpdated_eq records _ hown hnodup
  have hsize : size pool.setByFileDescriptor ≠ 0 := by
    rw [← length_values, ← hperm.length_eq]
    exact mt List.length_eq_zero_iff.mp hne
  refine ⟨_, _, by unfold checkSocketsStatus; rw [if_neg hsize], ?_⟩
  rw [hupdated, List.map_filterMap]
  refine List.filterMap_congr fun i _ => ?_
  unfold ownReport
  dsimp only
  show Option.map _ (if (readyFor ready _ (pool.sockets (pool.socketOf i)).iFd).any then _ else _) =
    if (readyFor ready _ (pool.sockets (pool.socketOf i)).iFd).any then _ else _
  split
  · rfl
  · rfl

theorem init (ulMaxSocketsNumber : ℕ) (psiSocketsInfo : ℕ → SocketInfo)
    (ppfDescriptors : ℕ → PollFd) (sockets : ℕ → SocketImpl) :
    Slots (SocketsPool.init ulMaxSocketsNumber psiSocketsInfo ppfDescriptors sockets) := by
  refine ⟨.nil, ?_⟩
  intro i hi
  cases hi

/-- **A failed call keeps the slots.** -/
theorem of_unchanged (h : Slots s.pool) (hreg : Registered s) (hsame : Unchanged s.pool pool') :
    Slots pool' := by
  have hinfo : ∀ i ∈ values s.pool.setByFileDescriptor,
      pool'.psiSocketsInfo i = s.pool.psiSocketsInfo i := fun i hi =>
    hsame.infos i (hreg.notMem_free hi)
  constructor
  · rw [hsame.byFileDescriptor, List.map_congr_left fun i hi =>
      congrArg SocketInfo.ppfDescriptor (hinfo i hi)]
    exact h.bijection
  · intro i hi
    rw [hsame.byFileDescriptor] at hi
    unfold Pool.socketOf
    rw [hinfo i hi, hsame.sockets, hsame.slots _ (h.lt_size hi)]
    exact h.slot i hi

/-- **An addition gives the socket the next slot.** -/
theorem of_added (h : Slots s.pool) (hreg : Registered s)
    (hadd : Added s.pool pool' usSocketCheckType lSocketType psSocket pvSocketData psiSocketInfo) :
    Slots pool' := by
  have hfree : psiSocketInfo ∈ s.pool.vFreeSocketsInfo := hadd.free ▸ List.mem_cons_self
  have hvalues := values_insert (v := psiSocketInfo) hadd.fresh
  have hself := congrFun hadd.infos psiSocketInfo
  rw [Function.update_self] at hself
  have hother : ∀ i ∈ values s.pool.setByFileDescriptor,
      pool'.psiSocketsInfo i = s.pool.psiSocketsInfo i := by
    intro i hi
    rw [hadd.infos, Function.update_of_ne]
    rintro rfl
    exact hreg.notMem_free hi hfree
  constructor
  · rw [hadd.byFileDescriptor, hvalues, size_insert hadd.fresh, List.map_cons, hself,
      List.map_congr_left fun i hi => congrArg SocketInfo.ppfDescriptor (hother i hi),
      List.range_succ]
    exact (h.bijection.cons _).trans (List.perm_append_singleton _ _).symm
  · intro i hi
    rw [hadd.byFileDescriptor, hvalues] at hi
    unfold Pool.socketOf
    rw [hadd.sockets, hadd.slots]
    rcases List.mem_cons.mp hi with rfl | hi
    · rw [hself, Function.update_self]
      exact ⟨rfl, rfl⟩
    · rw [hother i hi, Function.update_of_ne (Nat.ne_of_lt (h.lt_size hi))]
      exact h.slot i hi

/-- **A deletion keeps the slots exactly when it frees the last one.** -/
theorem deleted_iff (h : Slots s.pool)
    (hfind : s.pool.setByFileDescriptor.lookup (s.pool.sockets psSocket).iFd = some psiSocketInfo)
    (hslots : pool'.ppfDescriptors = compact psiSocketInfo s.pool)
    (herase : pool'.setByFileDescriptor =
      s.pool.setByFileDescriptor.erase (s.pool.sockets psSocket).iFd)
    (hsockets : pool'.sockets = s.pool.sockets) (hinfos : pool'.psiSocketsInfo = s.pool.psiSocketsInfo) :
    Slots pool' ↔ (s.pool.psiSocketsInfo psiSocketInfo).ppfDescriptor =
      size s.pool.setByFileDescriptor - 1 := by
  have hvalues := values_perm_erase hfind
  have hsize := size_erase hfind
  rw [← herase] at hvalues hsize
  have hbijection := (hvalues.map fun i => (s.pool.psiSocketsInfo i).ppfDescriptor).symm.trans
    h.bijection
  rw [hsize, List.map_cons, List.range_succ] at hbijection
  rw [hsize, Nat.add_sub_cancel]
  constructor
  · intro h'
    by_contra hlast
    -- the record of another socket still points at the last slot
    have hmem : size pool'.setByFileDescriptor ∈
        (s.pool.psiSocketsInfo psiSocketInfo).ppfDescriptor ::
          (values pool'.setByFileDescriptor).map fun i => (s.pool.psiSocketsInfo i).ppfDescriptor :=
      hbijection.mem_iff.mpr (List.mem_append_right _ List.mem_cons_self)
    have hmem := (List.mem_cons.mp hmem).resolve_left fun heq => hlast heq.symm
    have hbijection' := h'.bijection
    rw [hinfos] at hbijection'
    exact absurd (List.mem_range.mp (hbijection'.mem_iff.mp hmem)) (Nat.lt_irrefl _)
  · intro hlast
    have hsame : pool'.ppfDescriptors = s.pool.ppfDescriptors := by
      rw [hslots]
      unfold compact
      rw [hsize, Nat.add_sub_cancel]
      exact if_neg (not_not.mpr hlast)
    constructor
    · rw [hinfos]
      rw [hlast] at hbijection
      exact (hbijection.trans (List.perm_append_singleton _ _)).cons_inv
    · intro i hi
      unfold Pool.socketOf
      rw [hinfos, hsockets, hsame]
      exact h.slot i (hvalues.mem_iff.mpr (List.mem_cons_of_mem _ hi))

/-- A socket that is not registered may change. -/
theorem of_socket (h : Slots s.pool) (hreg : Registered s) (hnot : psSocket ∉ s.registered)
    (impl : SocketImpl) :
    Slots { s.pool with sockets := Function.update s.pool.sockets psSocket impl } := by
  refine ⟨h.bijection, ?_⟩
  intro i hi
  show _ = (Function.update s.pool.sockets psSocket impl (s.pool.socketOf i)).iFd ∧ _
  rw [Function.update_of_ne]
  · exact h.slot i hi
  · intro heq
    exact hnot (hreg.mem_registered.mpr ⟨i, hi, heq⟩)

end Slots

/-! ### Runs -/

/-- Registered sockets, records and slots correspond. -/
structure Bijective (s : System) : Prop where
  registered : Registered s
  slots : Slots s.pool

/-- A deletion frees the last slot, of the socket that it is given. -/
def FreesLast (s : System) : Action → Prop
  | .deleteSocket (some psSocket) =>
    ∀ i, s.pool.setByFileDescriptor.lookup (s.pool.sockets psSocket).iFd = some i →
      s.pool.socketOf i = psSocket ∧
        (s.pool.psiSocketsInfo i).ppfDescriptor = size s.pool.setByFileDescriptor - 1
  | _ => True

/-- **One step** keeps the correspondence exactly when a deletion frees the last slot. -/
theorem bijective_step_iff (h : Bijective s) {a : Action} (hstep : step s a = some s') :
    Bijective s' ↔ FreesLast s a := by
  rcases step_cases hstep with ⟨hsame, hreg, hnone⟩ | ⟨_, _, psSocket, _, _, rfl, hadded, hreg⟩ |
    ⟨psSocket, psiSocketInfo, rfl, hdel, hreg⟩ | ⟨psSocket, impl, rfl, hnot, rfl⟩
  · have hregistered := h.registered.of_unchanged hsame
    rw [← hreg] at hregistered
    refine iff_of_true ⟨hregistered, h.slots.of_unchanged h.registered hsame⟩ ?_
    -- a deletion that changes nothing has found no record
    unfold FreesLast
    split
    · intro i hi
      rw [hnone _ rfl] at hi
      cases hi
    · trivial
  · have hregistered := h.registered.of_added hadded
    rw [← hreg] at hregistered
    exact iff_of_true ⟨hregistered, h.slots.of_added h.registered hadded⟩ trivial
  · constructor
    · intro h' i hi
      rw [hdel.found] at hi
      cases hi
      constructor
      · by_contra hother
        apply h.registered.not_of_deleted_other hdel.found hother hdel.byFileDescriptor
        rw [← hreg]
        exact h'.registered
      · exact (h.slots.deleted_iff hdel.found hdel.slots hdel.byFileDescriptor hdel.sockets
          hdel.infos).mp h'.slots
    · intro hlast
      obtain ⟨hself, hlast⟩ := hlast _ hdel.found
      have hregistered := h.registered.of_deleted hdel.found hself hdel.number hdel.free
        hdel.byFileDescriptor hdel.sockets hdel.infos
      rw [← hreg] at hregistered
      exact ⟨hregistered, (h.slots.deleted_iff hdel.found hdel.slots hdel.byFileDescriptor
        hdel.sockets hdel.infos).mpr hlast⟩
  · exact iff_of_true ⟨h.registered.of_socket hnot impl, h.slots.of_socket h.registered hnot impl⟩
      trivial

/-- **The slots of a pool.**  Along a run from `init` the registered sockets and the slots given
to `poll` correspond, and every ready socket is reported with its own events, exactly when every
deletion frees the last slot. -/
theorem bijective_run (ulMaxSocketsNumber : ℕ) (psiSocketsInfo : ℕ → SocketInfo)
    (ppfDescriptors : ℕ → PollFd) (sockets : ℕ → SocketImpl) (actions : List Action) :
    Always step (fun _ _ s' => Bijective s' ∧ ReportsOwn s'.pool)
        (System.init ulMaxSocketsNumber psiSocketsInfo ppfDescriptors sockets) actions ↔
      Always step (fun s a _ => FreesLast s a)
        (System.init ulMaxSocketsNumber psiSocketsInfo ppfDescriptors sockets) actions := by
  have hiff : ∀ s a s', Bijective s → step s a = some s' →
      (Bijective s' ∧ ReportsOwn s'.pool ↔ FreesLast s a) := by
    intro s a s' h hstep
    rw [← bijective_step_iff h hstep]
    exact ⟨fun h => h.1, fun h => ⟨h, h.slots.reportsOwn⟩⟩
  exact always_iff_of_kept hiff (fun _ _ _ h => h.1) ⟨Registered.init .., Slots.init ..⟩ actions

/-- Two sockets are added and the first one is deleted: the record of the second one points at
a slot that `poll` does not get. -/
theorem not_bijective_first_deleted :
    ¬Always step (fun _ _ s' => Bijective s' ∧ ReportsOwn s'.pool)
      (System.init 2 (fun _ => ⟨0, 0, ⟨false, false, false⟩, 0, 0⟩)
        (fun _ => ⟨0, ⟨false, false, false⟩, ⟨false, false, false⟩⟩)
        (fun psSocket => ⟨psSocket + 3, -1⟩))
      [.addSocket ⟨true, false, false⟩ 0 (some 0) 0, .addSocket ⟨true, false, false⟩ 0 (some 1) 0,
        .deleteSocket (some 0)] := by
  intro h
  have hbijection := (((h _ rfl).2 _ rfl).2 _ rfl).1.1.slots.bijection
  exact absurd (hbijection.mem_iff.mp List.mem_cons_self) (by decide)

end SocketsPool

end CatraLibraries
