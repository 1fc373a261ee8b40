/-
# The records of a pool

A pool is `Registered` when its records are those in the vector of the free ones and those of the
registered sockets, each once, and every socket is found by its descriptor.  `Ports` says that
the sockets with a local port, and no others, are found by it.

A call that fails changes none of the collections.  `deleteSocket` looks its record up by the
descriptor of the socket it is given, and then takes away the port of that socket: it is right
when it is given the socket that is registered.  A port that does not fit an `int` may be taken
for another one by `findServerSocket`.
-/
import CatraLibraries.Socket.SocketsPool

namespace CatraLibraries

namespace SocketsPool

open HashMaps Transition

/-- The socket of a record. -/
def Pool.socketOf (pool : Pool) (psiSocketInfo : ℕ) : ℕ := (pool.psiSocketsInfo psiSocketInfo).psSocket

/-- The local port of the socket of a record. -/
def Pool.portOf (pool : Pool) (psiSocketInfo : ℕ) : ℤ :=
  (pool.sockets (pool.socketOf psiSocketInfo)).lLocalPort

/-- The records are partitioned, and found by the descriptors of the registered sockets. -/
structure Registered (s : System) : Prop where
  partition : (s.pool.vFreeSocketsInfo ++ values s.pool.setByFileDescriptor).Perm
    (List.range s.pool.ulMaxSocketsNumber)
  descriptor : ∀ {fd psiSocketInfo}, s.pool.setByFileDescriptor.lookup fd = some psiSocketInfo →
    (s.pool.sockets (s.pool.socketOf psiSocketInfo)).iFd = fd
  sockets : ((values s.pool.setByFileDescriptor).map s.pool.socketOf).Perm s.registered

/-- The sockets found by a port are the registered ones that have a port. -/
structure Ports (pool : Pool) : Prop where
  found : ∀ {psiSocketInfo}, psiSocketInfo ∈ values pool.setByFileDescriptor →
    pool.portOf psiSocketInfo ≠ -1 →
    pool.setBySocketPort.lookup (toInt (pool.portOf psiSocketInfo)) = some psiSocketInfo
  only : ∀ {key psiSocketInfo}, pool.setBySocketPort.lookup key = some psiSocketInfo →
    psiSocketInfo ∈ values pool.setByFileDescriptor ∧ pool.portOf psiSocketInfo ≠ -1 ∧
      toInt (pool.portOf psiSocketInfo) = key

variable {s s' : System} {pool pool' : Pool} {usSocketCheckType : CheckType} {lSocketType : ℤ}
  {psSocket pvSocketData psiSocketInfo i j : ℕ} {fd : ℤ}

namespace Registered

theorem nodup (h : Registered s) : (s.pool.vFreeSocketsInfo ++ values s.pool.setByFileDescriptor).Nodup :=
  h.partition.nodup_iff.mpr List.nodup_range

theorem notMem_free (h : Registered s) (hi : i ∈ values s.pool.setByFileDescriptor) :
    i ∉ s.pool.vFreeSocketsInfo := fun hfree =>
  (List.disjoint_of_nodup_append h.nodup) hfree hi

/-- A record is found by the descriptor of its socket. -/
theorem lookup (h : Registered s) (hi : i ∈ values s.pool.setByFileDescriptor) :
    s.pool.setByFileDescriptor.lookup (s.pool.sockets (s.pool.socketOf i)).iFd = some i := by
  obtain ⟨fd, hfd⟩ := mem_values_iff.mp hi
  rw [h.descriptor hfd, hfd]

/-- A socket has one record. -/
theorem socketOf_injective (h : Registered s) (hi : i ∈ values s.pool.setByFileDescriptor)
    (hj : j ∈ values s.pool.setByFileDescriptor) (hij : s.pool.socketOf i = s.pool.socketOf j) :
    i = j := by
  have hi' := h.lookup hi
  rw [hij, h.lookup hj] at hi'
  exact (Option.some.inj hi').symm

theorem mem_registered (h : Registered s) :
    psSocket ∈ s.registered ↔ ∃ i ∈ values s.pool.setByFileDescriptor, s.pool.socketOf i = psSocket := by
  rw [← h.sockets.mem_iff, List.mem_map]

/-- **A failed call keeps the records.** -/
theorem of_unchanged (h : Registered s) (hsame : Unchanged s.pool pool') :
    Registered { s with pool := pool' } := by
  have hinfo : ∀ i ∈ values s.pool.setByFileDescriptor, pool'.socketOf i = s.pool.socketOf i :=
    fun i hi => congrArg SocketInfo.psSocket (hsame.infos i (h.notMem_free hi))
  refine ⟨?_, ?_, ?_⟩
  · show (pool'.vFreeSocketsInfo ++ values pool'.setByFileDescriptor).Perm _
    rw [hsame.free, hsame.byFileDescriptor, hsame.number]
    exact h.partition
  · intro fd i hfd
    rw [show ({ s with pool := pool' } : System).pool = pool' from rfl, hsame.byFileDescriptor] at hfd
    show (pool'.sockets (pool'.socketOf i)).iFd = fd
    rw [hsame.sockets, hinfo i (mem_values_iff.mpr ⟨fd, hfd⟩)]
    exact h.descriptor hfd
  · show ((values pool'.setByFileDescriptor).map pool'.socketOf).Perm s.registered
    rw [hsame.byFileDescriptor, List.map_congr_left hinfo]
    exact h.sockets

/-- **An addition keeps the records.** -/
theorem of_added (h : Registered s)
    (hadd : Added s.pool pool' usSocketCheckType lSocketType psSocket pvSocketData psiSocketInfo) :
    Registered ⟨pool', psSocket :: s.registered⟩ := by
  have hvalues := values_insert (v := psiSocketInfo) hadd.fresh
  have hfree : psiSocketInfo ∈ s.pool.vFreeSocketsInfo := hadd.free ▸ List.mem_cons_self
  have hself : pool'.socketOf psiSocketInfo = psSocket := by
    unfold Pool.socketOf
    rw [hadd.infos, Function.update_self]
  have hother : ∀ i ∈ values s.pool.setByFileDescriptor, pool'.socketOf i = s.pool.socketOf i := by
    intro i hi
    unfold Pool.socketOf
    rw [hadd.infos, Function.update_of_ne]
    rintro rfl
    exact h.notMem_free hi hfree
  refine ⟨?_, ?_, ?_⟩
  · show (pool'.vFreeSocketsInfo ++ values pool'.setByFileDescriptor).Perm _
    rw [hadd.byFileDescriptor, hvalues, hadd.number]
    refine List.perm_middle.trans ?_
    have hpart := h.partition
    rwa [hadd.free] at hpart
  · intro fd i hfd
    show (pool'.sockets (pool'.socketOf i)).iFd = fd
    rw [show (⟨pool', psSocket :: s.registered⟩ : System).pool = pool' from rfl,
      hadd.byFileDescriptor] at hfd
    rcases lookup_insert_eq_some hfd with ⟨rfl, rfl⟩ | ⟨-, hfd⟩
    · rw [hself, hadd.sockets]
    · rw [hother i (mem_values_iff.mpr ⟨fd, hfd⟩), hadd.sockets]
      exact h.descriptor hfd
  · show ((values pool'.setByFileDescriptor).map pool'.socketOf).Perm _
    rw [hadd.byFileDescriptor, hvalues, List.map_cons, hself, List.map_congr_left hother]
    exact h.sockets.cons _

/-- **The deletion of a registered socket keeps the records.** -/
theorem of_deleted (h : Registered s)
    (hfind : s.pool.setByFileDescriptor.lookup (s.pool.sockets psSocket).iFd = some psiSocketInfo)
    (hself : s.pool.socketOf psiSocketInfo = psSocket)
    (hnumber : pool'.ulMaxSocketsNumber = s.pool.ulMaxSocketsNumber)
    (hfree : pool'.vFreeSocketsInfo = s.pool.vFreeSocketsInfo ++ [psiSocketInfo])
    (herase : pool'.setByFileDescriptor =
      s.pool.setByFileDescriptor.erase (s.pool.sockets psSocket).iFd)
    (hsockets : pool'.sockets = s.pool.sockets) (hinfos : pool'.psiSocketsInfo = s.pool.psiSocketsInfo) :
    Registered ⟨pool', s.registered.erase psSocket⟩ := by
  have hvalues := values_perm_erase hfind
  have hsocketOf : pool'.socketOf = s.pool.socketOf := by
    unfold Pool.socketOf
    rw [hinfos]
  refine ⟨?_, ?_, ?_⟩
  · show (pool'.vFreeSocketsInfo ++ values pool'.setByFileDescriptor).Perm _
    rw [hfree, herase, hnumber, List.append_assoc]
    exact (hvalues.symm.append_left _).trans h.partition
  · intro fd i hfd
    show (pool'.sockets (pool'.socketOf i)).iFd = fd
    rw [show (⟨pool', s.registered.erase psSocket⟩ : System).pool = pool' from rfl, herase] at hfd
    rw [hsockets, hsocketOf]
    exact h.descriptor (lookup_of_erase hfd).2
  · show ((values pool'.setByFileDescriptor).map pool'.socketOf).Perm _
    rw [herase, hsocketOf]
    have hperm := ((hvalues.map s.pool.socketOf).symm.trans h.sockets).erase psSocket
    rwa [List.map_cons, hself, List.erase_cons_head] at hperm

/-- A deletion that frees the record of another socket leaves a socket registered without one. -/
theorem not_of_deleted_other (h : Registered s)
    (hfind : s.pool.setByFileDescriptor.lookup (s.pool.sockets psSocket).iFd = some psiSocketInfo)
    (hself : s.pool.socketOf psiSocketInfo ≠ psSocket)
    (herase : pool'.setByFileDescriptor =
      s.pool.setByFileDescriptor.erase (s.pool.sockets psSocket).iFd) :
    ¬Registered ⟨pool', s.registered.erase psSocket⟩ := by
  intro h'
  -- the socket that was given is not registered, as its descriptor leads to another one
  have hnot : psSocket ∉ s.registered := by
    rw [h.mem_registered]
    rintro ⟨i, hi, rfl⟩
    rw [h.lookup hi] at hfind
    exact hself (congrArg _ (Option.some.inj hfind).symm)
  have hlength : size pool'.setByFileDescriptor = s.registered.length := by
    have hperm := h'.sockets.length_eq
    rw [List.length_map, length_values] at hperm
    exact hperm.trans (congrArg List.length (List.erase_of_not_mem hnot))
  have hlength' : size s.pool.setByFileDescriptor = s.registered.length := by
    have hperm := h.sockets.length_eq
    rwa [List.length_map, length_values] at hperm
  have hsize := size_erase hfind
  rw [← herase] at hsize
  omega

/-- A socket that is not registered may change. -/
theorem of_socket (h : Registered s) (hnot : psSocket ∉ s.registered) (impl : SocketImpl) :
    Registered { s with
      pool := { s.pool with sockets := Function.update s.pool.sockets psSocket impl } } := by
  refine ⟨h.partition, ?_, h.sockets⟩
  intro fd i hfd
  have hi : i ∈ values s.pool.setByFileDescriptor := mem_values_iff.mpr ⟨fd, hfd⟩
  show (Function.update s.pool.sockets psSocket impl (s.pool.socketOf i)).iFd = fd
  rw [Function.update_of_ne]
  · exact h.descriptor hfd
  · intro heq
    exact hnot (h.mem_registered.mpr ⟨i, hi, heq⟩)

theorem init (ulMaxSocketsNumber : ℕ) (psiSocketsInfo : ℕ → SocketInfo)
    (ppfDescriptors : ℕ → PollFd) (sockets : ℕ → SocketImpl) :
    Registered (System.init ulMaxSocketsNumber psiSocketsInfo ppfDescriptors sockets) := by
  refine ⟨?_, ?_, .nil⟩
  · show (List.range ulMaxSocketsNumber ++ []).Perm (List.range ulMaxSocketsNumber)
    rw [List.append_nil]
  · intro fd i hfd
    cases hfd

end Registered

/-! ### The ports -/

namespace Ports

/-- **A failed call keeps the ports.** -/
theorem of_unchanged (h : Ports s.pool) (hreg : Registered s) (hsame : Unchanged s.pool pool') :
    Ports pool' := by
  have hport : ∀ i ∈ values s.pool.setByFileDescriptor, pool'.portOf i = s.pool.portOf i := by
    intro i hi
    unfold Pool.portOf Pool.socketOf
    rw [hsame.sockets, hsame.infos i (hreg.notMem_free hi)]
  constructor
  · intro i hi hne
    rw [hsame.byFileDescriptor] at hi
    rw [hport i hi] at hne ⊢
    rw [hsame.bySocketPort]
    exact h.found hi hne
  · intro key i hkey
    rw [hsame.bySocketPort] at hkey
    obtain ⟨hi, hne, htoInt⟩ := h.only hkey
    rw [hsame.byFileDescriptor, hport i hi]
    exact ⟨hi, hne, htoInt⟩

/-- **An addition keeps the ports.** -/
theorem of_added (h : Ports s.pool) (hreg : Registered s)
    (hadd : Added s.pool pool' usSocketCheckType lSocketType psSocket pvSocketData psiSocketInfo) :
    Ports pool' := by
  have hfree : psiSocketInfo ∈ s.pool.vFreeSocketsInfo := hadd.free ▸ List.mem_cons_self
  have hvalues := values_insert (v := psiSocketInfo) hadd.fresh
  have hself : pool'.portOf psiSocketInfo = (s.pool.sockets psSocket).lLocalPort := by
    unfold Pool.portOf Pool.socketOf
    rw [hadd.sockets, hadd.infos, Function.update_self]
  have hother : ∀ i ∈ values s.pool.setByFileDescriptor, pool'.portOf i = s.pool.portOf i := by
    intro i hi
    unfold Pool.portOf Pool.socketOf
    rw [hadd.sockets, hadd.infos, Function.update_of_ne]
    rintro rfl
    exact hreg.notMem_free hi hfree
  constructor
  · intro i hi hne
    rw [hadd.byFileDescriptor, hvalues] at hi
    rcases List.mem_cons.mp hi with rfl | hi
    · rw [hself] at hne ⊢
      rcases hadd.bySocketPort with ⟨hnone, -⟩ | ⟨-, -, hinsert⟩
      · exact absurd hnone hne
      · rw [hinsert, AList.lookup_insert]
    · rw [hother i hi] at hne ⊢
      have hfound := h.found hi hne
      rcases hadd.bySocketPort with ⟨-, hsame⟩ | ⟨-, hnew, hinsert⟩
      · rw [hsame, hfound]
      · rw [hinsert, AList.lookup_insert_ne, hfound]
        rintro heq
        exact hnew (heq ▸ mem_of_lookup hfound)
  · intro key i hkey
    rw [hadd.byFileDescriptor, hvalues]
    have hold : s.pool.setBySocketPort.lookup key = some i →
        i ∈ psiSocketInfo :: values s.pool.setByFileDescriptor ∧ pool'.portOf i ≠ -1 ∧
          toInt (pool'.portOf i) = key := by
      intro hkey
      obtain ⟨hi, hne, htoInt⟩ := h.only hkey
      rw [hother i hi]
      exact ⟨List.mem_cons_of_mem _ hi, hne, htoInt⟩
    rcases hadd.bySocketPort with ⟨-, hsame⟩ | ⟨hport, -, hinsert⟩
    · rw [hsame] at hkey
      exact hold hkey
    · rw [hinsert] at hkey
      rcases lookup_insert_eq_some hkey with ⟨rfl, rfl⟩ | ⟨-, hkey⟩
      · rw [hself]
        exact ⟨List.mem_cons_self, hport, rfl⟩
      · exact hold hkey

/-- **The deletion of a registered socket takes its port away**, and no other. -/
theorem of_deleted (h : Ports s.pool) (hreg : Registered s)
    (hfind : s.pool.setByFileDescriptor.lookup (s.pool.sockets psSocket).iFd = some psiSocketInfo)
    (hself : s.pool.socketOf psiSocketInfo = psSocket)
    (herase : pool'.setByFileDescriptor =
      s.pool.setByFileDescriptor.erase (s.pool.sockets psSocket).iFd)
    (hports : pool'.setBySocketPort =
      if (s.pool.sockets psSocket).lLocalPort ≠ -1 then
        s.pool.setBySocketPort.erase (toInt (s.pool.sockets psSocket).lLocalPort)
      else s.pool.setBySocketPort)
    (hsockets : pool'.sockets = s.pool.sockets) (hinfos : pool'.psiSocketsInfo = s.pool.psiSocketsInfo) :
    Ports pool' := by
  have hportOf : pool'.portOf = s.pool.portOf := by
    unfold Pool.portOf Pool.socketOf
    rw [hsockets, hinfos]
  have hport : (s.pool.sockets psSocket).lLocalPort = s.pool.portOf psiSocketInfo := by
    rw [← hself]
    rfl
  have hmem : psiSocketInfo ∈ values s.pool.setByFileDescriptor := mem_values_iff.mpr ⟨_, hfind⟩
  have hvalues := values_perm_erase hfind
  rw [← herase] at hvalues
  have hnodup := hvalues.nodup_iff.mp (List.nodup_append.mp hreg.nodup).2.1
  rw [hport] at hports
  constructor
  · intro i hi hne
    rw [hportOf] at hne ⊢
    have hi' : i ∈ values s.pool.setByFileDescriptor := hvalues.mem_iff.mpr (List.mem_cons_of_mem _ hi)
    have hfound := h.found hi' hne
    rw [hports]
    split
    · next hport' =>
      rw [AList.lookup_erase_ne, hfound]
      intro heq
      -- two sockets with one key are one
      rw [heq, h.found hmem hport'] at hfound
      cases hfound
      exact (List.nodup_cons.mp hnodup).1 hi
    · exact hfound
  · intro key i hkey
    rw [hportOf]
    have hold : s.pool.setBySocketPort.lookup key = some i ∧ i ≠ psiSocketInfo := by
      rw [hports] at hkey
      split at hkey
      · next hport' =>
        obtain ⟨hne, hkey'⟩ := lookup_of_erase hkey
        refine ⟨hkey', ?_⟩
        rintro rfl
        exact hne (h.only hkey').2.2.symm
      · next hport' =>
        refine ⟨hkey, ?_⟩
        rintro rfl
        exact hport' (h.only hkey).2.1
    obtain ⟨hi, hne, htoInt⟩ := h.only hold.1
    exact ⟨(List.mem_cons.mp (hvalues.mem_iff.mp hi)).resolve_left hold.2, hne, htoInt⟩

theorem init (ulMaxSocketsNumber : ℕ) (psiSocketsInfo : ℕ → SocketInfo)
    (ppfDescriptors : ℕ → PollFd) (sockets : ℕ → SocketImpl) :
    Ports (SocketsPool.init ulMaxSocketsNumber psiSocketsInfo ppfDescriptors sockets) := by
  constructor
  · intro i hi
    cases hi
  · intro key i hkey
    cases hkey

/-- A socket that is not registered may change. -/
theorem of_socket (h : Ports s.pool) (hreg : Registered s) (hnot : psSocket ∉ s.registered)
    (impl : SocketImpl) :
    Ports { s.pool with sockets := Function.update s.pool.sockets psSocket impl } := by
  have hport : ∀ i ∈ values s.pool.setByFileDescriptor,
      ({ s.pool with sockets := Function.update s.pool.sockets psSocket impl } : Pool).portOf i =
        s.pool.portOf i := by
    intro i hi
    show (Function.update s.pool.sockets psSocket impl (s.pool.socketOf i)).lLocalPort = _
    rw [Function.update_of_ne]
    · rfl
    · intro heq
      exact hnot (hreg.mem_registered.mpr ⟨i, hi, heq⟩)
  constructor
  · intro i hi hne
    rw [hport i hi] at hne ⊢
    exact h.found hi hne
  · intro key i hkey
    obtain ⟨hi, hne, htoInt⟩ := h.only hkey
    rw [hport i hi]
    exact ⟨hi, hne, htoInt⟩

end Ports

/-! ### Runs -/

/-- The three collections agree with each other and with the sockets that are registered. -/
structure Consistent (s : System) : Prop where
  registered : Registered s
  ports : Ports s.pool

/-- The collections of the pool. -/
def Pool.collections (pool : Pool) : List ℕ × HashMap ℤ ℕ × HashMap ℤ ℕ :=
  (pool.vFreeSocketsInfo, pool.setByFileDescriptor, pool.setBySocketPort)

/-- `findServerSocket` returns the registered socket on a port, and fails when there is none. -/
def FindsServer (pool : Pool) (ulServerPort : ℕ) : Prop :=
  ∀ psSocket pvData, findServerSocket ulServerPort pool = .ok (psSocket, pvData) ↔
    ∃ i ∈ values pool.setByFileDescriptor, pool.portOf i = ulServerPort ∧
      pool.socketOf i = psSocket ∧ (pool.psiSocketsInfo i).pvData = pvData

/-- What is right about the answer to a call: a failed one leaves the collections as they were. -/
def Answers (s s' : System) : Action → Prop
  | .addSocket usSocketCheckType lSocketType pSocket pvSocketData =>
    ∀ e, (addSocket usSocketCheckType lSocketType pSocket pvSocketData s.pool).1 = .error e →
      s'.pool.collections = s.pool.collections
  | .deleteSocket pSocket =>
    ∀ e, (deleteSocket pSocket s.pool).1 = .error e → s'.pool.collections = s.pool.collections
  | .findServerSocket ulServerPort => FindsServer s.pool ulServerPort
  | .socket _ _ => True

/-- The calls that the pool is made for: a socket to be deleted is the one registered under its
descriptor, if there is one, and no socket is registered on another port with the key of the port
that is looked for. -/
def Fits (s : System) : Action → Prop
  | .deleteSocket (some psSocket) =>
    ∀ i, s.pool.setByFileDescriptor.lookup (s.pool.sockets psSocket).iFd = some i →
      s.pool.socketOf i = psSocket
  | .findServerSocket ulServerPort =>
    ∀ i ∈ values s.pool.setByFileDescriptor, s.pool.portOf i ≠ -1 →
      toInt (s.pool.portOf i) = toInt ulServerPort → s.pool.portOf i = ulServerPort
  | _ => True

theorem findsServer_iff (h : Consistent s) (ulServerPort : ℕ) :
    FindsServer s.pool ulServerPort ↔ Fits s (.findServerSocket ulServerPort) := by
  have hne : (ulServerPort : ℤ) ≠ -1 := by omega
  constructor
  · intro hfinds i hi hport hkey
    have hfound := h.ports.found hi hport
    have hanswer : findServerSocket ulServerPort s.pool
        = .ok (s.pool.socketOf i, (s.pool.psiSocketsInfo i).pvData) := by
      unfold findServerSocket
      rw [← hkey, hfound]
      rfl
    obtain ⟨j, hj, hport', hsocket, -⟩ := (hfinds _ _).mp hanswer
    rw [← h.registered.socketOf_injective hj hi hsocket, hport']
  · intro hfits psSocket pvData
    unfold findServerSocket
    constructor
    · intro hanswer
      cases hfind : s.pool.setBySocketPort.lookup (toInt ulServerPort) with
      | none =>
        rw [hfind] at hanswer
        cases hanswer
      | some i =>
        rw [hfind] at hanswer
        cases hanswer
        obtain ⟨hi, hport, hkey⟩ := h.ports.only hfind
        exact ⟨i, hi, hfits i hi hport hkey, rfl, rfl⟩
    · rintro ⟨i, hi, hport, rfl, rfl⟩
      have hfound := h.ports.found hi (hport ▸ hne)
      rw [hport] at hfound
      rw [hfound]
      rfl

/-- **One step**: the collections stay consistent and the answers are right exactly for the calls
that fit. -/
theorem consistent_step_iff (h : Consistent s) {a : Action} (hstep : step s a = some s') :
    Consistent s' ∧ Answers s s' a ↔ Fits s a := by
  cases a with
  | addSocket usSocketCheckType lSocketType pSocket pvSocketData =>
    refine iff_of_true ?_ trivial
    dsimp only [step] at hstep
    rcases addSocket_spec usSocketCheckType lSocketType pSocket pvSocketData s.pool with
      ⟨e, pool', hadd, hsame⟩ | ⟨psSocket, psiSocketInfo, pool', rfl, hadd, hadded⟩
    · rw [hadd] at hstep
      cases hstep
      refine ⟨⟨h.registered.of_unchanged hsame, h.ports.of_unchanged h.registered hsame⟩, ?_⟩
      intro e' _
      show pool'.collections = s.pool.collections
      unfold Pool.collections
      rw [hsame.free, hsame.byFileDescriptor, hsame.bySocketPort]
    · rw [hadd] at hstep
      cases hstep
      refine ⟨⟨h.registered.of_added hadded, h.ports.of_added h.registered hadded⟩, ?_⟩
      intro e he
      rw [hadd] at he
      cases he
  | deleteSocket pSocket =>
    dsimp only [step] at hstep
    rcases deleteSocket_spec pSocket s.pool with ⟨e, hdel⟩ | ⟨psSocket, psiSocketInfo, rfl, hfind, hdel⟩
    · rw [hdel] at hstep
      cases hstep
      refine iff_of_true ⟨h, fun _ _ => rfl⟩ ?_
      cases pSocket with
      | none => trivial
      | some psSocket =>
        intro i hfind
        unfold deleteSocket at hdel
        dsimp only at hdel
        rw [hfind] at hdel
        cases hdel
    · rw [hdel] at hstep
      cases hstep
      have hdiff : s.registered.diff (some psSocket).toList = s.registered.erase psSocket := by
        rw [Option.toList_some, List.diff_cons, List.diff_nil]
      rw [hdiff]
      have hfits : Fits s (.deleteSocket (some psSocket)) ↔ s.pool.socketOf psiSocketInfo = psSocket := by
        constructor
        · intro hfits
          exact hfits _ hfind
        · intro hself i hi
          rw [hfind] at hi
          cases hi
          exact hself
      rw [hfits]
      constructor
      · intro hgood
        by_contra hother
        exact h.registered.not_of_deleted_other hfind hother rfl hgood.1.registered
      · intro hself
        refine ⟨⟨h.registered.of_deleted hfind hself rfl rfl rfl rfl rfl,
          h.ports.of_deleted h.registered hfind hself rfl rfl rfl rfl⟩, ?_⟩
        intro e he
        rw [hdel] at he
        cases he
  | findServerSocket ulServerPort =>
    cases hstep
    exact ⟨fun hgood => (findsServer_iff h ulServerPort).mp hgood.2,
      fun hfits => ⟨h, (findsServer_iff h ulServerPort).mpr hfits⟩⟩
  | socket psSocket impl =>
    dsimp only [step] at hstep
    split at hstep
    · cases hstep
    · next hnot =>
      cases hstep
      exact iff_of_true ⟨⟨h.registered.of_socket hnot impl, h.ports.of_socket h.registered hnot impl⟩,
        trivial⟩ trivial

/-- **The collections of a pool.**  Along a run from `init` they are consistent, and the answers
are right, exactly when every call fits. -/
theorem consistent_run (ulMaxSocketsNumber : ℕ) (psiSocketsInfo : ℕ → SocketInfo)
    (ppfDescriptors : ℕ → PollFd) (sockets : ℕ → SocketImpl) (actions : List Action) :
    Always step (fun s a s' => Consistent s' ∧ Answers s s' a)
        (System.init ulMaxSocketsNumber psiSocketsInfo ppfDescriptors sockets) actions ↔
      Always step (fun s a _ => Fits s a)
        (System.init ulMaxSocketsNumber psiSocketsInfo ppfDescriptors sockets) actions := by
  have hiff : ∀ s a s', Consistent s → step s a = some s' →
      (Consistent s' ∧ Answers s s' a ↔ Fits s a) := fun _ _ _ h => consistent_step_iff h
  exact always_iff_of_kept hiff (fun _ _ _ h => h.1) ⟨Registered.init .., Ports.init ..⟩ actions

/-- Two sockets without a descriptor, one of which has a port: the deletion of the other one
frees its record. -/
theorem not_consistent_other_socket :
    ¬Always step (fun s a s' => Consistent s' ∧ Answers s s' a)
      (System.init 1 (fun _ => ⟨0, 0, ⟨false, false, false⟩, 0, 0⟩)
        (fun _ => ⟨0, ⟨false, false, false⟩, ⟨false, false, false⟩⟩)
        (fun psSocket => ⟨-1, if psSocket = 0 then 80 else -1⟩))
      [.addSocket ⟨true, false, false⟩ 0 (some 0) 0, .deleteSocket (some 1)] := by
  intro h
  have hlength := ((h _ rfl).2 _ rfl).1.1.registered.sockets.length_eq
  exact absurd hlength (by decide)

end SocketsPool

end CatraLibraries
