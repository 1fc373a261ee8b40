/-
# Sockets pools

`Socket/src/SocketsPool.cpp`, built with `poll`.  A pool has a `SocketInfo` record for each socket
it can hold; the records that no socket uses are in a vector, the others are found by the file
descriptor of their socket, and by its local port when it has one.  A record points at the slot of
its socket in the array given to `poll`.

A pool here is one between `init` and `finish`.  A pointer to a socket, a record or a slot is a
number, and `sockets` has the members of every socket object that the pool reads.  The hash maps
have keys of type `int`.
-/
import CatraLibraries.Lib.HashMaps
import CatraLibraries.Lib.Transition
import Mathlib.Algebra.Group.Nat.Defs
import Mathlib.Data.Int.Basic
import Mathlib.Logic.Function.Basic

namespace CatraLibraries

namespace SocketsPool

open HashMaps

/-- The bits of `usSocketCheckType`: `SOCKETSTATUS_READ`, `_WRITE` and `_EXCEPTION`. -/
structure CheckType where
  read : Bool
  write : Bool
  exception : Bool
  deriving DecidableEq, Repr

/-- The bits of `events` and `revents` that the pool uses. -/
structure PollEvents where
  pollIn : Bool
  pollOut : Bool
  pollPri : Bool
  deriving DecidableEq, Repr

/-- The members of a `SocketImpl` that the pool reads. -/
structure SocketImpl where
  iFd : ℤ
  lLocalPort : ℤ
  deriving DecidableEq, Repr

/-- `SocketInfo_t`; `ppfDescriptor` is an index of `_ppfDescriptors`. -/
structure SocketInfo where
  psSocket : ℕ
  pvData : ℕ
  usSocketCheckType : CheckType
  lSocketType : ℤ
  ppfDescriptor : ℕ
  deriving DecidableEq, Repr

/-- `struct pollfd`. -/
structure PollFd where
  fd : ℤ
  events : PollEvents
  revents : PollEvents
  deriving DecidableEq, Repr

/-- The errors that the methods return. -/
inductive SocketError
  | activationWrong
  | socketAlreadyAdded (iFd : ℤ)
  | reachedMaxSocketsNumber (ulMaxSocketsNumber : ℕ)
  | freeSocketsVectorNotConsistent
  | keyDuplicated (key : ℤ)
  | socketNotFound (key : ℤ)
  | poolEmpty
  | socketStatusNotChanged
  | pollFailed
  deriving DecidableEq, Repr

/-- The members of an initialized pool, and the sockets outside it. -/
structure Pool where
  ulMaxSocketsNumber : ℕ
  psiSocketsInfo : ℕ → SocketInfo
  vFreeSocketsInfo : List ℕ
  setByFileDescriptor : HashMap ℤ ℕ
  setBySocketPort : HashMap ℤ ℕ
  ppfDescriptors : ℕ → PollFd
  sockets : ℕ → SocketImpl

/-- The conversion of a `long` to the `int` of a key. -/
def toInt (n : ℤ) : ℤ := n.bmod (2 ^ 32)

def CheckType.any (t : CheckType) : Bool := t.read || t.write || t.exception

/-- The `events` of a slot. -/
def CheckType.events (t : CheckType) : PollEvents := ⟨t.read, t.write, t.exception⟩

/-- `init`, with what is in the memory that it allocates. -/
def init (ulMaxSocketsNumber : ℕ) (psiSocketsInfo : ℕ → SocketInfo) (ppfDescriptors : ℕ → PollFd)
    (sockets : ℕ → SocketImpl) : Pool where
  ulMaxSocketsNumber := ulMaxSocketsNumber
  psiSocketsInfo := psiSocketsInfo
  vFreeSocketsInfo := List.range ulMaxSocketsNumber
  setByFileDescriptor := ∅
  setBySocketPort := ∅
  ppfDescriptors := ppfDescriptors
  sockets := sockets

/-- What a method returns, and the pool as it leaves it. -/
abbrev Outcome (α : Type) := Except SocketError α × Pool

/-- The pool with a record and a slot filled in for a socket. -/
def fill (usSocketCheckType : CheckType) (lSocketType : ℤ) (psSocket pvSocketData : ℕ)
    (psiSocketInfo : ℕ) (pool : Pool) : Pool :=
  let ulSocketsPoolSize := size pool.setByFileDescriptor
  { pool with
    ppfDescriptors := Function.update pool.ppfDescriptors ulSocketsPoolSize
      { fd := (pool.sockets psSocket).iFd
        events := usSocketCheckType.events
        revents := ⟨false, false, false⟩ }
    psiSocketsInfo := Function.update pool.psiSocketsInfo psiSocketInfo
      { psSocket := psSocket
        pvData := pvSocketData
        usSocketCheckType := usSocketCheckType
        lSocketType := lSocketType
        ppfDescriptor := ulSocketsPoolSize } }

/-- The insertions of `addSocket` into the two maps; `rest` is the vector without its first
record. -/
def register (pSocketImpl : SocketImpl) (psiSocketInfo : ℕ) (rest : List ℕ) (pool : Pool) :
    Outcome Unit :=
  match insertWithoutDuplication pSocketImpl.iFd psiSocketInfo pool.setByFileDescriptor with
  | (false, _) => (.error (.keyDuplicated pSocketImpl.iFd), pool)
  | (true, byFileDescriptor) =>
    if pSocketImpl.lLocalPort = -1 then
      (.ok (), { pool with setByFileDescriptor := byFileDescriptor, vFreeSocketsInfo := rest })
    else
      match insertWithoutDuplication (toInt pSocketImpl.lLocalPort) psiSocketInfo
          pool.setBySocketPort with
      | (false, _) =>
        (.error (.keyDuplicated pSocketImpl.lLocalPort),
          { pool with setByFileDescriptor := byFileDescriptor.erase pSocketImpl.iFd })
      | (true, bySocketPort) =>
        (.ok (), { pool with
          setByFileDescriptor := byFileDescriptor
          setBySocketPort := bySocketPort
          vFreeSocketsInfo := rest })

/-- `addSocket`; `none` is a NULL socket. -/
def addSocket (usSocketCheckType : CheckType) (lSocketType : ℤ) (pSocket : Option ℕ)
    (pvSocketData : ℕ) (pool : Pool) : Outcome Unit :=
  match pSocket with
  | none => (.error .activationWrong, pool)
  | some psSocket =>
    if ¬usSocketCheckType.any then (.error .activationWrong, pool)
    else
      let pSocketImpl := pool.sockets psSocket
      if pSocketImpl.iFd ∈ pool.setByFileDescriptor then
        (.error (.socketAlreadyAdded pSocketImpl.iFd), pool)
      else if pool.ulMaxSocketsNumber ≤ size pool.setByFileDescriptor then
        (.error (.reachedMaxSocketsNumber pool.ulMaxSocketsNumber), pool)
      else
        match pool.vFreeSocketsInfo with
        | [] => (.error .freeSocketsVectorNotConsistent, pool)
        | psiSocketInfo :: rest =>
          register pSocketImpl psiSocketInfo rest
            (fill usSocketCheckType lSocketType psSocket pvSocketData psiSocketInfo pool)

/-- The slot of the deleted socket gets the contents of the last one. -/
def compact (psiSocketInfo : ℕ) (pool : Pool) : ℕ → PollFd :=
  let ulLastDescriptorIndex := size pool.setByFileDescriptor - 1
  let ppfDescriptor := (pool.psiSocketsInfo psiSocketInfo).ppfDescriptor
  if ppfDescriptor ≠ ulLastDescriptorIndex then
    Function.update pool.ppfDescriptors ppfDescriptor (pool.ppfDescriptors ulLastDescriptorIndex)
  else pool.ppfDescriptors

/-- `deleteSocket`; what it returns is `*pvSocketData`. -/
def deleteSocket (pSocket : Option ℕ) (pool : Pool) : Outcome ℕ :=
  match pSocket with
  | none => (.error .activationWrong, pool)
  | some psSocket =>
    let pSocketImpl := pool.sockets psSocket
    match pool.setByFileDescriptor.lookup pSocketImpl.iFd with
    | none => (.error (.socketNotFound pSocketImpl.iFd), pool)
    | some psiSocketInfo =>
      (.ok (pool.psiSocketsInfo psiSocketInfo).pvData,
        { pool with
          ppfDescriptors := compact psiSocketInfo pool
          setByFileDescriptor := pool.setByFileDescriptor.erase pSocketImpl.iFd
          setBySocketPort :=
            if pSocketImpl.lLocalPort ≠ -1 then
              pool.setBySocketPort.erase (toInt pSocketImpl.lLocalPort)
            else pool.setBySocketPort
          vFreeSocketsInfo := pool.vFreeSocketsInfo ++ [psiSocketInfo] })

/-- `findServerSocket`: the socket and its data. -/
def findServerSocket (ulServerPort : ℕ) (pool : Pool) : Except SocketError (ℕ × ℕ) :=
  match pool.setBySocketPort.lookup (toInt ulServerPort) with
  | none => .error (.socketNotFound ulServerPort)
  | some psiSocketInfo =>
    .ok ((pool.psiSocketsInfo psiSocketInfo).psSocket, (pool.psiSocketsInfo psiSocketInfo).pvData)

/-! ### Runs -/

/-- A pool and the sockets that were added to it and not deleted since. -/
structure System where
  pool : Pool
  registered : List ℕ

/-- What happens to a pool: calls of its methods, and a socket that is created, bound, connected
or closed. -/
inductive Action
  | addSocket (usSocketCheckType : CheckType) (lSocketType : ℤ) (pSocket : Option ℕ)
      (pvSocketData : ℕ)
  | deleteSocket (pSocket : Option ℕ)
  | findServerSocket (ulServerPort : ℕ)
  | socket (psSocket : ℕ) (impl : SocketImpl)
  deriving DecidableEq, Repr

/-- A socket keeps its descriptor and its port while it is registered. -/
def step (s : System) : Action → Option System
  | .addSocket usSocketCheckType lSocketType pSocket pvSocketData =>
    match addSocket usSocketCheckType lSocketType pSocket pvSocketData s.pool with
    | (.error _, pool) => some { s with pool := pool }
    | (.ok (), pool) => some ⟨pool, pSocket.toList ++ s.registered⟩
  | .deleteSocket pSocket =>
    match deleteSocket pSocket s.pool with
    | (.error _, pool) => some { s with pool := pool }
    | (.ok _, pool) => some ⟨pool, s.registered.diff pSocket.toList⟩
  | .findServerSocket _ => some s
  | .socket psSocket impl =>
    if psSocket ∈ s.registered then none
    else some { s with
      pool := { s.pool with sockets := Function.update s.pool.sockets psSocket impl } }

/-- The system after `init`. -/
def System.init (ulMaxSocketsNumber : ℕ) (psiSocketsInfo : ℕ → SocketInfo)
    (ppfDescriptors : ℕ → PollFd) (sockets : ℕ → SocketImpl) : System :=
  ⟨SocketsPool.init ulMaxSocketsNumber psiSocketsInfo ppfDescriptors sockets, []⟩

/-! ### What the methods do -/

variable {pool pool' : Pool} {usSocketCheckType : CheckType} {lSocketType : ℤ}
  {psSocket pvSocketData psiSocketInfo : ℕ} {pSocket : Option ℕ} {rest : List ℕ}

/-- The collections are the same, and what they refer to. -/
structure Unchanged (pool pool' : Pool) : Prop where
  number : pool'.ulMaxSocketsNumber = pool.ulMaxSocketsNumber
  free : pool'.vFreeSocketsInfo = pool.vFreeSocketsInfo
  byFileDescriptor : pool'.setByFileDescriptor = pool.setByFileDescriptor
  bySocketPort : pool'.setBySocketPort = pool.setBySocketPort
  sockets : pool'.sockets = pool.sockets
  infos : ∀ i ∉ pool.vFreeSocketsInfo, pool'.psiSocketsInfo i = pool.psiSocketsInfo i
  slots : ∀ i < size pool.setByFileDescriptor, pool'.ppfDescriptors i = pool.ppfDescriptors i

/-- A record and a slot now belong to the socket. -/
structure Added (pool pool' : Pool) (usSocketCheckType : CheckType) (lSocketType : ℤ)
    (psSocket pvSocketData psiSocketInfo : ℕ) : Prop where
  number : pool'.ulMaxSocketsNumber = pool.ulMaxSocketsNumber
  free : pool.vFreeSocketsInfo = psiSocketInfo :: pool'.vFreeSocketsInfo
  fresh : (pool.sockets psSocket).iFd ∉ pool.setByFileDescriptor
  byFileDescriptor : pool'.setByFileDescriptor =
    pool.setByFileDescriptor.insert (pool.sockets psSocket).iFd psiSocketInfo
  bySocketPort :
    ((pool.sockets psSocket).lLocalPort = -1 ∧ pool'.setBySocketPort = pool.setBySocketPort) ∨
    ((pool.sockets psSocket).lLocalPort ≠ -1 ∧
      toInt (pool.sockets psSocket).lLocalPort ∉ pool.setBySocketPort ∧
      pool'.setBySocketPort =
        pool.setBySocketPort.insert (toInt (pool.sockets psSocket).lLocalPort) psiSocketInfo)
  sockets : pool'.sockets = pool.sockets
  infos : pool'.psiSocketsInfo = Function.update pool.psiSocketsInfo psiSocketInfo
    ⟨psSocket, pvSocketData, usSocketCheckType, lSocketType, size pool.setByFileDescriptor⟩
  slots : pool'.ppfDescriptors = Function.update pool.ppfDescriptors (size pool.setByFileDescriptor)
    ⟨(pool.sockets psSocket).iFd, usSocketCheckType.events, ⟨false, false, false⟩⟩

theorem Unchanged.refl (pool : Pool) : Unchanged pool pool :=
  ⟨rfl, rfl, rfl, rfl, rfl, fun _ _ => rfl, fun _ _ => rfl⟩

/-- A record that is not used yet, and a slot behind the last one, may be filled in. -/
theorem unchanged_fill (h : pool.vFreeSocketsInfo = psiSocketInfo :: rest) :
    Unchanged pool
      (fill usSocketCheckType lSocketType psSocket pvSocketData psiSocketInfo pool) := by
  refine ⟨rfl, rfl, rfl, rfl, rfl, ?_, ?_⟩
  · intro i hi
    refine Function.update_of_ne ?_ _ _
    rintro rfl
    exact hi (h ▸ List.mem_cons_self)
  · intro i hi
    exact Function.update_of_ne (Nat.ne_of_lt hi) _ _

theorem register_spec (hfree : pool.vFreeSocketsInfo = psiSocketInfo :: rest)
    (hfresh : (pool.sockets psSocket).iFd ∉ pool.setByFileDescriptor) :
    (∃ e pool', register (pool.sockets psSocket) psiSocketInfo rest
        (fill usSocketCheckType lSocketType psSocket pvSocketData psiSocketInfo pool)
          = (.error e, pool') ∧ Unchanged pool pool') ∨
    (∃ pool', register (pool.sockets psSocket) psiSocketInfo rest
        (fill usSocketCheckType lSocketType psSocket pvSocketData psiSocketInfo pool)
          = (.ok (), pool') ∧
      Added pool pool' usSocketCheckType lSocketType psSocket pvSocketData psiSocketInfo) := by
  have hunchanged : Unchanged pool
      (fill usSocketCheckType lSocketType psSocket pvSocketData psiSocketInfo pool) :=
    unchanged_fill hfree
  have hfresh' : (pool.sockets psSocket).iFd ∉
    (fill usSocketCheckType lSocketType psSocket pvSocketData psiSocketInfo pool).setByFileDescriptor
      := hfresh
  unfold register
  rw [insertWithoutDuplication_of_notMem hfresh']
  dsimp only
  by_cases hport : (pool.sockets psSocket).lLocalPort = -1
  · rw [if_pos hport]
    exact .inr ⟨_, rfl, rfl, hfree, hfresh, rfl, .inl ⟨hport, rfl⟩, rfl, rfl, rfl⟩
  · rw [if_neg hport]
    by_cases hkey : toInt (pool.sockets psSocket).lLocalPort ∈ pool.setBySocketPort
    · -- the insertion by descriptor is taken back
      have hkey' : toInt (pool.sockets psSocket).lLocalPort ∈ (fill usSocketCheckType lSocketType
        psSocket pvSocketData psiSocketInfo pool).setBySocketPort := hkey
      rw [insertWithoutDuplication_of_mem hkey']
      exact .inl ⟨_, _, rfl, { hunchanged with byFileDescriptor := erase_insert hfresh }⟩
    · have hkey' : toInt (pool.sockets psSocket).lLocalPort ∉ (fill usSocketCheckType lSocketType
        psSocket pvSocketData psiSocketInfo pool).setBySocketPort := hkey
      rw [insertWithoutDuplication_of_notMem hkey']
      exact .inr ⟨_, rfl, rfl, hfree, hfresh, rfl, .inr ⟨hport, hkey, rfl⟩, rfl, rfl, rfl⟩

/-- **`addSocket`** fails and changes no collection, or registers its socket. -/
theorem addSocket_spec (usSocketCheckType : CheckType) (lSocketType : ℤ) (pSocket : Option ℕ)
    (pvSocketData : ℕ) (pool : Pool) :
    (∃ e pool', addSocket usSocketCheckType lSocketType pSocket pvSocketData pool = (.error e, pool') ∧
      Unchanged pool pool') ∨
    (∃ psSocket psiSocketInfo pool', pSocket = some psSocket ∧
      addSocket usSocketCheckType lSocketType pSocket pvSocketData pool = (.ok (), pool') ∧
      Added pool pool' usSocketCheckType lSocketType psSocket pvSocketData psiSocketInfo) := by
  cases pSocket with
  | none => exact .inl ⟨_, _, rfl, .refl pool⟩
  | some psSocket =>
    unfold addSocket
    dsimp only
    by_cases hany : ¬usSocketCheckType.any
    · rw [if_pos hany]
      exact .inl ⟨_, _, rfl, .refl pool⟩
    rw [if_neg hany]
    by_cases hfresh : (pool.sockets psSocket).iFd ∈ pool.setByFileDescriptor
    · rw [if_pos hfresh]
      exact .inl ⟨_, _, rfl, .refl pool⟩
    rw [if_neg hfresh]
    by_cases hroom : pool.ulMaxSocketsNumber ≤ size pool.setByFileDescriptor
    · rw [if_pos hroom]
      exact .inl ⟨_, _, rfl, .refl pool⟩
    rw [if_neg hroom]
    cases hfree : pool.vFreeSocketsInfo with
    | nil => exact .inl ⟨_, _, rfl, .refl pool⟩
    | cons psiSocketInfo rest =>
      rcases register_spec hfree hfresh with h | ⟨pool', h, hadded⟩
      · exact .inl h
      · exact .inr ⟨psSocket, psiSocketInfo, pool', rfl, h, hadded⟩

/-- **`deleteSocket`** fails and changes nothing, or frees the record that it finds by the
descriptor. -/
theorem deleteSocket_spec (pSocket : Option ℕ) (pool : Pool) :
    (∃ e, deleteSocket pSocket pool = (.error e, pool)) ∨
    (∃ psSocket psiSocketInfo, pSocket = some psSocket ∧
      pool.setByFileDescriptor.lookup (pool.sockets psSocket).iFd = some psiSocketInfo ∧
      deleteSocket pSocket pool = (.ok (pool.psiSocketsInfo psiSocketInfo).pvData,
        { pool with
          ppfDescriptors := compact psiSocketInfo pool
          setByFileDescriptor := pool.setByFileDescriptor.erase (pool.sockets psSocket).iFd
          setBySocketPort :=
            if (pool.sockets psSocket).lLocalPort ≠ -1 then
              pool.setBySocketPort.erase (toInt (pool.sockets psSocket).lLocalPort)
            else pool.setBySocketPort
          vFreeSocketsInfo := pool.vFreeSocketsInfo ++ [psiSocketInfo] })) := by
  cases pSocket with
  | none => exact .inl ⟨_, rfl⟩
  | some psSocket =>
    unfold deleteSocket
    dsimp only
    cases hfind : pool.setByFileDescriptor.lookup (pool.sockets psSocket).iFd with
    | none => exact .inl ⟨_, rfl⟩
    | some psiSocketInfo => exact .inr ⟨psSocket, psiSocketInfo, rfl, hfind, rfl⟩

/-- The record of the socket is free again. -/
structure Deleted (pool pool' : Pool) (psSocket psiSocketInfo : ℕ) : Prop where
  found : pool.setByFileDescriptor.lookup (pool.sockets psSocket).iFd = some psiSocketInfo
  number : pool'.ulMaxSocketsNumber = pool.ulMaxSocketsNumber
  free : pool'.vFreeSocketsInfo = pool.vFreeSocketsInfo ++ [psiSocketInfo]
  byFileDescriptor :
    pool'.setByFileDescriptor = pool.setByFileDescriptor.erase (pool.sockets psSocket).iFd
  bySocketPort : pool'.setBySocketPort =
    if (pool.sockets psSocket).lLocalPort ≠ -1 then
      pool.setBySocketPort.erase (toInt (pool.sockets psSocket).lLocalPort)
    else pool.setBySocketPort
  sockets : pool'.sockets = pool.sockets
  infos : pool'.psiSocketsInfo = pool.psiSocketsInfo
  slots : pool'.ppfDescriptors = compact psiSocketInfo pool

/-- **What a step does**: it changes no collection, registers a socket, frees a record, or changes
a socket that is not registered. -/
theorem step_cases {s s' : System} {a : Action} (hstep : step s a = some s') :
    (Unchanged s.pool s'.pool ∧ s'.registered = s.registered ∧
      ∀ psSocket, a = .deleteSocket (some psSocket) →
        s.pool.setByFileDescriptor.lookup (s.pool.sockets psSocket).iFd = none) ∨
    (∃ usSocketCheckType lSocketType psSocket pvSocketData psiSocketInfo,
      a = .addSocket usSocketCheckType lSocketType (some psSocket) pvSocketData ∧
      Added s.pool s'.pool usSocketCheckType lSocketType psSocket pvSocketData psiSocketInfo ∧
      s'.registered = psSocket :: s.registered) ∨
    (∃ psSocket psiSocketInfo, a = .deleteSocket (some psSocket) ∧
      Deleted s.pool s'.pool psSocket psiSocketInfo ∧
      s'.registered = s.registered.erase psSocket) ∨
    (∃ psSocket impl, a = .socket psSocket impl ∧ psSocket ∉ s.registered ∧
      s' = { s with
        pool := { s.pool with sockets := Function.update s.pool.sockets psSocket impl } }) := by
  cases a with
  | addSocket usSocketCheckType lSocketType pSocket pvSocketData =>
    dsimp only [step] at hstep
    rcases addSocket_spec usSocketCheckType lSocketType pSocket pvSocketData s.pool with
      ⟨e, pool', hadd, hsame⟩ | ⟨psSocket, psiSocketInfo, pool', rfl, hadd, hadded⟩
    · rw [hadd] at hstep
      cases hstep
      exact .inl ⟨hsame, rfl, fun _ hdelete => by cases hdelete⟩
    · rw [hadd] at hstep
      cases hstep
      exact .inr (.inl ⟨_, _, psSocket, _, psiSocketInfo, rfl, hadded, rfl⟩)
  | deleteSocket pSocket =>
    dsimp only [step] at hstep
    rcases deleteSocket_spec pSocket s.pool with
      ⟨e, hdel⟩ | ⟨psSocket, psiSocketInfo, rfl, hfind, hdel⟩
    · rw [hdel] at hstep
      cases hstep
      refine .inl ⟨.refl _, rfl, ?_⟩
      rintro psSocket ⟨⟩
      cases hfind : s.pool.setByFileDescriptor.lookup (s.pool.sockets psSocket).iFd with
      | none => rfl
      | some psiSocketInfo =>
        unfold deleteSocket at hdel
        dsimp only at hdel
        rw [hfind] at hdel
        cases hdel
    · rw [hdel] at hstep
      cases hstep
      refine .inr (.inr (.inl ⟨psSocket, psiSocketInfo, rfl, ⟨hfind, rfl, rfl, rfl, rfl, rfl, rfl, rfl⟩,
        ?_⟩))
      show s.registered.diff (some psSocket).toList = _
      rw [Option.toList_some, List.diff_cons, List.diff_nil]
  | findServerSocket ulServerPort =>
    cases hstep
    exact .inl ⟨.refl _, rfl, fun _ hdelete => by cases hdelete⟩
  | socket psSocket impl =>
    dsimp only [step] at hstep
    split at hstep
    · cases hstep
    · next hnot =>
      cases hstep
      exact .inr (.inr (.inr ⟨psSocket, impl, rfl, hnot, rfl⟩))

end SocketsPool

end CatraLibraries
