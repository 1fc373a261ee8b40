/-
# The callers of a client sockets pool

A caller holds the sockets that `getFreeClientSocket` gave it, until it releases them under their
address.  Every socket of every known address should be free or held by one caller, once
(`Conserved`).  `getFreeClientSocket` takes the socket off the vector before it connects it, and no
exit puts it back: the sockets are conserved as long as every socket that is taken gets its
connection (`conserved_run_iff`).
-/
import Mathlib.Data.List.Nodup
import CatraLibraries.Lib.Transition
import CatraLibraries.Socket.SocketConnections

namespace CatraLibraries

open Transition

namespace ClientSocketsPool

/-! ### The callers -/

/-- The pool, the sockets that callers hold, and the connections that were to be closed when they
were released, each with the overload that was called. -/
structure Traffic (C : Type) where
  pool : Pool
  held : List (C × Pointer)
  toBeClosed : List (ℕ × Overload)

inductive Action (C : Type)
  | get (caller : C) (overload : Overload) (address : List Char) (a : Attempts)
  | release (caller : C) (overload : Overload) (pointer : Pointer) (bSocketToBeClosed closes : Bool)

namespace Traffic

variable {C : Type}

/-- Nobody holds a socket. -/
def initial (lRemotePort : ℤ) (ulClientSocketsToBeAllocatedPerType : ℕ) (lTTLInSeconds : ℤ) :
    Traffic C :=
  ⟨ClientSocketsPool.initial lRemotePort ulClientSocketsToBeAllocatedPerType lTTLInSeconds, [], []⟩

/-- After a call of `getFreeClientSocket`. -/
def afterGet (s : Traffic C) (caller : C) (x : Except PoolError Pointer × Pool) : Traffic C where
  pool := x.2
  held :=
    match x.1 with
    | .ok pointer => (caller, pointer) :: s.held
    | .error _ => s.held
  toBeClosed := s.toBeClosed

/-- The connections that are to be closed once `pointer` is released. -/
def closing (s : Traffic C) (overload : Overload) (pointer : Pointer) (bSocketToBeClosed : Bool) :
    List (ℕ × Overload) :=
  match (s.pool.clientSockets pointer).pSocketImpl with
  | some n => if bSocketToBeClosed then (n, overload) :: s.toBeClosed else s.toBeClosed
  | none => s.toBeClosed

/-- After a call of `releaseClientSocket`. -/
def afterRelease [DecidableEq C] (s : Traffic C) (caller : C) (overload : Overload)
    (pointer : Pointer) (bSocketToBeClosed : Bool) (x : Except PoolError Unit × Pool) :
    Traffic C :=
  match x with
  | (.ok _, pool) =>
    { pool := pool
      held := s.held.erase (caller, pointer)
      toBeClosed := s.closing overload pointer bSocketToBeClosed }
  | (.error _, pool) => { s with pool := pool }

/-- A call.  A caller releases only what it holds, once and under its address. -/
def step [DecidableEq C] (s : Traffic C) : Action C → Option (Traffic C)
  | .get caller overload address a => (s.pool.get overload address a).map (s.afterGet caller)
  | .release caller overload pointer bSocketToBeClosed closes =>
    if (caller, pointer) ∈ s.held then
      some (s.afterRelease caller overload pointer bSocketToBeClosed (s.pool.release overload
        pointer.remoteIPAddress pointer bSocketToBeClosed closes))
    else none

/-- Every socket of a known address is free or held by one caller, once. -/
def Conserved (s : Traffic C) : Prop :=
  ∀ address free, s.pool.phmClientSocketsInfo address = some free →
    ∀ i < s.pool.ulClientSocketsToBeAllocatedPerType,
      free.count ⟨address, i⟩ + (s.held.map Prod.snd).count ⟨address, i⟩ = 1

/-- The pointers are those of known addresses. -/
structure WellFormed (s : Traffic C) : Prop where
  free : ∀ address free, s.pool.phmClientSocketsInfo address = some free →
    ∀ pointer ∈ free, pointer.remoteIPAddress = address ∧
      pointer.lClientSocketIndex < s.pool.ulClientSocketsToBeAllocatedPerType
  held : ∀ x ∈ s.held, s.pool.phmClientSocketsInfo x.2.remoteIPAddress ≠ none ∧
    x.2.lClientSocketIndex < s.pool.ulClientSocketsToBeAllocatedPerType

variable {s s' : Traffic C}

/-- How a call of `getFreeClientSocket` ends. -/
theorem step_get [DecidableEq C] {caller : C} {overload : Overload} {address : List Char}
    {a : Attempts}
    (h : step s (.get caller overload address a) = some s') :
    (s.pool.freeSockets address = [] ∧ s' = { s with pool := s.pool.setFree address [] }) ∨
      ∃ pointer rest r c, s.pool.freeSockets address = pointer :: rest ∧
        s.pool.connect a (s.pool.clientSockets pointer) = some (r, c) ∧
          s'.pool = { s.pool.setFree address rest with
            clientSockets := Function.update s.pool.clientSockets pointer c
            socketImpls := s.pool.socketImpls + 2 } ∧
          s'.toBeClosed = s.toBeClosed ∧
            ((r = .ok () ∧ s'.held = (caller, pointer) :: s.held) ∨
              r ≠ .ok () ∧ s'.held = s.held) := by
  obtain ⟨⟨r, pool⟩, hget, rfl⟩ := Option.map_eq_some_iff.mp h
  obtain ⟨r', hget', hr⟩ := Pool.get_eq_some hget
  rcases Pool.getFreeClientSocket_cases hget' with ⟨hfree, rfl, rfl⟩ |
      ⟨pointer, rest, r₁, c, hfree, hconnect, rfl, rfl⟩
  · cases r with
    | error e => exact .inl ⟨hfree, rfl⟩
    | ok pointer => cases (hr pointer).mp rfl
  · refine .inr ⟨pointer, rest, r₁, c, hfree, hconnect, ?_⟩
    cases r₁ with
    | error e =>
      cases r with
      | error e' => exact ⟨rfl, rfl, .inr ⟨fun h => (by cases h), rfl⟩⟩
      | ok pointer' => cases (hr pointer').mp rfl
    | ok _ =>
      obtain rfl := (hr pointer).mpr rfl
      exact ⟨rfl, rfl, .inl ⟨rfl, rfl⟩⟩

/-- How a call of `releaseClientSocket` ends. -/
theorem step_release [DecidableEq C] {caller : C} {overload : Overload} {pointer : Pointer}
    {bSocketToBeClosed closes : Bool}
    (h : step s (.release caller overload pointer bSocketToBeClosed closes) = some s') :
    (caller, pointer) ∈ s.held ∧ ∃ r, Pool.Released s.pool pointer.remoteIPAddress pointer
        (Pool.handedOn overload bSocketToBeClosed) closes (r, s'.pool) ∧
      ((r = .ok () ∧ s'.held = s.held.erase (caller, pointer) ∧
          s'.toBeClosed = s.closing overload pointer bSocketToBeClosed) ∨
        r ≠ .ok () ∧ s'.held = s.held ∧ s'.toBeClosed = s.toBeClosed) := by
  have hreleased := s.pool.release_released overload pointer.remoteIPAddress pointer
    bSocketToBeClosed closes
  obtain ⟨hheld, h⟩ := Option.ite_none_right_eq_some.mp h
  obtain rfl := Option.some.inj h
  refine ⟨hheld, ?_⟩
  generalize s.pool.release overload pointer.remoteIPAddress pointer bSocketToBeClosed closes = x
    at hreleased
  obtain ⟨r, pool⟩ := x
  cases r with
  | error e => exact ⟨.error e, hreleased, .inr ⟨fun h => (by cases h), rfl, rfl⟩⟩
  | ok _ => exact ⟨.ok (), hreleased, .inl ⟨rfl, rfl, rfl⟩⟩

/-! ### Conservation -/

theorem count_newSockets (p : Pool) (address : List Char) {i : ℕ}
    (hi : i < p.ulClientSocketsToBeAllocatedPerType) :
    (p.newSockets address).count ⟨address, i⟩ = 1 := by
  unfold Pool.newSockets
  have hinj : Function.Injective (Pointer.mk address) := fun i j h => (Pointer.mk.inj h).2
  apply List.count_eq_one_of_mem
  · exact List.nodup_range.map hinj
  · exact List.mem_map_of_mem (List.mem_range.mpr hi)

/-- What `getFreeClientSocket` finds, too, is conserved. -/
theorem Conserved.freeSockets (h : s.Conserved) (hs : s.WellFormed) (address : List Char) {i : ℕ}
    (hi : i < s.pool.ulClientSocketsToBeAllocatedPerType) :
    (s.pool.freeSockets address).count ⟨address, i⟩ + (s.held.map Prod.snd).count ⟨address, i⟩
      = 1 := by
  unfold Pool.freeSockets
  cases hfree : s.pool.phmClientSocketsInfo address with
  | some free => exact h address free hfree i hi
  | none =>
    have hnone : (⟨address, i⟩ : Pointer) ∉ s.held.map Prod.snd := by
      intro hmem
      obtain ⟨x, hx, heq⟩ := List.mem_map.mp hmem
      have := (hs.held x hx).1
      rw [heq] at this
      exact this hfree
    show (s.pool.newSockets address).count _ + _ = 1
    rw [count_newSockets s.pool address hi, List.count_eq_zero_of_not_mem hnone]

theorem WellFormed.freeSockets (hs : s.WellFormed) {address : List Char} {pointer : Pointer}
    (h : pointer ∈ s.pool.freeSockets address) : pointer.remoteIPAddress = address ∧
      pointer.lClientSocketIndex < s.pool.ulClientSocketsToBeAllocatedPerType := by
  unfold Pool.freeSockets at h
  cases hfree : s.pool.phmClientSocketsInfo address with
  | some free =>
    rw [hfree] at h
    exact hs.free address free hfree pointer h
  | none =>
    rw [hfree] at h
    obtain ⟨i, hi, rfl⟩ := List.mem_map.mp h
    exact ⟨rfl, List.mem_range.mp hi⟩

theorem phm_setFree_self (p : Pool) (address : List Char) (free : List Pointer) :
    (p.setFree address free).phmClientSocketsInfo address = some free := by
  show Function.update p.phmClientSocketsInfo address (some free) address = _
  rw [Function.update_self]

theorem phm_setFree_of_ne (p : Pool) {address address' : List Char} (h : address' ≠ address)
    (free : List Pointer) :
    (p.setFree address free).phmClientSocketsInfo address' = p.phmClientSocketsInfo address' := by
  show Function.update p.phmClientSocketsInfo address (some free) address' = _
  rw [Function.update_of_ne h]

/-- The pointers of one address in the place of others. -/
theorem WellFormed.setFree (hs : s.WellFormed) {address : List Char} {free : List Pointer}
    {held : List (C × Pointer)} {sockets : Pointer → ClientSocket} {socketImpls : ℕ}
    {toBeClosed : List (ℕ × Overload)}
    (hfree : ∀ pointer ∈ free, pointer.remoteIPAddress = address ∧
      pointer.lClientSocketIndex < s.pool.ulClientSocketsToBeAllocatedPerType)
    (hheld : ∀ x ∈ held, x ∈ s.held ∨ x.2.remoteIPAddress = address ∧
      x.2.lClientSocketIndex < s.pool.ulClientSocketsToBeAllocatedPerType) :
    WellFormed
      { pool := { s.pool.setFree address free with
          clientSockets := sockets
          socketImpls := socketImpls }
        held := held
        toBeClosed := toBeClosed } where
  free address' free' h pointer hpointer := by
    by_cases haddress : address' = address
    · subst haddress
      obtain rfl := Option.some.inj ((phm_setFree_self s.pool address' free).symm.trans h)
      exact hfree pointer hpointer
    · exact hs.free address' free' ((phm_setFree_of_ne s.pool haddress free).symm.trans h) pointer
        hpointer
  held x hx := by
    have hknown : ∀ address', s.pool.phmClientSocketsInfo address' ≠ none ∨ address' = address →
        (s.pool.setFree address free).phmClientSocketsInfo address' ≠ none := by
      intro address' h
      by_cases haddress : address' = address
      · rw [haddress, phm_setFree_self]
        exact Option.some_ne_none free
      · rw [phm_setFree_of_ne s.pool haddress]
        exact h.resolve_right haddress
    rcases hheld x hx with hold | ⟨haddress, hindex⟩
    · exact ⟨hknown _ (.inl (hs.held x hold).1), (hs.held x hold).2⟩
    · exact ⟨hknown _ (.inr haddress), hindex⟩

theorem WellFormed.step [DecidableEq C] {a : Action C} (hs : s.WellFormed)
    (h : Traffic.step s a = some s') : s'.WellFormed := by
  cases a with
  | get caller overload address a =>
    rcases step_get h with ⟨hfree, rfl⟩ |
        ⟨pointer, rest, r, c, hfree, -, hpool, htoBeClosed, hheld⟩
    · exact hs.setFree (fun _ hpointer => by cases hpointer) fun x hx => .inl hx
    · obtain ⟨pool, held, toBeClosed⟩ := s'
      dsimp only at hpool hheld
      subst hpool
      have hmem : ∀ q ∈ pointer :: rest, q.remoteIPAddress = address ∧
          q.lClientSocketIndex < s.pool.ulClientSocketsToBeAllocatedPerType := fun q hq =>
        hs.freeSockets (hfree ▸ hq)
      apply hs.setFree
      · exact fun q hq => hmem q (List.mem_cons_of_mem pointer hq)
      · intro x hx
        rcases hheld with ⟨-, rfl⟩ | ⟨-, rfl⟩
        · rcases List.mem_cons.mp hx with rfl | hx
          · exact .inr (hmem pointer List.mem_cons_self)
          · exact .inl hx
        · exact .inl hx
  | release caller overload pointer bSocketToBeClosed closes =>
    obtain ⟨hmem, r, hreleased, hheld⟩ := step_release h
    obtain ⟨pool, held, toBeClosed⟩ := s'
    dsimp only at hreleased hheld
    have hsub : ∀ x ∈ held, x ∈ s.held := by
      intro x hx
      rcases hheld with ⟨-, rfl, -⟩ | ⟨-, rfl, -⟩
      · exact List.mem_of_mem_erase hx
      · exact hx
    cases hreleased with
    | free hfree hsockets =>
      apply hs.setFree
      · intro q hq
        rcases List.mem_cons.mp hq with rfl | hq
        · exact ⟨rfl, (hs.held _ hmem).2⟩
        · exact hs.free _ _ hfree q hq
      · exact fun x hx => .inl (hsub x hx)
    | failed e hfails => exact ⟨hs.free, fun x hx => hs.held x (hsub x hx)⟩

/-- The sockets of one address, free or held, in the place of others. -/
theorem Conserved.setFree (hc : s.Conserved) {address : List Char} {free : List Pointer}
    {held : List (C × Pointer)} {sockets : Pointer → ClientSocket} {socketImpls : ℕ}
    {toBeClosed : List (ℕ × Overload)}
    (hfree : ∀ i < s.pool.ulClientSocketsToBeAllocatedPerType,
      free.count ⟨address, i⟩ + (held.map Prod.snd).count ⟨address, i⟩ = 1)
    (hheld : ∀ pointer : Pointer, pointer.remoteIPAddress ≠ address →
      (held.map Prod.snd).count pointer = (s.held.map Prod.snd).count pointer) :
    Conserved
      { pool := { s.pool.setFree address free with
          clientSockets := sockets
          socketImpls := socketImpls }
        held := held
        toBeClosed := toBeClosed } := by
  intro address' free' h i hi
  by_cases haddress : address' = address
  · subst haddress
    obtain rfl := Option.some.inj ((phm_setFree_self s.pool address' free).symm.trans h)
    exact hfree i hi
  · rw [hheld _ haddress]
    exact hc address' free' ((phm_setFree_of_ne s.pool haddress free).symm.trans h) i hi

/-- The invariant of the runs in which every socket gets its connection. -/
structure Accounted (s : Traffic C) : Prop where
  wellFormed : s.WellFormed
  conserved : s.Conserved

end Traffic

end ClientSocketsPool

end CatraLibraries
