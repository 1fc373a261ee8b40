/-
# What the calls of a client sockets pool do

When a socket gets its connection, and how `getFreeClientSocket` and `releaseClientSocket` end.
-/
import CatraLibraries.Socket.ClientSocketsPool

namespace CatraLibraries

/-! ### When a socket is connected -/

namespace ClientSocket

variable {lRemotePort : ℤ} {a : Attempt} {n : ℕ} {c : ClientSocket}

/-- A connection that is there is closed. -/
def Closes (closes : Bool) (c : ClientSocket) : Prop := c.bSocketImplCreated = true → closes = true

theorem finish_of_closes {closes : Bool}
    (hc : c.sClientSocketStatus = .sckClientSocketInitialized) (hcloses : c.Closes closes) :
    c.finish closes = (true,
      { c with
        sClientSocketStatus := .sckClientSocketBuilded
        tConnectUTCStartTimeInSeconds := 0
        pSocketImpl := none }) := by
  unfold finish
  rw [if_neg (not_not.mpr hc), if_neg fun h => h.2 (hcloses h.1)]

/-- A `finish` that fails changes nothing. -/
theorem finish_of_false {closes : Bool} (h : (c.finish closes).1 = false) :
    (c.finish closes).2 = c := by
  unfold finish at h ⊢
  split_ifs at h ⊢
  · rfl
  · rfl

end ClientSocket

namespace ClientSocketsPool

namespace Pool

variable {p : Pool} {a : Attempts} {c c' : ClientSocket} {r : Except PoolError Unit}

variable {address : List Char} {p' : Pool}

/-- **What `getFreeClientSocket` does**: without a free socket nothing, else it takes the first one
off the vector and connects it. -/
theorem getFreeClientSocket_cases {r : Except PoolError Pointer}
    (h : p.getFreeClientSocket address a = some (r, p')) :
    (p.freeSockets address = [] ∧ r = .error (.noClientSocketAvailable address) ∧
        p' = p.setFree address []) ∨
      ∃ pointer rest r' c, p.freeSockets address = pointer :: rest ∧
        p.connect a (p.clientSockets pointer) = some (r', c) ∧ r = r'.map (fun _ => pointer) ∧
          p' = { p.setFree address rest with
            clientSockets := Function.update p.clientSockets pointer c
            socketImpls := p.socketImpls + 2 } := by
  unfold getFreeClientSocket at h
  cases hfree : p.freeSockets address with
  | nil =>
    rw [hfree] at h
    cases h
    exact .inl ⟨rfl, rfl, rfl⟩
  | cons pointer rest =>
    rw [hfree] at h
    obtain ⟨⟨r', c⟩, hconnect, h⟩ := Option.bind_eq_some_iff.mp h
    cases h
    exact .inr ⟨pointer, rest, r', c, rfl, hconnect, rfl, rfl⟩

/-- Both overloads of `getFreeClientSocket` give the same sockets. -/
theorem get_eq_some {overload : Overload} {r : Except PoolError Pointer}
    (h : p.get overload address a = some (r, p')) :
    ∃ r', p.getFreeClientSocket address a = some (r', p') ∧
      ∀ pointer, r = .ok pointer ↔ r' = .ok pointer := by
  cases overload with
  | buffer => exact ⟨r, h, fun _ => Iff.rfl⟩
  | charPointer =>
    obtain ⟨⟨r', p₁⟩, hget, h⟩ := Option.bind_eq_some_iff.mp h
    cases h
    refine ⟨r', hget, fun pointer => ?_⟩
    cases r' with
    | error e => exact iff_of_false (fun h => by cases h) fun h => by cases h
    | ok pointer' => exact ⟨fun h => (by cases h; rfl), fun h => (by cases h; rfl)⟩

/-- What an overload of `releaseClientSocket` hands on of `bSocketToBeClosed`. -/
def handedOn (overload : Overload) (bSocketToBeClosed : Bool) : Bool :=
  match overload with
  | .buffer => bSocketToBeClosed
  | .charPointer => false

/-- How a `releaseClientSocket` ends: the socket is free again, finished where it is to be closed,
or the address is not known or the socket could not be finished. -/
inductive Released (p : Pool) (address : List Char) (pointer : Pointer) (close closes : Bool) :
    Except PoolError Unit × Pool → Prop
  | free {free : List Pointer} (hfree : p.phmClientSocketsInfo address = some free)
      {sockets : Pointer → ClientSocket} (hsockets : sockets = if close then
        Function.update p.clientSockets pointer ((p.clientSockets pointer).finish closes).2
        else p.clientSockets) :
    Released p address pointer close closes
      (.ok (), { p.setFree address (pointer :: free) with clientSockets := sockets })
  | failed (e : PoolError) (hfails : p.phmClientSocketsInfo address = none ∨
      close = true ∧ ((p.clientSockets pointer).finish closes).1 = false) :
    Released p address pointer close closes (.error e, p)

theorem releaseClientSocket_released (p : Pool) (address : List Char) (pointer : Pointer)
    (close closes : Bool) :
    Released p address pointer close closes (p.releaseClientSocket address pointer close closes) := by
  unfold releaseClientSocket
  cases hfree : p.phmClientSocketsInfo address with
  | none => exact Released.failed _ (.inl hfree)
  | some free =>
    cases close with
    | false => exact Released.free hfree rfl
    | true =>
      cases hfinish : ((p.clientSockets pointer).finish closes).1 with
      | false =>
        have hfail : Released p address pointer true closes (.error .clientSocketFinishFailed, p) :=
          Released.failed _ (.inr ⟨rfl, hfinish⟩)
        have hsame := ClientSocket.finish_of_false hfinish
        generalize (p.clientSockets pointer).finish closes = x at hfinish hfail hsame
        obtain ⟨finished, c⟩ := x
        cases hfinish
        obtain rfl : c = p.clientSockets pointer := hsame
        show Released p address pointer true closes (_, { p with
          clientSockets := Function.update p.clientSockets pointer (p.clientSockets pointer) })
        rw [Function.update_eq_self]
        exact hfail
      | true =>
        have hok : Released p address pointer true closes (.ok (), { p.setFree address (pointer :: free) with
            clientSockets := Function.update p.clientSockets pointer
              ((p.clientSockets pointer).finish closes).2 }) := Released.free hfree rfl
        generalize (p.clientSockets pointer).finish closes = x at hfinish hok
        obtain ⟨finished, c⟩ := x
        cases hfinish
        exact hok

/-- **What `releaseClientSocket` does**, with either overload. -/
theorem release_released (p : Pool) (overload : Overload) (address : List Char) (pointer : Pointer)
    (bSocketToBeClosed closes : Bool) :
    Released p address pointer (handedOn overload bSocketToBeClosed) closes
      (p.release overload address pointer bSocketToBeClosed closes) := by
  cases overload with
  | buffer => exact p.releaseClientSocket_released address pointer bSocketToBeClosed closes
  | charPointer =>
    have h := p.releaseClientSocket_released address pointer false closes
    show Released p address pointer false closes _
    unfold release
    dsimp only
    generalize p.releaseClientSocket address pointer false closes = x at h
    cases h with
    | free hfree hsockets => exact Released.free hfree hsockets
    | failed e hfails => exact Released.failed _ hfails

end Pool

end ClientSocketsPool

end CatraLibraries
