/-
# Connections that are to be closed

A connection that is released with `bSocketToBeClosed` should not be handed out again.  With a
`Buffer` address the socket is finished and the next `getFreeClientSocket` connects it anew.  With a
`const char *` address the argument is dropped: the connection goes back to the pool open, and only
a `getFreeClientSocket` that finds it too old or not ready for writing replaces it.
-/
import CatraLibraries.Socket.SocketTraffic

namespace CatraLibraries

open Transition

/-! ### Calls without a failure -/

namespace ClientSocket

/-- No step of `init` and `reinit` fails. -/
def Attempt.NoFailure (a : Attempt) : Prop :=
  a.resolves ∧ a.creates ∧ a.binds ∧ a.SetsOptions ∧ a.connects ∧ a.closes

instance (a : Attempt) : Decidable a.NoFailure :=
  inferInstanceAs (Decidable (_ ∧ _ ∧ _ ∧ _ ∧ _ ∧ _))

variable {lRemotePort : ℤ} {a : Attempt} {n : ℕ} {c : ClientSocket}

/-- A socket that is initialized has a connection, and no other has one. -/
def Consistent (c : ClientSocket) : Prop :=
  c.sClientSocketStatus = .sckClientSocketInitialized ↔ c.pSocketImpl ≠ none

theorem init_noFailure (hport : 1 ≤ lRemotePort) (ha : a.NoFailure)
    (hc : c.sClientSocketStatus = .sckClientSocketBuilded) :
    c.init lRemotePort a n =
      (true, { make n true with tConnectUTCStartTimeInSeconds := a.now }) := by
  obtain ⟨hresolves, hcreates, hbinds, hoptions, hconnects, -⟩ := ha
  unfold init
  rw [if_neg (not_not.mpr hc), if_neg (Int.not_lt.mpr hport), if_neg (not_not.mpr hresolves),
    if_neg (not_not.mpr hcreates), if_neg (not_not.mpr hbinds), if_neg (not_not.mpr hoptions),
    if_neg (not_not.mpr hconnects)]

theorem reinit_noFailure (hport : 1 ≤ lRemotePort) (ha : a.NoFailure)
    (hc : c.sClientSocketStatus = .sckClientSocketInitialized) :
    c.reinit lRemotePort a n =
      (true, { make n true with tConnectUTCStartTimeInSeconds := a.now }) := by
  obtain ⟨-, -, -, -, -, hcloses⟩ := id ha
  unfold reinit
  rw [finish_of_closes hc fun _ => hcloses]
  exact init_noFailure (c := { c with
    sClientSocketStatus := .sckClientSocketBuilded
    tConnectUTCStartTimeInSeconds := 0
    pSocketImpl := none }) hport ha rfl

/-- A socket that is finished, where `close` does not fail, has no connection. -/
theorem finish_pSocketImpl (hc : c.Consistent) : (c.finish true).2.pSocketImpl = none ∧
    (c.finish true).2.Consistent := by
  by_cases hinit : c.sClientSocketStatus = .sckClientSocketInitialized
  · rw [finish_of_closes hinit fun _ => rfl]
    exact ⟨rfl, iff_of_false (fun h => by cases h) (not_not.mpr rfl)⟩
  · have hfinish : c.finish true = (false, c) := by
      unfold finish
      rw [if_pos hinit]
    rw [hfinish]
    exact ⟨not_not.mp (mt hc.mpr hinit), hc⟩

end ClientSocket

namespace ClientSocketsPool

/-- No step of `getFreeClientSocket` fails. -/
def Attempts.NoFailure (a : Attempts) : Prop :=
  a.connects.NoFailure ∧ a.getsSocketImpl ∧ a.isReadyForWriting ≠ none ∧ a.reconnects.NoFailure

instance (a : Attempts) : Decidable a.NoFailure :=
  inferInstanceAs (Decidable (_ ∧ _ ∧ _ ∧ _))

namespace Pool

variable {p : Pool} {a : Attempts} {c c' : ClientSocket} {r : Except PoolError Unit}

/-- A socket that keeps its connection. -/
def Kept (p : Pool) (a : Attempts) (c : ClientSocket) : Prop :=
  c.sClientSocketStatus = .sckClientSocketInitialized ∧ ¬p.Expired a.now c ∧
    a.isReadyForWriting = some true

/-- The connection is one of the two that a call can make. -/
structure Renewed (p : Pool) (c' : ClientSocket) : Prop where
  status : c'.sClientSocketStatus = .sckClientSocketInitialized
  socketImpl : ∃ n, c'.pSocketImpl = some n ∧ p.socketImpls ≤ n ∧ n < p.socketImpls + 2

/-- The `SocketImpl` is checked for writing, and replaced where it is not ready. -/
theorem checkWriting_cases {socketImpl : ℕ} (hport : 1 ≤ p.lRemotePort) (ha : a.NoFailure)
    (hc : c.sClientSocketStatus = .sckClientSocketInitialized)
    (h : p.checkWriting a socketImpl c = some (r, c')) :
    r = .ok () ∧ ((a.isReadyForWriting = some true ∧ c' = c) ∨
      a.isReadyForWriting = some false ∧
        c'.sClientSocketStatus = .sckClientSocketInitialized ∧ c'.pSocketImpl = some socketImpl) := by
  obtain ⟨-, hgets, hready, hreconnects⟩ := ha
  unfold checkWriting at h
  rw [if_neg (not_not.mpr hgets)] at h
  split_ifs at h
  cases hr : a.isReadyForWriting with
  | none => exact absurd hr hready
  | some ready =>
    rw [hr] at h
    cases ready with
    | true =>
      cases h
      exact ⟨rfl, .inl ⟨rfl, rfl⟩⟩
    | false =>
      rw [ClientSocket.reinit_noFailure hport hreconnects hc] at h
      cases h
      exact ⟨rfl, .inr ⟨rfl, rfl, rfl⟩⟩

/-- **A socket that is taken off the vector** keeps its connection or gets a new one. -/
theorem connect_cases (hport : 1 ≤ p.lRemotePort) (ha : a.NoFailure)
    (h : p.connect a c = some (r, c')) :
    r = .ok () ∧ ((p.Kept a c ∧ c' = c) ∨ ¬p.Kept a c ∧ p.Renewed c') := by
  unfold connect at h
  by_cases hc : c.sClientSocketStatus = .sckClientSocketBuilded
  · rw [if_pos hc, ClientSocket.init_noFailure hport ha.1 hc] at h
    cases h
    refine ⟨rfl, .inr ⟨fun hkept => ?_, rfl, p.socketImpls, rfl, Nat.le_refl _, by omega⟩⟩
    rw [hkept.1] at hc
    cases hc
  · have hinit : c.sClientSocketStatus = .sckClientSocketInitialized := by
      cases hs : c.sClientSocketStatus with
      | sckClientSocketBuilded => exact absurd hs hc
      | sckClientSocketInitialized => rfl
    rw [if_neg hc] at h
    by_cases hexpired : p.Expired a.now c
    · rw [if_pos hexpired, ClientSocket.reinit_noFailure hport ha.1 hinit] at h
      obtain ⟨hr, h⟩ := checkWriting_cases hport ha rfl h
      refine ⟨hr, .inr ⟨fun hkept => hkept.2.1 hexpired, ?_⟩⟩
      rcases h with ⟨-, rfl⟩ | ⟨-, hstatus, hsocketImpl⟩
      · exact ⟨rfl, p.socketImpls, rfl, Nat.le_refl _, by omega⟩
      · exact ⟨hstatus, p.socketImpls + 1, hsocketImpl, Nat.le_succ _, Nat.lt_succ_self _⟩
    · rw [if_neg hexpired] at h
      obtain ⟨hr, h⟩ := checkWriting_cases hport ha hinit h
      refine ⟨hr, ?_⟩
      rcases h with ⟨hready, rfl⟩ | ⟨hready, hstatus, hsocketImpl⟩
      · exact .inl ⟨⟨hinit, hexpired, hready⟩, rfl⟩
      · refine .inr ⟨fun hkept => ?_, hstatus, p.socketImpls + 1, hsocketImpl, Nat.le_succ _,
          Nat.lt_succ_self _⟩
        rw [hkept.2.2] at hready
        cases hready

end Pool

/-! ### The connections of a run -/

variable {C : Type}

/-- No step of a call fails. -/
def Action.NoFailure : Action C → Prop
  | .get _ _ _ a => a.NoFailure
  | .release _ _ _ _ closes => closes

namespace Traffic

/-- The connections are distinct, and one that was to be closed, and was released with a `Buffer`,
is in no socket any more. -/
structure Numbered (s : Traffic C) : Prop where
  port : 1 ≤ s.pool.lRemotePort
  consistent : ∀ pointer, (s.pool.clientSockets pointer).Consistent
  fresh : ∀ pointer, ∀ n ∈ (s.pool.clientSockets pointer).pSocketImpl, n < s.pool.socketImpls
  used : ∀ x ∈ s.toBeClosed, x.1 < s.pool.socketImpls
  distinct : ∀ pointer pointer', ∀ n ∈ (s.pool.clientSockets pointer).pSocketImpl,
    n ∈ (s.pool.clientSockets pointer').pSocketImpl → pointer = pointer'
  closed : ∀ n, (n, .buffer) ∈ s.toBeClosed →
    ∀ pointer, n ∉ (s.pool.clientSockets pointer).pSocketImpl

/-- A socket that `getFreeClientSocket` hands out has no connection that was to be closed. -/
def HandsOutOpen (s : Traffic C) (a : Action C) (s' : Traffic C) : Prop :=
  match a with
  | .get caller _ _ _ => ∀ pointer, s'.held = (caller, pointer) :: s.held →
    ∀ x ∈ s.toBeClosed, x.1 ∉ (s'.pool.clientSockets pointer).pSocketImpl
  | .release .. => True

/-- The first free socket has no connection that was to be closed when it was released with a
`const char *`, or that connection is too old or not ready for writing. -/
def ReplacesClosed (s : Traffic C) (a : Action C) : Prop :=
  match a with
  | .get _ _ address a => ∀ pointer ∈ (s.pool.freeSockets address).head?,
    ∀ n ∈ (s.pool.clientSockets pointer).pSocketImpl, (n, .charPointer) ∈ s.toBeClosed →
      s.pool.Expired a.now (s.pool.clientSockets pointer) ∨ a.isReadyForWriting = some false
  | .release .. => True

variable {s s' : Traffic C}

theorem mem_closing {overload : Overload} {pointer : Pointer} {close : Bool}
    {x : ℕ × Overload} : x ∈ s.closing overload pointer close ↔
      x ∈ s.toBeClosed ∨ close = true ∧ x.2 = overload ∧
        x.1 ∈ (s.pool.clientSockets pointer).pSocketImpl := by
  obtain ⟨n, overload'⟩ := x
  unfold closing
  cases hn : (s.pool.clientSockets pointer).pSocketImpl with
  | none => exact (or_iff_left fun h => (by cases h.2.2)).symm
  | some m =>
    cases close with
    | false => exact (or_iff_left fun h => Bool.false_ne_true h.1).symm
    | true =>
      show (n, overload') ∈ (m, overload) :: s.toBeClosed ↔ _
      rw [List.mem_cons, or_comm, Prod.mk.injEq, Option.mem_some_iff, and_iff_right rfl,
        and_comm, eq_comm (a := n)]

/-- A new connection, or the old one, in a socket that is taken off the vector. -/
theorem Numbered.taken (hs : s.Numbered) {pointer : Pointer} {c : ClientSocket}
    (hc : c = s.pool.clientSockets pointer ∨ s.pool.Renewed c) {address : List Char}
    {free : List Pointer} {held : List (C × Pointer)} :
    Numbered
      { pool := { s.pool.setFree address free with
          clientSockets := Function.update s.pool.clientSockets pointer c
          socketImpls := s.pool.socketImpls + 2 }
        held := held
        toBeClosed := s.toBeClosed } := by
  rcases hc with rfl | hc
  · -- the sockets are as they were
    rw [Function.update_eq_self]
    exact ⟨hs.port, hs.consistent, fun q n hn => Nat.lt_add_right 2 (hs.fresh q n hn),
      fun x hx => Nat.lt_add_right 2 (hs.used x hx), hs.distinct, hs.closed⟩
  · obtain ⟨m, hm, hlow, hhigh⟩ := hc.socketImpl
    have hself : ∀ n, n ∈ (Function.update s.pool.clientSockets pointer c pointer).pSocketImpl →
        n = m := by
      intro n hn
      rw [Function.update_self, hm] at hn
      exact (Option.some.inj hn).symm
    have hother : ∀ {q}, q ≠ pointer →
        Function.update s.pool.clientSockets pointer c q = s.pool.clientSockets q :=
      fun hq => Function.update_of_ne hq _ _
    refine ⟨hs.port, fun q => ?_, fun q n hn => ?_, fun x hx => Nat.lt_add_right 2 (hs.used x hx),
      fun q q' n hq hq' => ?_, fun n hn q hq => ?_⟩
    · show (Function.update s.pool.clientSockets pointer c q).Consistent
      by_cases h : q = pointer
      · rw [h, Function.update_self]
        exact iff_of_true hc.status (hm ▸ Option.some_ne_none m)
      · rw [hother h]
        exact hs.consistent q
    · change n ∈ (Function.update s.pool.clientSockets pointer c q).pSocketImpl at hn
      by_cases h : q = pointer
      · rw [h] at hn
        rw [hself n hn]
        exact hhigh
      · rw [hother h] at hn
        exact Nat.lt_add_right 2 (hs.fresh q n hn)
    · change n ∈ (Function.update s.pool.clientSockets pointer c q).pSocketImpl at hq
      change n ∈ (Function.update s.pool.clientSockets pointer c q').pSocketImpl at hq'
      -- the number of the new connection is larger than those of the others
      by_cases h : q = pointer <;> by_cases h' : q' = pointer
      · rw [h, h']
      · rw [h] at hq
        rw [hother h'] at hq'
        exact absurd (hs.fresh q' n hq') (Nat.not_lt.mpr (hself n hq ▸ hlow))
      · rw [h'] at hq'
        rw [hother h] at hq
        exact absurd (hs.fresh q n hq) (Nat.not_lt.mpr (hself n hq' ▸ hlow))
      · rw [hother h] at hq
        rw [hother h'] at hq'
        exact hs.distinct q q' n hq hq'
    · change n ∈ (Function.update s.pool.clientSockets pointer c q).pSocketImpl at hq
      by_cases h : q = pointer
      · rw [h] at hq
        exact absurd (hs.used _ hn) (Nat.not_lt.mpr (hself n hq ▸ hlow))
      · rw [hother h] at hq
        exact hs.closed n hn q hq

/-- The sockets after a `releaseClientSocket` without a failure. -/
theorem Numbered.released (hs : s.Numbered) {overload : Overload} {pointer : Pointer}
    {close : Bool} {sockets : Pointer → ClientSocket}
    (hsockets : sockets = if Pool.handedOn overload close then
      Function.update s.pool.clientSockets pointer ((s.pool.clientSockets pointer).finish true).2
      else s.pool.clientSockets) {address : List Char} {free : List Pointer}
    {held : List (C × Pointer)} :
    Numbered
      { pool := { s.pool.setFree address free with clientSockets := sockets }
        held := held
        toBeClosed := s.closing overload pointer close } := by
  have hused : ∀ x ∈ s.closing overload pointer close, x.1 < s.pool.socketImpls := by
    intro x hx
    rcases mem_closing.mp hx with hx | ⟨-, -, hx⟩
    · exact hs.used x hx
    · exact hs.fresh pointer x.1 hx
  cases hhanded : Pool.handedOn overload close with
  | false =>
    -- the connection stays open
    rw [hhanded] at hsockets
    obtain rfl : sockets = s.pool.clientSockets := hsockets
    refine ⟨hs.port, hs.consistent, hs.fresh, hused, hs.distinct, fun n hn => ?_⟩
    rcases mem_closing.mp hn with hn | ⟨rfl, rfl, -⟩
    · exact hs.closed n hn
    · cases hhanded
  | true =>
    rw [hhanded] at hsockets
    obtain rfl : sockets = Function.update s.pool.clientSockets pointer
        ((s.pool.clientSockets pointer).finish true).2 := hsockets
    obtain ⟨hnone, hconsistent⟩ := ClientSocket.finish_pSocketImpl (hs.consistent pointer)
    generalize (s.pool.clientSockets pointer).finish true = x at hnone hconsistent
    have hsub : ∀ q n, n ∈ (Function.update s.pool.clientSockets pointer x.2 q).pSocketImpl →
        q ≠ pointer ∧ n ∈ (s.pool.clientSockets q).pSocketImpl := by
      intro q n hn
      by_cases h : q = pointer
      · rw [h, Function.update_self, hnone] at hn
        cases hn
      · rw [Function.update_of_ne h] at hn
        exact ⟨h, hn⟩
    refine ⟨hs.port, fun q => ?_, fun q n hn => hs.fresh q n (hsub q n hn).2, hused,
      fun q q' n hq hq' => hs.distinct q q' n (hsub q n hq).2 (hsub q' n hq').2,
      fun n hn q hq => ?_⟩
    · show (Function.update s.pool.clientSockets pointer x.2 q).Consistent
      by_cases h : q = pointer
      · rw [h, Function.update_self]
        exact hconsistent
      · rw [Function.update_of_ne h]
        exact hs.consistent q
    · obtain ⟨hne, hq⟩ := hsub q n hq
      rcases mem_closing.mp hn with hn | ⟨-, -, hn⟩
      · exact hs.closed n hn q hq
      · exact hne (hs.distinct q pointer n hq hn)

theorem Numbered.step [DecidableEq C] {a : Action C} (hs : s.Numbered) (ha : a.NoFailure)
    (h : Traffic.step s a = some s') : s'.Numbered := by
  cases a with
  | get caller overload address a =>
    rcases step_get h with ⟨-, rfl⟩ |
        ⟨pointer, rest, r, c, hfree, hconnect, hpool, htoBeClosed, -⟩
    · exact ⟨hs.port, hs.consistent, hs.fresh, hs.used, hs.distinct, hs.closed⟩
    · obtain ⟨pool, held, toBeClosed⟩ := s'
      dsimp only at hpool htoBeClosed
      subst hpool htoBeClosed
      apply hs.taken
      obtain ⟨-, ⟨-, hsame⟩ | ⟨-, hnew⟩⟩ := Pool.connect_cases hs.port ha hconnect
      · exact .inl hsame
      · exact .inr hnew
  | release caller overload pointer close closes =>
    obtain rfl : closes = true := ha
    obtain ⟨-, r, hreleased, hends⟩ := step_release h
    obtain ⟨pool, held, toBeClosed⟩ := s'
    dsimp only at hreleased hends
    cases hreleased with
    | free hfree hsockets =>
      rcases hends with ⟨-, -, rfl⟩ | ⟨hne, -⟩
      · exact hs.released hsockets
      · exact absurd rfl hne
    | failed e hfails =>
      rcases hends with ⟨hok, -⟩ | ⟨-, -, rfl⟩
      · cases hok
      · exact ⟨hs.port, hs.consistent, hs.fresh, hs.used, hs.distinct, hs.closed⟩

/-- **One step**: a connection that was to be closed is handed out exactly when it is kept. -/
theorem handsOutOpen_iff [DecidableEq C] {a : Action C} (hs : s.Numbered) (ha : a.NoFailure)
    (h : Traffic.step s a = some s') : s.HandsOutOpen a s' ↔ s.ReplacesClosed a := by
  cases a with
  | release => exact Iff.rfl
  | get caller overload address a =>
    rcases step_get h with ⟨hfree, rfl⟩ |
        ⟨pointer, rest, r, c, hfree, hconnect, hpool, -, hends⟩
    · refine iff_of_true (fun pointer hheld => ?_) fun pointer hpointer => ?_
      · exact absurd hheld.symm (List.cons_ne_self _ _)
      · rw [hfree] at hpointer
        cases hpointer
    · obtain ⟨pool, held, toBeClosed⟩ := s'
      dsimp only at hpool hends
      subst hpool
      obtain ⟨rfl, hcases⟩ := Pool.connect_cases hs.port ha hconnect
      obtain ⟨-, rfl⟩ := hends.resolve_right fun hne => hne.1 rfl
      have hout : s.HandsOutOpen (.get caller overload address a)
          { pool := { s.pool.setFree address rest with
              clientSockets := Function.update s.pool.clientSockets pointer c
              socketImpls := s.pool.socketImpls + 2 }
            held := (caller, pointer) :: s.held
            toBeClosed := toBeClosed } ↔ ∀ x ∈ s.toBeClosed, x.1 ∉ c.pSocketImpl := by
        refine ⟨fun hall x hx => ?_, fun hall q hq x hx => ?_⟩
        · have hopen : x.1 ∉ (Function.update s.pool.clientSockets pointer c pointer).pSocketImpl :=
            hall pointer rfl x hx
          rwa [Function.update_self] at hopen
        · obtain ⟨hq, -⟩ := List.cons.inj hq
          obtain ⟨-, rfl⟩ := Prod.mk.inj hq
          show x.1 ∉ (Function.update s.pool.clientSockets pointer c pointer).pSocketImpl
          rw [Function.update_self]
          exact hall x hx
      rw [hout]
      unfold ReplacesClosed
      simp only [hfree, List.head?_cons, Option.mem_some_iff, forall_eq']
      rcases hcases with ⟨⟨-, hexpired, hready⟩, rfl⟩ | ⟨hkept, hnew⟩
      · -- the connection is kept: none of those to be closed may be in the socket
        refine ⟨fun hall n hn hclosed => absurd hn (hall _ hclosed), fun hall x hx hn => ?_⟩
        obtain ⟨n, overload⟩ := x
        cases overload with
        | buffer => exact hs.closed n hx pointer hn
        | charPointer =>
          rcases hall n hn hx with h | h
          · exact hexpired h
          · rw [hready] at h
            cases h
      · -- the connection is new
        obtain ⟨m, hm, hlow, -⟩ := hnew.socketImpl
        refine iff_of_true (fun x hx hn => ?_) fun n hn _ => ?_
        · rw [hm] at hn
          have := hs.used x hx
          rw [← Option.some.inj hn] at this
          exact absurd this (Nat.not_lt.mpr hlow)
        · by_contra hneither
          obtain ⟨hexpired, hready⟩ := not_or.mp hneither
          apply hkept
          refine ⟨(hs.consistent pointer).mpr (hn ▸ Option.some_ne_none n), hexpired, ?_⟩
          obtain ⟨-, -, hsome, -⟩ := ha
          cases hr : a.isReadyForWriting with
          | none => exact absurd hr hsome
          | some ready =>
            cases ready with
            | true => rfl
            | false => exact absurd hr hready

/-- **The connections of every run without a failure.**  None that was to be closed is handed out, if
and only if every one that was released with a `const char *` is too old or not ready for writing
when its socket is the first free one. -/
theorem handsOutOpen_run_iff [DecidableEq C] {lRemotePort : ℤ} (hport : 1 ≤ lRemotePort) (n : ℕ)
    (lTTLInSeconds : ℤ) {actions : List (Action C)} (hactions : ∀ a ∈ actions, a.NoFailure) :
    Always Traffic.step HandsOutOpen (initial lRemotePort n lTTLInSeconds) actions ↔
      Always Traffic.step (fun s a _ => s.ReplacesClosed a) (initial lRemotePort n lTTLInSeconds)
        actions := by
  have hinitial : (initial lRemotePort n lTTLInSeconds : Traffic C).Numbered :=
    ⟨hport, fun _ => iff_of_false (fun h => (by cases h)) (not_not.mpr rfl),
      fun _ _ h => (by cases h), fun _ h => (by cases h), fun _ _ _ h => (by cases h),
      fun _ h => (by cases h)⟩
  have hdomain : Always Traffic.step (fun _ a _ => a.NoFailure) (initial lRemotePort n lTTLInSeconds)
      actions :=
    always_of_actions (fun a ha _ _ => hactions a ha) _
  refine always_iff_within (fun s a s' (hs : s.Numbered) ha h => ?_)
    (fun s a s' hs ha h _ => ?_) hinitial hdomain
  · exact handsOutOpen_iff hs ha h
  · exact hs.step ha h

/-- The network where every server answers. -/
def answered : Attempts where
  now := 0
  connects := ⟨0, true, true, true, true, true, true, true, true, true⟩
  getsSocketImpl := true
  isReadyForWriting := some true
  reconnects := ⟨0, true, true, true, true, true, true, true, true, true⟩

/-- A connection that is closed with a `Buffer` is not handed out again. -/
theorem handsOutOpen_buffer :
    Always Traffic.step HandsOutOpen (initial 80 1 (-1))
      [.get () .buffer ['a'] answered, .release () .buffer ⟨['a'], 0⟩ true true,
        .get () .charPointer ['a'] answered] := by
  refine (handsOutOpen_run_iff (by decide) 1 (-1) fun a ha => ?_).mpr
    (Always.cons rfl ?_ (Always.cons rfl ?_ (Always.cons rfl ?_ trivial)))
  · simp only [List.mem_cons, List.not_mem_nil, or_false] at ha
    rcases ha with rfl | rfl | rfl
    · exact (by decide : answered.NoFailure)
    · exact (rfl : true = true)
    · exact (by decide : answered.NoFailure)
  · exact fun _ _ n _ hclosed => (by cases hclosed)
  · trivial
  · exact fun _ _ n _ hclosed => (by cases hclosed with | tail _ h => cases h)

/-- A connection that is released with a `const char *` to be closed is handed out again. -/
theorem handedOut_charPointer :
    ¬Always Traffic.step HandsOutOpen (initial 80 1 (-1))
      [.get () .charPointer ['a'] answered, .release () .charPointer ⟨['a'], 0⟩ true true,
        .get () .charPointer ['a'] answered] := by
  intro h
  have hthird := ((h _ rfl).2 _ rfl).2 _ rfl
  exact hthird.1 ⟨['a'], 0⟩ rfl (0, .charPointer) (by decide) (by decide)

end Traffic

end ClientSocketsPool

end CatraLibraries
