/-
# The free sessions

A session in the free sessions should be closed, with its socket not in the sockets pool, and no
thread should have to do with it.  That depends on `releaseConnection`, whose error most callers
do not look at before they put the session back.  When every call finds what it relies on, the
free sessions are in order in every run.
-/
import CatraLibraries.ConnectionsManager.ConnectionEffects

namespace CatraLibraries

open Threads

namespace ConnectionPhase

/-- The session that a thread is concerned with. -/
def session : ConnectionPhase → Option Nat
  | idle => none
  | accepted id => some id
  | handling ci _ | proxying ci _ => some ci.psSession
  | puttingBack id => some id

/-- A thread uses the connection of a session. -/
def Uses (id : Nat) : ConnectionPhase → Prop
  | accepted id' => id' = id
  | handling ci _ | proxying ci _ => ci.psSession = id
  | _ => False

theorem Uses.session_eq {l : ConnectionPhase} {id : Nat} (h : l.Uses id) :
    l.session = some id := by
  cases l with
  | idle => exact h.elim
  | accepted id' => exact congrArg some h
  | handling ci working => exact congrArg some h
  | proxying ci working => exact congrArg some h
  | puttingBack id' => exact h.elim

/-- A thread that is concerned with a session uses its connection or puts it back. -/
theorem uses_or_puttingBack {l : ConnectionPhase} {id : Nat} (h : l.session = some id) :
    l.Uses id ∨ l = puttingBack id := by
  cases l with
  | idle => cases h
  | accepted id' => exact Or.inl (Option.some.inj h)
  | handling ci working => exact Or.inl (Option.some.inj h)
  | proxying ci working => exact Or.inl (Option.some.inj h)
  | puttingBack id' => exact Or.inr (congrArg puttingBack (Option.some.inj h))

theorem Uses.of_finished {l : ConnectionPhase} {id : Nat} (h : l.finished.Uses id) : l.Uses id := by
  cases l <;> exact h

theorem finished_ne_puttingBack {l : ConnectionPhase} {id : Nat} (h : l ≠ puttingBack id) :
    l.finished ≠ puttingBack id := by
  cases l with
  | handling ci working => exact ConnectionPhase.noConfusion
  | proxying ci working => exact ConnectionPhase.noConfusion
  | idle => exact h
  | accepted id' => exact h
  | puttingBack id' => exact h

theorem Holds.uses {l : ConnectionPhase} {ci : ConnectionInformation} (h : l.Holds ci) :
    l.Uses ci.psSession := by
  obtain ⟨working, rfl | rfl⟩ := h
  · exact rfl
  · exact rfl

theorem Holds.ne_puttingBack {l : ConnectionPhase} {ci : ConnectionInformation} (h : l.Holds ci)
    (id : Nat) : l ≠ puttingBack id := by
  obtain ⟨working, rfl | rfl⟩ := h
  · exact ConnectionPhase.noConfusion
  · exact ConnectionPhase.noConfusion

/-- Who releases a session uses its connection, unless it is the check of unused connections. -/
theorem Releases.uses {l : ConnectionPhase} {id : Nat} {bDeleteFromSocketsPool : Bool}
    (h : l.Releases id bDeleteFromSocketsPool) :
    l.Uses id ∨ (l = idle ∧ bDeleteFromSocketsPool = true) := by
  cases bDeleteFromSocketsPool with
  | false =>
    rcases h with rfl | ⟨ci, rfl, rfl⟩
    · exact Or.inl rfl
    · exact Or.inl rfl
  | true =>
    rcases h with rfl | ⟨ci, working, rfl, rfl⟩
    · exact Or.inr ⟨rfl, rfl⟩
    · exact Or.inl rfl

end ConnectionPhase

namespace ConnectionsManager

/-- A session has a connection, by its start time. -/
def Started (d : ConnectionsManager) (id : Nat) : Prop :=
  (d.psSessions id).tUTCStartConnectionTime ≠ 0

end ConnectionsManager

namespace ConnectionState

variable {T : Type}

/-- **What is promised of the free sessions**: they are closed and not in the sockets pool, and no
event of them is pending or running, in a processor or in a proxy thread. -/
structure FreeSession (s : ConnectionState T) (id : Nat) : Prop where
  closed : (s.shared.psSessions id).tUTCStartConnectionTime = 0
  notRegistered : ¬ s.shared.Registered id
  noPendingEvent : ∀ ci ∈ s.shared.events, ci.psSession ≠ id
  noPendingProxy : ∀ ci ∈ s.shared.httpProxyThreads, ci.psSession ≠ id
  noRunningEvent : ∀ t, (s.phase t).session ≠ some id

/-- What a call of `releaseConnection` relies on: the socket is in the sockets pool exactly when
it is to be deleted from it, it can be closed, or the error is looked at, and nobody else is
concerned with the session. -/
structure ReleasedInOrder (s : ConnectionState T) (t : T) (id : Nat)
    (bDeleteFromSocketsPool closeWorks : Bool) : Prop where
  registered : s.shared.Registered id ↔ bDeleteFromSocketsPool = true
  closes : closeWorks = true ∨ s.phase t = .idle
  noPendingEvent : ∀ ci ∈ s.shared.events, ci.psSession ≠ id
  noPendingProxy : ∀ ci ∈ s.shared.httpProxyThreads, ci.psSession ≠ id
  alone : ∀ t', t' ≠ t → (s.phase t').session ≠ some id

/-- The condition on the calls. -/
def ReleasesInOrder (s : ConnectionState T) (t : T) (op : ConnectionOp) (c : ConnectionChoice) :
    Prop :=
  ∀ id bDeleteFromSocketsPool, op = .releaseConnection id bDeleteFromSocketsPool →
    s.ReleasedInOrder t id bDeleteFromSocketsPool c.works

end ConnectionState

/-- **The order of the sessions**: who has to do with a session finds it open, and the free ones
and those that are put back are closed. -/
structure SessionsInOrder {T : Type} (d : ConnectionsManager) (ph : T → ConnectionPhase) :
    Prop where
  registered : ∀ e ∈ d.socketsInfo, d.Started e.2 ∧ (d.psSessions e.2).iFd = e.1
  events : ∀ ci ∈ d.events, d.Started ci.psSession
  proxies : ∀ ci ∈ d.httpProxyThreads, d.Started ci.psSession
  used : ∀ t id, (ph t).Uses id → d.Started id
  iFd : ∀ id, d.Started id → (d.psSessions id).iFd ≠ -1
  free : ∀ id ∈ d.phmFreeSessions, ¬ d.Started id
  back : ∀ t id, ph t = .puttingBack id →
    ¬ d.Started id ∧ id ∉ d.phmFreeSessions ∧ ∀ t', ph t' = .puttingBack id → t' = t

namespace SessionsInOrder

open ConnectionsManager ConnectionPhase

variable {T : Type} {d d' : ConnectionsManager} {ph : T → ConnectionPhase} {t : T} {id : Nat}
  {l : ConnectionPhase}

/-- What the order says of the free sessions. -/
theorem freeSession {s : ConnectionState T} (h : SessionsInOrder s.shared s.phase)
    (hid : id ∈ s.shared.phmFreeSessions) : s.FreeSession id where
  closed := not_not.mp (h.free id hid)
  notRegistered := by
    rintro ⟨e, he, rfl⟩
    exact h.free _ hid (h.registered e he).1
  noPendingEvent := by
    rintro ci hci rfl
    exact h.free _ hid (h.events ci hci)
  noPendingProxy := by
    rintro ci hci rfl
    exact h.free _ hid (h.proxies ci hci)
  noRunningEvent := by
    intro t ht
    rcases uses_or_puttingBack ht with huses | hback
    · exact h.free id hid (h.used t id huses)
    · exact (h.back t id hback).2.1 hid

theorem initial (cfg : ProcessorConfiguration) :
    SessionsInOrder (.initial cfg) fun _ : T => ConnectionPhase.idle where
  registered := by
    intro e he
    cases he
  events := by
    intro ci hci
    cases hci
  proxies := by
    intro ci hci
    cases hci
  used := fun t id huses => huses.elim
  iFd := fun id hid => (hid rfl).elim
  free := fun id _ hid => hid rfl
  back := by
    intro t id ht
    cases ht

/-- Changes of the pool, the events and the proxy threads that add open sessions only. -/
theorem of_shared (h : SessionsInOrder d ph)
    (hstart : ∀ id, d'.Started id ↔ d.Started id)
    (hiFd : ∀ id, (d'.psSessions id).iFd = (d.psSessions id).iFd)
    (hfree : d'.phmFreeSessions = d.phmFreeSessions)
    (hpool : ∀ e ∈ d'.socketsInfo,
      e ∈ d.socketsInfo ∨ (d.Started e.2 ∧ (d.psSessions e.2).iFd = e.1))
    (hevents : ∀ ci ∈ d'.events, ci ∈ d.events ∨ d.Started ci.psSession)
    (hproxies : ∀ ci ∈ d'.httpProxyThreads, ci ∈ d.httpProxyThreads ∨ d.Started ci.psSession) :
    SessionsInOrder d' ph where
  registered := by
    intro e he
    rw [hstart, hiFd]
    rcases hpool e he with he | he
    · exact h.registered e he
    · exact he
  events := by
    intro ci hci
    rw [hstart]
    rcases hevents ci hci with hci | hci
    · exact h.events ci hci
    · exact hci
  proxies := by
    intro ci hci
    rw [hstart]
    rcases hproxies ci hci with hci | hci
    · exact h.proxies ci hci
    · exact hci
  used := fun t id huses => (hstart id).mpr (h.used t id huses)
  iFd := by
    intro id hid
    rw [hiFd]
    exact h.iFd id ((hstart id).mp hid)
  free := by
    intro id hid
    rw [hstart]
    rw [hfree] at hid
    exact h.free id hid
  back := by
    intro t id ht
    rw [hstart, hfree]
    exact h.back t id ht

variable [DecidableEq T]

/-- A thread goes to a phase in which it does not put a session back. -/
theorem moveTo (h : SessionsInOrder d ph) (huses : ∀ id, l.Uses id → d.Started id)
    (hback : ∀ id, l ≠ .puttingBack id) : SessionsInOrder d (Function.update ph t l) where
  registered := h.registered
  events := h.events
  proxies := h.proxies
  used := by
    intro t' id ht'
    rcases eq_or_ne t' t with rfl | hne
    · rw [Function.update_self] at ht'
      exact huses id ht'
    · rw [Function.update_of_ne hne] at ht'
      exact h.used t' id ht'
  iFd := h.iFd
  free := h.free
  back := by
    have hother : ∀ t' id, Function.update ph t l t' = .puttingBack id → ph t' = .puttingBack id := by
      intro t' id ht'
      rcases eq_or_ne t' t with rfl | hne
      · rw [Function.update_self] at ht'
        exact absurd ht' (hback id)
      · rwa [Function.update_of_ne hne] at ht'
    intro t' id ht'
    obtain ⟨hclosed, hfree, halone⟩ := h.back t' id (hother t' id ht')
    exact ⟨hclosed, hfree, fun t'' ht'' => halone t'' (hother t'' id ht'')⟩

theorem stay (h : SessionsInOrder d ph) : SessionsInOrder d (Function.update ph t (ph t)) := by
  rwa [Function.update_eq_self]

theorem moveTo_idle (h : SessionsInOrder d ph) : SessionsInOrder d (Function.update ph t .idle) :=
  h.moveTo (fun _ huses => huses.elim) fun _ => ConnectionPhase.noConfusion

theorem moveTo_finished (h : SessionsInOrder d ph) (hback : ∀ id, ph t ≠ .puttingBack id) :
    SessionsInOrder d (Function.update ph t (ph t).finished) :=
  h.moveTo (fun id huses => h.used t id huses.of_finished) fun id => finished_ne_puttingBack (hback id)

/-! ### The changes of the shared data -/

omit [DecidableEq T] in
theorem pooled (h : SessionsInOrder d ph) (hid : d.Started id) :
    SessionsInOrder (d.pooled id) ph := by
  refine h.of_shared (fun _ => Iff.rfl) (fun _ => rfl) rfl ?_ (fun _ => Or.inl) fun _ => Or.inl
  intro e he
  rcases List.mem_append.mp he with he | he
  · exact Or.inl he
  · obtain rfl := List.mem_singleton.mp he
    exact Or.inr ⟨hid, rfl⟩

omit [DecidableEq T] in
theorem unpooled (h : SessionsInOrder d ph) : SessionsInOrder (d.unpooled id) ph :=
  h.of_shared (fun _ => Iff.rfl) (fun _ => rfl) rfl (fun _ he => Or.inl (List.mem_filter.mp he).1)
    (fun _ => Or.inl) fun _ => Or.inl

omit [DecidableEq T] in
theorem setLastRead (h : SessionsInOrder d ph) (tUTCTime : Nat) :
    SessionsInOrder (d.setLastRead id tUTCTime) ph := by
  refine h.of_shared ?_ ?_ rfl (fun _ => Or.inl) (fun _ => Or.inl) fun _ => Or.inl
  · intro id'
    rcases eq_or_ne id' id with rfl | hne
    · simp [Started, ConnectionsManager.setLastRead, setSession]
    · simp [Started, ConnectionsManager.setLastRead, setSession, hne]
  · intro id'
    rcases eq_or_ne id' id with rfl | hne
    · simp [ConnectionsManager.setLastRead, setSession]
    · simp [ConnectionsManager.setLastRead, setSession, hne]

omit [DecidableEq T] in
/-- A session that is closed gets other members, and stays closed. -/
theorem of_closed {m : SessionMembers} (h : SessionsInOrder d ph) (hid : ¬ d.Started id)
    (hm : m.tUTCStartConnectionTime = 0)
    (hsessions : d'.psSessions = Function.update d.psSessions id m)
    (hpool : d'.socketsInfo = d.socketsInfo) (hevents : d'.events = d.events)
    (hproxies : d'.httpProxyThreads = d.httpProxyThreads)
    (hfree : d'.phmFreeSessions = d.phmFreeSessions) : SessionsInOrder d' ph := by
  have hsame : ∀ {id'}, d.Started id' → d'.psSessions id' = d.psSessions id' := by
    intro id' hid'
    rw [hsessions, Function.update_of_ne]
    rintro rfl
    exact hid hid'
  have hstart : ∀ id', d'.Started id' ↔ d.Started id' := by
    intro id'
    rcases eq_or_ne id' id with rfl | hne
    · refine iff_of_false ?_ hid
      rw [Started, hsessions, Function.update_self]
      exact not_not_intro hm
    · rw [Started, Started, hsessions, Function.update_of_ne hne]
  exact {
    registered := by
      intro e he
      rw [hpool] at he
      obtain ⟨hopen, hiFd⟩ := h.registered e he
      rw [hsame hopen]
      exact ⟨(hstart _).mpr hopen, hiFd⟩
    events := by
      intro ci hci
      rw [hevents] at hci
      exact (hstart _).mpr (h.events ci hci)
    proxies := by
      intro ci hci
      rw [hproxies] at hci
      exact (hstart _).mpr (h.proxies ci hci)
    used := fun t id' huses => (hstart _).mpr (h.used t id' huses)
    iFd := by
      intro id' hid'
      have hopen := (hstart id').mp hid'
      rw [hsame hopen]
      exact h.iFd id' hopen
    free := by
      intro id' hid'
      rw [hfree] at hid'
      exact fun hopen => h.free id' hid' ((hstart id').mp hopen)
    back := by
      intro t id' ht
      rw [hstart, hfree]
      exact h.back t id' ht }

/-- A free session gets a connection. -/
theorem accepted (h : SessionsInOrder d ph) (hid : id ∈ d.phmFreeSessions) (c : ConnectionChoice) :
    SessionsInOrder (d.accepted id c) (Function.update ph t (.accepted id)) := by
  have hclosed := h.free id hid
  have hself : (d.accepted id c).psSessions id = ⟨c.time, c.time, c.iFd, true, some d.nextConnection⟩ :=
    Function.update_self ..
  have hother : ∀ {id'}, id' ≠ id → (d.accepted id c).psSessions id' = d.psSessions id' := by
    intro id' hne
    exact Function.update_of_ne hne ..
  have hstart : ∀ {id'}, d.Started id' → (d.accepted id c).Started id' := by
    intro id' hid'
    rw [Started, hother]
    · exact hid'
    · rintro rfl
      exact hclosed hid'
  exact {
    registered := by
      intro e he
      obtain ⟨hopen, hiFd⟩ := h.registered e he
      refine ⟨hstart hopen, ?_⟩
      rw [hother]
      · exact hiFd
      · intro he'
        exact hclosed (he' ▸ hopen)
    events := fun ci hci => hstart (h.events ci hci)
    proxies := fun ci hci => hstart (h.proxies ci hci)
    used := by
      intro t' id' ht'
      rcases eq_or_ne t' t with rfl | hne
      · rw [Function.update_self] at ht'
        obtain rfl : id = id' := ht'
        rw [Started, hself]
        exact Nat.ne_of_gt c.time_pos
      · rw [Function.update_of_ne hne] at ht'
        exact hstart (h.used t' id' ht')
    iFd := by
      intro id' hid'
      rcases eq_or_ne id' id with rfl | hne
      · rw [hself]
        intro hiFd
        have hnonneg : (0 : Int) ≤ -1 := hiFd ▸ c.iFd_nonneg
        exact absurd hnonneg (by decide)
      · rw [Started, hother hne] at hid'
        rw [hother hne]
        exact h.iFd id' hid'
    free := by
      intro id' hid'
      obtain ⟨hmem, hne⟩ := List.mem_filter.mp hid'
      rw [Started, hother (of_decide_eq_true hne)]
      exact h.free id' hmem
    back := by
      have hback : ∀ t' id', Function.update ph t (.accepted id) t' = .puttingBack id' →
          ph t' = .puttingBack id' := by
        intro t' id' ht'
        rcases eq_or_ne t' t with rfl | hne
        · rw [Function.update_self] at ht'
          cases ht'
        · rwa [Function.update_of_ne hne] at ht'
      intro t' id' ht'
      obtain ⟨hclosed', hfree, halone⟩ := h.back t' id' (hback t' id' ht')
      have hne : id' ≠ id := by
        rintro rfl
        exact hfree hid
      refine ⟨?_, fun hmem => hfree (List.mem_filter.mp hmem).1,
        fun t'' ht'' => halone t'' (hback t'' id' ht'')⟩
      rw [Started, hother hne]
      exact hclosed' }

/-- **Releasing** a session that nobody else is concerned with. -/
theorem released (h : SessionsInOrder d ph) (hopen : d.Started id) {bDeleteFromSocketsPool : Bool}
    (hregistered : d.Registered id ↔ bDeleteFromSocketsPool = true)
    (hevents : ∀ ci ∈ d.events, ci.psSession ≠ id)
    (hproxies : ∀ ci ∈ d.httpProxyThreads, ci.psSession ≠ id)
    (halone : ∀ t', t' ≠ t → (ph t').session ≠ some id) :
    SessionsInOrder (d.released id bDeleteFromSocketsPool)
      (Function.update ph t (.puttingBack id)) := by
  have hself : ((d.released id bDeleteFromSocketsPool).psSessions id).tUTCStartConnectionTime = 0 := by
    simp [ConnectionsManager.released, reset, closed, setSession, SessionMembers.reset]
  have hother : ∀ {id'}, id' ≠ id →
      (d.released id bDeleteFromSocketsPool).psSessions id' = d.psSessions id' := by
    intro id' hne
    simp [ConnectionsManager.released, reset, closed, setSession, hne, psSessions_deleted]
  have hrest : (d.released id bDeleteFromSocketsPool).events = d.events ∧
      (d.released id bDeleteFromSocketsPool).httpProxyThreads = d.httpProxyThreads ∧
      (d.released id bDeleteFromSocketsPool).phmFreeSessions = d.phmFreeSessions := by
    cases bDeleteFromSocketsPool <;> exact ⟨rfl, rfl, rfl⟩
  obtain ⟨hevents', hproxies', hfree'⟩ := hrest
  have hnotFree : id ∉ d.phmFreeSessions := fun hmem => h.free id hmem hopen
  have hstart : ∀ {id'}, id' ≠ id →
      ((d.released id bDeleteFromSocketsPool).Started id' ↔ d.Started id') := by
    intro id' hne
    rw [Started, hother hne]
    exact Iff.rfl
  have hpool : ∀ e ∈ (d.released id bDeleteFromSocketsPool).socketsInfo,
      e ∈ d.socketsInfo ∧ e.2 ≠ id := by
    intro e he
    cases bDeleteFromSocketsPool with
    | true =>
      obtain ⟨hmem, hne⟩ := List.mem_filter.mp he
      refine ⟨hmem, ?_⟩
      rintro rfl
      exact of_decide_eq_true hne (h.registered e hmem).2.symm
    | false =>
      refine ⟨he, fun hid => ?_⟩
      exact absurd (hregistered.mp ⟨e, he, hid⟩) (by decide)
  exact {
    registered := by
      intro e he
      obtain ⟨hmem, hne⟩ := hpool e he
      rw [hstart hne, hother hne]
      exact h.registered e hmem
    events := by
      intro ci hci
      rw [hevents'] at hci
      exact (hstart (hevents ci hci)).mpr (h.events ci hci)
    proxies := by
      intro ci hci
      rw [hproxies'] at hci
      exact (hstart (hproxies ci hci)).mpr (h.proxies ci hci)
    used := by
      intro t' id' ht'
      rcases eq_or_ne t' t with rfl | hne
      · rw [Function.update_self] at ht'
        exact ht'.elim
      · rw [Function.update_of_ne hne] at ht'
        refine (hstart ?_).mpr (h.used t' id' ht')
        rintro rfl
        exact halone t' hne ht'.session_eq
    iFd := by
      intro id' hid'
      have hne : id' ≠ id := by
        rintro rfl
        exact hid' hself
      rw [hother hne]
      exact h.iFd id' ((hstart hne).mp hid')
    free := by
      intro id' hid'
      rw [hfree'] at hid'
      have hne : id' ≠ id := by
        rintro rfl
        exact hnotFree hid'
      rw [hstart hne]
      exact h.free id' hid'
    back := by
      intro t' id' ht'
      rw [hfree']
      rcases eq_or_ne t' t with rfl | hne
      · rw [Function.update_self] at ht'
        obtain rfl : id = id' := ConnectionPhase.puttingBack.inj ht'
        refine ⟨not_not_intro hself, hnotFree, fun t'' ht'' => ?_⟩
        by_contra hne
        rw [Function.update_of_ne hne] at ht''
        exact halone t'' hne (congrArg ConnectionPhase.session ht'')
      · rw [Function.update_of_ne hne] at ht'
        obtain ⟨hclosed, hfree, halone'⟩ := h.back t' id' ht'
        have hid : id' ≠ id := by
          rintro rfl
          exact halone t' hne (congrArg ConnectionPhase.session ht')
        refine ⟨fun hopen' => hclosed ((hstart hid).mp hopen'), hfree, fun t'' ht'' => ?_⟩
        rcases eq_or_ne t'' t with rfl | hne'
        · rw [Function.update_self] at ht''
          exact absurd (ConnectionPhase.puttingBack.inj ht'').symm hid
        · rw [Function.update_of_ne hne'] at ht''
          exact halone' t'' ht'' }

/-- A session that a thread puts back becomes a free one. -/
theorem freed (h : SessionsInOrder d ph) (ht : ph t = .puttingBack id) :
    SessionsInOrder (d.freed id) (Function.update ph t .idle) where
  registered := h.registered
  events := h.events
  proxies := h.proxies
  used := (h.moveTo_idle (t := t)).used
  iFd := h.iFd
  free := by
    intro id' hid'
    rcases List.mem_append.mp hid' with hid' | hid'
    · exact h.free id' hid'
    · obtain rfl := List.mem_singleton.mp hid'
      exact (h.back t id' ht).1
  back := by
    intro t' id' ht'
    obtain ⟨hclosed, hfree, halone⟩ := (h.moveTo_idle (t := t)).back t' id' ht'
    refine ⟨hclosed, fun hmem => ?_, halone⟩
    rcases List.mem_append.mp hmem with hmem | hmem
    · exact hfree hmem
    · obtain rfl := List.mem_singleton.mp hmem
      -- only one thread puts this session back, and that one is idle now
      rcases eq_or_ne t' t with rfl | hne
      · rw [Function.update_self] at ht'
        cases ht'
      · rw [Function.update_of_ne hne] at ht'
        exact hne ((h.back t id' ht).2.2 t' ht')

/-! ### The calls -/

/-- **One call** keeps the sessions in order, when a session is released in order. -/
theorem call {s : ConnectionState T} {op : ConnectionOp} {c : ConnectionChoice}
    (h : SessionsInOrder s.shared s.phase) (hallowed : op.Allowed (s.phase t))
    (hmeets : s.ReleasesInOrder t op c) :
    SessionsInOrder (op.exec c s.shared).2
      (Function.update s.phase t (op.next (op.exec c s.shared).1 (s.phase t))) := by
  cases op with
  | accept =>
    show SessionsInOrder (s.shared.accept c).2
      (Function.update s.phase t (ConnectionOp.next .accept (s.shared.accept c).1 (s.phase t)))
    rcases accept_cases c s.shared with hr | ⟨id, hid, ⟨err, herr, hr⟩ | ⟨-, hr⟩ | ⟨-, hr⟩⟩
    · rw [hr]
      exact h.stay
    · have hclosed := h.free id (nextFree_mem hid)
      have h' : SessionsInOrder (s.shared.noConnection id) s.phase :=
        h.of_closed (m := { s.shared.psSessions id with iFd := -1, connection := none })
          hclosed (not_not.mp hclosed) rfl rfl rfl rfl rfl
      rw [hr]
      cases err with
      | accepted _ => exact herr.elim
      | failed => exact h'.stay
      | notConnectionToAccept => exact h'.stay
    · obtain ⟨m, openFds, hm, heq⟩ := setupFailed_eq id c s.shared
      have h' : SessionsInOrder (s.shared.setupFailed id c) s.phase := by
        rw [heq]
        exact h.of_closed (h.free id (nextFree_mem hid)) hm rfl rfl rfl rfl rfl
      rw [hr]
      exact h'.stay
    · rw [hr]
      exact h.accepted (nextFree_mem hid) c
  | initEvent id =>
    have hopen : s.shared.Started id := by
      refine h.used t id ?_
      rw [show s.phase t = .accepted id from hallowed]
      exact rfl
    show SessionsInOrder s.shared (Function.update s.phase t (ConnectionOp.next (.initEvent id)
      (if c.works then some (s.shared.information id) else none) (s.phase t)))
    cases c.works with
    | false => exact h.stay
    | true =>
      refine h.moveTo ?_ fun _ => ConnectionPhase.noConfusion
      rintro id' rfl
      exact hopen
  | takeEvent =>
    show SessionsInOrder (s.shared.takeEvent c.number).2 (Function.update s.phase t
      (ConnectionOp.next .takeEvent (s.shared.takeEvent c.number).1 (s.phase t)))
    rcases takeEvent_cases c.number s.shared with hr | ⟨ci, events, hperm, hr⟩
    · rw [hr]
      exact h.stay
    · rw [hr]
      have hci := h.events ci (hperm.mem_iff.mpr List.mem_cons_self)
      refine moveTo (h.of_shared (fun _ => Iff.rfl) (fun _ => rfl) rfl (fun _ => Or.inl) ?_
        fun _ => Or.inl) ?_ fun _ => ConnectionPhase.noConfusion
      · exact fun ci' hci' => Or.inl (hperm.mem_iff.mpr (List.mem_cons_of_mem ci hci'))
      · rintro id rfl
        exact hci
  | takeProxy =>
    show SessionsInOrder (s.shared.takeProxy c.number).2 (Function.update s.phase t
      (ConnectionOp.next .takeProxy (s.shared.takeProxy c.number).1 (s.phase t)))
    rcases takeProxy_cases c.number s.shared with hr | ⟨ci, proxies, hperm, hr⟩
    · rw [hr]
      exact h.stay
    · rw [hr]
      have hci := h.proxies ci (hperm.mem_iff.mpr List.mem_cons_self)
      refine moveTo (h.of_shared (fun _ => Iff.rfl) (fun _ => rfl) rfl (fun _ => Or.inl)
        (fun _ => Or.inl) ?_) ?_ fun _ => ConnectionPhase.noConfusion
      · exact fun ci' hci' => Or.inl (hperm.mem_iff.mpr (List.mem_cons_of_mem ci hci'))
      · rintro id rfl
        exact hci
  | readRequest ci =>
    have hholds : (s.phase t).Holds ci := ⟨true, Or.inl hallowed⟩
    have hopen := h.used t _ hholds.uses
    show SessionsInOrder (s.shared.readRequest ci c).2 (Function.update s.phase t
      (ConnectionOp.next (.readRequest ci) (s.shared.readRequest ci c).1 (s.phase t)))
    rcases readRequest_cases ci c s.shared with
      ⟨-, hr⟩ | ⟨-, ⟨err, herr, hr⟩ | hr | hr | ⟨-, -, hr⟩⟩
    · rw [hr]
      exact h.stay
    · rw [hr]
      cases err with
      | headerTimeoutExpired => exact absurd rfl herr
      | errNoError => exact h.stay
      | eofReached => exact h.stay
      | requestNotReadBecauseOldSocket => exact h.stay
      | failed => exact h.stay
    · rw [hr]
      exact (h.setLastRead c.time).stay
    · rw [hr]
      exact (h.pooled hopen).moveTo_finished hholds.ne_puttingBack
    · rw [hr]
      exact ((h.pooled hopen).setLastRead c.time).stay
  | writeResponse ci bIsResponseFinished =>
    have hopen := h.used t _ (Holds.uses hallowed)
    show SessionsInOrder (s.shared.writeResponse ci bIsResponseFinished c.works).2
      (Function.update s.phase t ((s.phase t).afterResponse bIsResponseFinished
        (s.shared.writeResponse ci bIsResponseFinished c.works).1))
    have hnext : ∀ {d : ConnectionsManager} (written : Bool), SessionsInOrder d s.phase →
        SessionsInOrder d (Function.update s.phase t
          ((s.phase t).afterResponse bIsResponseFinished written)) := by
      intro d written hd
      rcases afterResponse_eq bIsResponseFinished written (s.phase t) with hl | hl
      · rw [hl]
        exact hd.moveTo_finished (Holds.ne_puttingBack hallowed)
      · rw [hl]
        exact hd.stay
    rcases writeResponse_cases ci bIsResponseFinished c.works s.shared with
      hr | ⟨-, ⟨-, hr⟩ | ⟨-, -, hr⟩⟩
    · rw [hr]
      exact hnext false h
    · rw [hr]
      exact hnext true h
    · rw [hr]
      exact hnext true (h.pooled hopen)
  | startProxy ci =>
    have hholds : (s.phase t).Holds ci := ⟨true, Or.inl hallowed⟩
    refine moveTo_finished (h.of_shared (fun _ => Iff.rfl) (fun _ => rfl) rfl (fun _ => Or.inl)
      (fun _ => Or.inl) ?_) hholds.ne_puttingBack
    intro ci' hci'
    rcases List.mem_append.mp hci' with hci' | hci'
    · exact Or.inl hci'
    · obtain rfl := List.mem_singleton.mp hci'
      exact Or.inr (h.used t _ hholds.uses)
  | releaseConnection id bDeleteFromSocketsPool =>
    have hr := hmeets id bDeleteFromSocketsPool rfl
    have hopen : s.shared.Started id := by
      rcases Releases.uses hallowed with huses | ⟨-, hdelete⟩
      · exact h.used t id huses
      · obtain ⟨e, he, rfl⟩ := hr.registered.mpr hdelete
        exact (h.registered e he).1
    show SessionsInOrder (s.shared.releaseConnection id bDeleteFromSocketsPool c.works).2
      (Function.update s.phase t ((s.phase t).afterRelease id
        (s.shared.releaseConnection id bDeleteFromSocketsPool c.works).1))
    rcases releaseConnection_cases id bDeleteFromSocketsPool c.works s.shared with
      ⟨hdelete, hiFd, -⟩ | ⟨hfails, heq⟩ | heq
    · -- the socket is in the pool, under its descriptor
      obtain ⟨e, he, rfl⟩ := hr.registered.mpr hdelete
      refine absurd (List.mem_map.mpr ⟨e, he, ?_⟩) hiFd
      exact (h.registered e he).2.symm
    · rw [heq]
      have hidle : s.phase t = .idle := by
        rcases hr.closes with hworks | hidle
        · rcases hfails with hiFd | hnot
          · exact absurd hiFd (h.iFd id hopen)
          · exact absurd (hnot.symm.trans hworks) (by decide)
        · exact hidle
      rw [afterRelease, if_pos ⟨rfl, hidle⟩]
      cases bDeleteFromSocketsPool with
      | true => exact h.unpooled.moveTo_idle
      | false => exact h.moveTo_idle
    · rw [heq, afterRelease, if_neg fun herr => ReleaseError.noConfusion herr.1]
      exact h.released hopen hr.registered hr.noPendingEvent hr.noPendingProxy hr.alone
  | insertFreeSession id bReset =>
    show SessionsInOrder (s.shared.insertFreeSession id bReset) (Function.update s.phase t .idle)
    rcases insertFreeSession_cases id bReset s.shared with ⟨hid, -⟩ | ⟨-, hr⟩
    · exact absurd hid (h.back t id hallowed).2.1
    · rw [hr]
      exact h.freed hallowed
  | isOlderThan id tNowInSeconds ulMaxTTLSession => exact h.stay
  | updateSocketStatus =>
    show SessionsInOrder (s.shared.updateSocketStatus c) (Function.update s.phase t (s.phase t))
    refine stay ?_
    rcases updateSocketStatus_cases c s.shared with hr | ⟨id, hid, hr | hr | hr⟩
    · rw [hr]
      exact h
    · rw [hr]
      obtain ⟨e, he, rfl⟩ := hid
      refine h.of_shared (fun _ => Iff.rfl) (fun _ => rfl) rfl
        (fun _ he => Or.inl (List.mem_filter.mp he).1) ?_ fun _ => Or.inl
      intro ci hci
      rcases List.mem_append.mp hci with hci | hci
      · exact Or.inl hci
      · obtain rfl := List.mem_singleton.mp hci
        exact Or.inr (h.registered e he).1
    · rw [hr]
      exact h.unpooled
    · rw [hr]
      obtain ⟨e, he, rfl⟩ := hid
      exact h.unpooled.pooled (h.registered e he).1
  | endHandling => exact h.moveTo_idle
  | time => exact h.stay
  | outcome => exact h.stay
  | number => exact h.stay

theorem invariant : connectionDiscipline.Invariant ConnectionOp.exec
    (SessionsInOrder (T := T)) ConnectionState.ReleasesInOrder :=
  fun _ _ _ _ h hallowed hmeets => h.call hallowed hmeets

end SessionsInOrder

/-! ### Every run -/

namespace ConnectionState

variable {T : Type} [DecidableEq T]

/-- **The free sessions are in order** after every run in which every session is released in
order: each of them is closed, is not in the sockets pool, and has no pending or running event. -/
theorem freeSessions_run {cfg : ProcessorConfiguration} {s : ConnectionState T}
    {as : List (Action ConnectionTask ConnectionChoice T)}
    (hreleases : Transition.Always (Threads.step (connectionTraffic cfg))
      (fun s a _ => Discipline.Meets ReleasesInOrder s a) (initial T cfg) as)
    (hrun : Transition.run (Threads.step (connectionTraffic cfg)) (initial T cfg) as = some s) :
    ∀ id ∈ s.shared.phmFreeSessions, s.FreeSession id := by
  have horder : SessionsInOrder s.shared s.phase :=
    SessionsInOrder.invariant.run (ConnectionTask.endsIdle_body cfg) (kept_initial cfg)
      (SessionsInOrder.initial cfg) hreleases hrun
  exact fun id hid => horder.freeSession hid

/-- One session, and processors that accept one connection at a time. -/
def oneSession : ProcessorConfiguration := ⟨1, 60, 1, false, 10⟩

/-- Everything works, at second 1 and with the descriptor 3. -/
def working : ConnectionChoice := ⟨true, true, 0, 1, by decide, .works, 3, by decide, .complete⟩

/-- A processor accepts a connection that the client closes. -/
def closedByClient : List (Action ConnectionTask ConnectionChoice Unit) :=
  [.start () .connectionToAccept, .call () working, .call () working, .call () working,
    .call () { working with requestRead := .eofReached }, .call () working, .call () working]

theorem freeSessions_closedByClient :
    ∃ s : ConnectionState Unit, Transition.run (Threads.step (connectionTraffic oneSession))
        (initial Unit oneSession) closedByClient = some s ∧
      s.shared.phmFreeSessions = [0] ∧ ∀ id ∈ s.shared.phmFreeSessions, s.FreeSession id := by
  have heval : (Transition.run (Threads.step (connectionTraffic oneSession))
      (initial Unit oneSession) closedByClient).map (·.shared.phmFreeSessions) = some [0] := by
    decide +kernel
  obtain ⟨s, hrun, hfree⟩ := Option.map_eq_some_iff.mp heval
  refine ⟨s, hrun, hfree, freeSessions_run ?_ hrun⟩
  refine .cons rfl trivial ?_
  refine .cons rfl (Discipline.meets_call rfl fun _ _ h => ConnectionOp.noConfusion h) ?_
  refine .cons rfl (Discipline.meets_call rfl fun _ _ h => ConnectionOp.noConfusion h) ?_
  refine .cons rfl (Discipline.meets_call rfl fun _ _ h => ConnectionOp.noConfusion h) ?_
  refine .cons rfl (Discipline.meets_call rfl fun _ _ h => ConnectionOp.noConfusion h) ?_
  refine .cons rfl (Discipline.meets_call rfl ?_) ?_
  · -- the session is released after the end of file
    rintro id bDeleteFromSocketsPool h
    cases h
    exact ⟨by decide, Or.inl rfl, List.forall_mem_nil _, List.forall_mem_nil _,
      fun _ h => absurd rfl h⟩
  refine .cons rfl (Discipline.meets_call rfl fun _ _ h => ConnectionOp.noConfusion h) ?_
  trivial

/-- A processor accepts a connection, whose request it cannot process. -/
def notProcessed : List (Action ConnectionTask ConnectionChoice Unit) :=
  [.start () .connectionToAccept, .call () working, .call () working, .call () working,
    .call () working, .call () working, .call () { working with works := false },
    .call () working, .call () working, .call () working]

/-- The socket of the request that is not processed is not in the sockets pool, so it is not
closed, and the session becomes a free one with its connection. -/
theorem not_freeSessions_notProcessed :
    ∃ s : ConnectionState Unit, Transition.run (Threads.step (connectionTraffic oneSession))
        (initial Unit oneSession) notProcessed = some s ∧
      ¬ ∀ id ∈ s.shared.phmFreeSessions, s.FreeSession id := by
  have heval : (Transition.run (Threads.step (connectionTraffic oneSession))
      (initial Unit oneSession) notProcessed).map (fun s => (s.shared.phmFreeSessions,
        s.shared.psSessions 0)) = some ([0], ⟨1, 1, 3, true, some 0⟩) := by
    decide +kernel
  obtain ⟨s, hrun, hs⟩ := Option.map_eq_some_iff.mp heval
  obtain ⟨hfree, hsession⟩ := Prod.mk.inj hs
  refine ⟨s, hrun, fun h => ?_⟩
  have hclosed := (h 0 (by rw [hfree]; decide)).closed
  rw [hsession] at hclosed
  exact absurd hclosed (by decide)

end ConnectionState

end CatraLibraries
