/-
# Reading, writing and closing the connection of an event

A session is used again and again, and an event or a proxied request may outlive the connection
that it was made for.  `readRequest` and `writeResponse` are refused when the start time that the
event has is not the one of the session; `releaseConnection` is not told the start time.

So the later connection is left alone as long as the start times of the connections of a session
tell them apart, and as long as nobody releases a session that has gone on to another connection.
-/
import CatraLibraries.ConnectionsManager.FreeSessions

namespace CatraLibraries

open Threads

namespace ConnectionPhase

theorem Holds.unique {l : ConnectionPhase} {ci ci' : ConnectionInformation} (h : l.Holds ci)
    (h' : l.Holds ci') : ci = ci' := by
  obtain ⟨working, rfl | rfl⟩ := h
  · obtain ⟨working', h' | h'⟩ := h'
    · exact (ConnectionPhase.handling.inj h').1
    · cases h'
  · obtain ⟨working', h' | h'⟩ := h'
    · cases h'
    · exact (ConnectionPhase.proxying.inj h').1

theorem Holds.of_finished {l : ConnectionPhase} {ci : ConnectionInformation}
    (h : l.finished.Holds ci) : l.Holds ci := by
  obtain ⟨working, h⟩ := h
  cases l with
  | handling ci' working' =>
    rcases h with h | h
    · obtain ⟨rfl, -⟩ := ConnectionPhase.handling.inj h
      exact ⟨working', Or.inl rfl⟩
    · cases h
  | proxying ci' working' =>
    rcases h with h | h
    · cases h
    · obtain ⟨rfl, -⟩ := ConnectionPhase.proxying.inj h
      exact ⟨working', Or.inr rfl⟩
  | idle => exact ⟨working, h⟩
  | accepted id => exact ⟨working, h⟩
  | puttingBack id => exact ⟨working, h⟩

/-- A thread releases the session of its event. -/
theorem Releases.psSession_eq {l : ConnectionPhase} {id : Nat} {bDeleteFromSocketsPool : Bool}
    {ci : ConnectionInformation} (h : l.Releases id bDeleteFromSocketsPool) (hci : l.Holds ci) :
    ci.psSession = id := by
  cases bDeleteFromSocketsPool with
  | false =>
    rcases h with rfl | ⟨ci', rfl, rfl⟩
    · obtain ⟨working, h | h⟩ := hci
      · cases h
      · cases h
    · exact congrArg ConnectionInformation.psSession (hci.unique ⟨true, Or.inl rfl⟩)
  | true =>
    rcases h with rfl | ⟨ci', working, rfl, rfl⟩
    · obtain ⟨working, h | h⟩ := hci
      · cases h
      · cases h
    · exact congrArg ConnectionInformation.psSession (hci.unique ⟨working, Or.inl rfl⟩)

end ConnectionPhase

namespace ConnectionsManager

/-- Where a session has the start time that an event has, it has the event's connection, or
none. -/
def Agrees (d : ConnectionsManager) (ci : ConnectionInformation) : Prop :=
  ∀ k, ci.connection = some k → d.IsCurrent ci →
    ∀ k', (d.psSessions ci.psSession).connection = some k' → k' = k

/-- An event that waits, or a proxied request, or one that a thread works on. -/
def HeldWith {T : Type} (d : ConnectionsManager) (ph : T → ConnectionPhase)
    (ci : ConnectionInformation) : Prop :=
  ci ∈ d.events ∨ ci ∈ d.httpProxyThreads ∨ ∃ t, (ph t).Holds ci

end ConnectionsManager

/-- The session whose socket an operation reads, writes or closes, where it is not refused. -/
def ConnectionOp.actsOn (op : ConnectionOp) (c : ConnectionChoice) (d : ConnectionsManager) :
    Option Nat :=
  match op with
  | .readRequest ci | .writeResponse ci _ => if d.IsCurrent ci then some ci.psSession else none
  | .releaseConnection id bDeleteFromSocketsPool =>
    if (d.releaseConnection id bDeleteFromSocketsPool c.works).1 = .deleteSocketFailed then none
    else some id
  | _ => none

namespace ConnectionState

variable {T : Type}

/-- **What is promised of the calls** of a thread that handles an event, or runs a proxy thread,
for a connection: the socket that is read, written or closed is one of this connection. -/
def ActsOnItsOwn (s : ConnectionState T) (t : T) (op : ConnectionOp) (c : ConnectionChoice) : Prop :=
  ∀ ci, (s.phase t).Holds ci → ∀ k, ci.connection = some k →
    ∀ id, op.actsOn c s.shared = some id →
      ∀ k', (s.shared.psSessions id).connection = some k' → k' = k

/-- The condition on the calls: no session gets the start time of an event or of a proxied
request that is still there for a connection of the session; and a session is released by a
thread whose event has its start time, or when it has no connection. -/
def KeepsStartTimes (s : ConnectionState T) (t : T) (op : ConnectionOp) (c : ConnectionChoice) :
    Prop :=
  match op with
  | .accept =>
    ∀ ci, s.shared.HeldWith s.phase ci → s.shared.nextFree c.number = some ci.psSession →
      ci.connection ≠ none →
      (c.accepting = .works → ci.tUTCStartConnectionTime ≠ c.time) ∧
        (c.accepting = .setupFails → ci.tUTCStartConnectionTime ≠ 0)
  | .insertFreeSession id true =>
    ∀ ci, s.shared.HeldWith s.phase ci → ci.psSession = id → ci.connection ≠ none →
      id ∈ s.shared.phmFreeSessions → ci.tUTCStartConnectionTime ≠ 0
  | .releaseConnection id _ =>
    ∀ ci, (s.phase t).Holds ci →
      s.shared.IsCurrent ci ∨ (s.shared.psSessions id).connection = none
  | _ => True

end ConnectionState

/-- **Every event agrees** with its session. -/
def EventsAgree {T : Type} (d : ConnectionsManager) (ph : T → ConnectionPhase) : Prop :=
  ∀ ci, d.HeldWith ph ci → d.Agrees ci

namespace EventsAgree

open ConnectionsManager ConnectionPhase

variable {T : Type} {d d' : ConnectionsManager} {ph : T → ConnectionPhase} {t : T} {id : Nat}
  {l : ConnectionPhase} {ci : ConnectionInformation}

/-- What is copied of a session agrees with it. -/
theorem information (d : ConnectionsManager) (id : Nat) : d.Agrees (d.information id) := by
  intro k hk _ k' hk'
  have hsame : (d.psSessions id).connection = some k' := hk'
  exact Option.some.inj (hsame.symm.trans hk)

theorem initial (cfg : ProcessorConfiguration) :
    EventsAgree (.initial cfg) fun _ : T => ConnectionPhase.idle := by
  rintro ci (hci | hci | ⟨t, working, ht | ht⟩)
  · cases hci
  · cases hci
  · cases ht
  · cases ht

/-- An event agrees with a session that has no connection. -/
theorem of_no_connection (h : (d.psSessions ci.psSession).connection = none) : d.Agrees ci := by
  intro k _ _ k' hk'
  cases h.symm.trans hk'

/-- Only one session gets other members. -/
theorem of_update {m : SessionMembers}
    (hsessions : d'.psSessions = Function.update d.psSessions id m) (h : d.Agrees ci)
    (hid : ci.psSession = id → d'.Agrees ci) : d'.Agrees ci := by
  by_cases hci : ci.psSession = id
  · exact hid hci
  · have hsame : d'.psSessions ci.psSession = d.psSessions ci.psSession := by
      rw [hsessions, Function.update_of_ne hci]
    intro k hk hcurrent k' hk'
    rw [IsCurrent, hsame] at hcurrent
    rw [hsame] at hk'
    exact h k hk hcurrent k' hk'

/-- The start time or the connection of a session stays. -/
theorem of_same (hstart : (d'.psSessions ci.psSession).tUTCStartConnectionTime
      = (d.psSessions ci.psSession).tUTCStartConnectionTime)
    (hconnection : (d'.psSessions ci.psSession).connection = (d.psSessions ci.psSession).connection)
    (h : d.Agrees ci) : d'.Agrees ci := by
  intro k hk hcurrent k' hk'
  rw [IsCurrent, hstart] at hcurrent
  rw [hconnection] at hk'
  exact h k hk hcurrent k' hk'

variable [DecidableEq T]

/-- **A step of one thread**: what was there agrees still, and what is new agrees. -/
theorem move (hkeep : ∀ ci, d.HeldWith ph ci → d'.Agrees ci)
    (hevents : ∀ ci ∈ d'.events, d.HeldWith ph ci ∨ d'.Agrees ci)
    (hproxies : ∀ ci ∈ d'.httpProxyThreads, d.HeldWith ph ci ∨ d'.Agrees ci)
    (hphase : ∀ ci, l.Holds ci → d.HeldWith ph ci ∨ d'.Agrees ci) :
    EventsAgree d' (Function.update ph t l) := by
  have hnew : ∀ ci, d.HeldWith ph ci ∨ d'.Agrees ci → d'.Agrees ci :=
    fun ci hci => hci.elim (hkeep ci) id
  rintro ci (hci | hci | ⟨t', ht'⟩)
  · exact hnew ci (hevents ci hci)
  · exact hnew ci (hproxies ci hci)
  · rcases eq_or_ne t' t with rfl | hne
    · rw [Function.update_self] at ht'
      exact hnew ci (hphase ci ht')
    · rw [Function.update_of_ne hne] at ht'
      exact hkeep ci (Or.inr (Or.inr ⟨t', ht'⟩))

/-- A thread makes no change of the events and holds no other one. -/
theorem keep (h : EventsAgree d ph) (hkeep : ∀ ci, d.HeldWith ph ci → d.Agrees ci → d'.Agrees ci)
    (hevents : d'.events = d.events) (hproxies : d'.httpProxyThreads = d.httpProxyThreads)
    (hphase : ∀ ci, l.Holds ci → (ph t).Holds ci) :
    EventsAgree d' (Function.update ph t l) := by
  refine move (fun ci hci => hkeep ci hci (h ci hci)) ?_ ?_ ?_
  · intro ci hci
    rw [hevents] at hci
    exact Or.inl (Or.inl hci)
  · intro ci hci
    rw [hproxies] at hci
    exact Or.inl (Or.inr (Or.inl hci))
  · exact fun ci hci => Or.inl (Or.inr (Or.inr ⟨t, hphase ci hci⟩))

theorem not_holds_idle (ci : ConnectionInformation) : ¬ ConnectionPhase.idle.Holds ci := by
  rintro ⟨working, h | h⟩
  · cases h
  · cases h

theorem not_holds_puttingBack (id : Nat) (ci : ConnectionInformation) :
    ¬ (ConnectionPhase.puttingBack id).Holds ci := by
  rintro ⟨working, h | h⟩
  · cases h
  · cases h

theorem setLastRead (id tUTCTime : Nat) (h : d.Agrees ci) :
    (d.setLastRead id tUTCTime).Agrees ci := by
  have hsessions : (d.setLastRead id tUTCTime).psSessions ci.psSession = d.psSessions ci.psSession ∨
      (d.setLastRead id tUTCTime).psSessions ci.psSession
        = { d.psSessions ci.psSession with tUTCLastRead := tUTCTime } := by
    rcases eq_or_ne ci.psSession id with heq | hne
    · refine Or.inr ?_
      rw [heq]
      exact Function.update_self ..
    · exact Or.inl (Function.update_of_ne hne ..)
  rcases hsessions with heq | heq
  · exact of_same (by rw [heq]) (by rw [heq]) h
  · exact of_same (by rw [heq]) (by rw [heq]) h

/-- **One call** keeps the events in agreement. -/
theorem call {s : ConnectionState T} {op : ConnectionOp} {c : ConnectionChoice}
    (h : EventsAgree s.shared s.phase) (hallowed : op.Allowed (s.phase t))
    (hmeets : s.KeepsStartTimes t op c) :
    EventsAgree (op.exec c s.shared).2
      (Function.update s.phase t (op.next (op.exec c s.shared).1 (s.phase t))) := by
  have hsame : EventsAgree s.shared (Function.update s.phase t (s.phase t)) :=
    h.keep (fun _ _ h => h) rfl rfl fun _ h => h
  cases op with
  | accept =>
    show EventsAgree (s.shared.accept c).2
      (Function.update s.phase t (ConnectionOp.next .accept (s.shared.accept c).1 (s.phase t)))
    rcases accept_cases c s.shared with hr | ⟨id, hid, ⟨err, herr, hr⟩ | ⟨hsetup, hr⟩ | ⟨hworks, hr⟩⟩
    · rw [hr]
      exact hsame
    · have h' : EventsAgree (s.shared.noConnection id) (Function.update s.phase t (s.phase t)) := by
        refine h.keep (fun ci _ hci => of_update rfl hci ?_) rfl rfl fun _ h => h
        rintro rfl
        have hself : (s.shared.noConnection ci.psSession).psSessions ci.psSession
            = { s.shared.psSessions ci.psSession with iFd := -1, connection := none } :=
          Function.update_self ..
        exact of_no_connection (by rw [hself])
      rw [hr]
      cases err with
      | accepted _ => exact herr.elim
      | failed => exact h'
      | notConnectionToAccept => exact h'
    · obtain ⟨m, openFds, hm, heq⟩ := setupFailed_eq id c s.shared
      rw [hr]
      show EventsAgree (s.shared.setupFailed id c) (Function.update s.phase t (s.phase t))
      rw [heq]
      refine h.keep (fun ci hheld hci => of_update rfl hci ?_) rfl rfl fun _ h => h
      rintro rfl k hk hcurrent
      have hne := (hmeets ci hheld hid (by rw [hk]; exact Option.some_ne_none k)).2 hsetup
      refine absurd (hcurrent.trans ?_) hne
      exact (congrArg SessionMembers.tUTCStartConnectionTime (Function.update_self ..)).trans hm
    · rw [hr]
      refine h.keep (fun ci hheld hci => of_update rfl hci ?_) rfl rfl ?_
      · rintro rfl k hk hcurrent
        have hne := (hmeets ci hheld hid (by rw [hk]; exact Option.some_ne_none k)).1 hworks
        have hself : (s.shared.accepted ci.psSession c).psSessions ci.psSession
            = ⟨c.time, c.time, c.iFd, true, some s.shared.nextConnection⟩ :=
          Function.update_self ..
        refine absurd (hcurrent.trans ?_) hne
        rw [hself]
      · rintro ci ⟨working, hci | hci⟩
        · cases hci
        · cases hci
  | initEvent id =>
    show EventsAgree s.shared (Function.update s.phase t (ConnectionOp.next (.initEvent id)
      (if c.works then some (s.shared.information id) else none) (s.phase t)))
    cases c.works with
    | false => exact hsame
    | true =>
      refine move h (fun ci hci => Or.inl (Or.inl hci)) (fun ci hci => Or.inl (Or.inr (Or.inl hci))) ?_
      intro ci hci
      obtain rfl := hci.unique ⟨true, Or.inl rfl⟩
      exact Or.inr (information s.shared id)
  | takeEvent =>
    show EventsAgree (s.shared.takeEvent c.number).2 (Function.update s.phase t
      (ConnectionOp.next .takeEvent (s.shared.takeEvent c.number).1 (s.phase t)))
    rcases takeEvent_cases c.number s.shared with hr | ⟨ci, events, hperm, hr⟩
    · rw [hr]
      exact hsame
    · rw [hr]
      refine move h ?_ (fun ci hci => Or.inl (Or.inr (Or.inl hci))) ?_
      · exact fun ci' hci' => Or.inl (Or.inl (hperm.mem_iff.mpr (List.mem_cons_of_mem ci hci')))
      · intro ci' hci'
        obtain rfl := hci'.unique ⟨true, Or.inl rfl⟩
        exact Or.inl (Or.inl (hperm.mem_iff.mpr List.mem_cons_self))
  | takeProxy =>
    show EventsAgree (s.shared.takeProxy c.number).2 (Function.update s.phase t
      (ConnectionOp.next .takeProxy (s.shared.takeProxy c.number).1 (s.phase t)))
    rcases takeProxy_cases c.number s.shared with hr | ⟨ci, proxies, hperm, hr⟩
    · rw [hr]
      exact hsame
    · rw [hr]
      refine move h (fun ci hci => Or.inl (Or.inl hci)) ?_ ?_
      · exact fun ci' hci' =>
          Or.inl (Or.inr (Or.inl (hperm.mem_iff.mpr (List.mem_cons_of_mem ci hci'))))
      · intro ci' hci'
        obtain rfl := hci'.unique ⟨true, Or.inr rfl⟩
        exact Or.inl (Or.inr (Or.inl (hperm.mem_iff.mpr List.mem_cons_self)))
  | readRequest ci =>
    show EventsAgree (s.shared.readRequest ci c).2 (Function.update s.phase t
      (ConnectionOp.next (.readRequest ci) (s.shared.readRequest ci c).1 (s.phase t)))
    rcases readRequest_cases ci c s.shared with
      ⟨-, hr⟩ | ⟨-, ⟨err, herr, hr⟩ | hr | hr | ⟨-, -, hr⟩⟩
    · rw [hr]
      exact hsame
    · rw [hr]
      cases err with
      | headerTimeoutExpired => exact absurd rfl herr
      | errNoError => exact hsame
      | eofReached => exact hsame
      | requestNotReadBecauseOldSocket => exact hsame
      | failed => exact hsame
    · rw [hr]
      exact h.keep (fun _ _ hci => setLastRead _ _ hci) rfl rfl fun _ h => h
    · rw [hr]
      exact h.keep (fun _ _ hci => hci) rfl rfl fun _ h => h.of_finished
    · rw [hr]
      exact h.keep (fun _ _ hci => setLastRead _ _ hci) rfl rfl fun _ h => h
  | writeResponse ci bIsResponseFinished =>
    show EventsAgree (s.shared.writeResponse ci bIsResponseFinished c.works).2
      (Function.update s.phase t ((s.phase t).afterResponse bIsResponseFinished
        (s.shared.writeResponse ci bIsResponseFinished c.works).1))
    have hphase : ∀ written ci', ((s.phase t).afterResponse bIsResponseFinished written).Holds ci' →
        (s.phase t).Holds ci' := by
      intro written ci' hci'
      rcases afterResponse_eq bIsResponseFinished written (s.phase t) with heq | heq
      · rw [heq] at hci'
        exact hci'.of_finished
      · rwa [heq] at hci'
    rcases writeResponse_cases ci bIsResponseFinished c.works s.shared with
      hr | ⟨-, ⟨-, hr⟩ | ⟨-, -, hr⟩⟩
    · rw [hr]
      exact h.keep (fun _ _ hci => hci) rfl rfl (hphase _)
    · rw [hr]
      exact h.keep (fun _ _ hci => hci) rfl rfl (hphase _)
    · rw [hr]
      exact h.keep (fun _ _ hci => hci) rfl rfl (hphase _)
  | startProxy ci =>
    refine move h (fun ci hci => Or.inl (Or.inl hci)) ?_ ?_
    · intro ci' hci'
      rcases List.mem_append.mp hci' with hci' | hci'
      · exact Or.inl (Or.inr (Or.inl hci'))
      · obtain rfl := List.mem_singleton.mp hci'
        exact Or.inl (Or.inr (Or.inr ⟨t, true, Or.inl hallowed⟩))
    · exact fun ci' hci' => Or.inl (Or.inr (Or.inr ⟨t, Holds.of_finished hci'⟩))
  | releaseConnection id bDeleteFromSocketsPool =>
    show EventsAgree (s.shared.releaseConnection id bDeleteFromSocketsPool c.works).2
      (Function.update s.phase t ((s.phase t).afterRelease id
        (s.shared.releaseConnection id bDeleteFromSocketsPool c.works).1))
    have hphase : ∀ err ci, ((s.phase t).afterRelease id err).Holds ci → (s.phase t).Holds ci := by
      intro err ci hci
      rw [afterRelease] at hci
      split at hci
      · exact absurd hci (not_holds_idle ci)
      · exact absurd hci (not_holds_puttingBack id ci)
    have hdeleted : (s.shared.deleted id bDeleteFromSocketsPool).events = s.shared.events ∧
        (s.shared.deleted id bDeleteFromSocketsPool).httpProxyThreads
          = s.shared.httpProxyThreads := by
      cases bDeleteFromSocketsPool with
      | true => exact ⟨rfl, rfl⟩
      | false => exact ⟨rfl, rfl⟩
    have hsessions := psSessions_deleted id bDeleteFromSocketsPool s.shared
    rcases releaseConnection_cases id bDeleteFromSocketsPool c.works s.shared with
      ⟨-, -, hr⟩ | ⟨-, hr⟩ | hr
    · rw [hr]
      exact h.keep (fun _ _ hci => hci) rfl rfl (hphase _)
    · rw [hr]
      refine h.keep (fun _ _ hci => ?_) hdeleted.1 hdeleted.2 (hphase _)
      exact of_same (by rw [hsessions]) (by rw [hsessions]) hci
    · rw [hr]
      have hself : ((s.shared.released id bDeleteFromSocketsPool).psSessions id).connection
          = none := by
        simp [released, reset, closed, setSession, SessionMembers.reset]
      have hother : ∀ id', id' ≠ id → (s.shared.released id bDeleteFromSocketsPool).psSessions id'
          = s.shared.psSessions id' := by
        intro id' hne
        simp [released, reset, closed, setSession, hne, psSessions_deleted]
      refine h.keep (fun ci _ hci => ?_) hdeleted.1 hdeleted.2 (hphase _)
      rcases eq_or_ne ci.psSession id with rfl | hne
      · exact of_no_connection hself
      · exact of_same (by rw [hother _ hne]) (by rw [hother _ hne]) hci
  | insertFreeSession id bReset =>
    show EventsAgree (s.shared.insertFreeSession id bReset) (Function.update s.phase t .idle)
    have hphase : ∀ ci, ConnectionPhase.idle.Holds ci → (s.phase t).Holds ci :=
      fun ci hci => absurd hci (not_holds_idle ci)
    rcases insertFreeSession_cases id bReset s.shared with ⟨hid, hr | ⟨rfl, hr⟩⟩ | ⟨-, hr⟩
    · rw [hr]
      exact h.keep (fun _ _ hci => hci) rfl rfl hphase
    · rw [hr]
      refine h.keep (fun ci hheld hci => of_update rfl hci ?_) rfl rfl hphase
      rintro rfl k hk hcurrent
      have hne := hmeets ci hheld rfl (by rw [hk]; exact Option.some_ne_none k) hid
      have hself : (s.shared.reset ci.psSession).psSessions ci.psSession
          = (s.shared.psSessions ci.psSession).reset := Function.update_self ..
      refine absurd (hcurrent.trans ?_) hne
      rw [hself]
      rfl
    · rw [hr]
      exact h.keep (fun _ _ hci => hci) rfl rfl hphase
  | isOlderThan id tNowInSeconds ulMaxTTLSession => exact hsame
  | updateSocketStatus =>
    show EventsAgree (s.shared.updateSocketStatus c) (Function.update s.phase t (s.phase t))
    rcases updateSocketStatus_cases c s.shared with hr | ⟨id, -, hr | hr | hr⟩
    · rw [hr]
      exact hsame
    · rw [hr]
      refine move h ?_ (fun ci hci => Or.inl (Or.inr (Or.inl hci)))
        fun ci hci => Or.inl (Or.inr (Or.inr ⟨t, hci⟩))
      intro ci hci
      rcases List.mem_append.mp hci with hci | hci
      · exact Or.inl (Or.inl hci)
      · obtain rfl := List.mem_singleton.mp hci
        exact Or.inr (information s.shared id)
    · rw [hr]
      exact h.keep (fun _ _ hci => hci) rfl rfl fun _ h => h
    · rw [hr]
      exact h.keep (fun _ _ hci => hci) rfl rfl fun _ h => h
  | endHandling => exact h.keep (fun _ _ hci => hci) rfl rfl fun ci hci => absurd hci (not_holds_idle ci)
  | time => exact hsame
  | outcome => exact hsame
  | number => exact hsame

theorem invariant : connectionDiscipline.Invariant ConnectionOp.exec
    (EventsAgree (T := T)) ConnectionState.KeepsStartTimes :=
  fun _ _ _ _ h hallowed hmeets => h.call hallowed hmeets

omit [DecidableEq T] in
/-- What agreement means for a call. -/
theorem actsOnItsOwn {s : ConnectionState T} {op : ConnectionOp} {c : ConnectionChoice}
    (h : EventsAgree s.shared s.phase) (hallowed : op.Allowed (s.phase t))
    (hmeets : s.KeepsStartTimes t op c) : s.ActsOnItsOwn t op c := by
  intro ci hci k hk id hid k' hk'
  have hagrees := h ci (Or.inr (Or.inr ⟨t, hci⟩)) k hk
  cases op with
  | readRequest ci' =>
    obtain rfl : ci = ci' := hci.unique ⟨true, Or.inl hallowed⟩
    by_cases hcurrent : s.shared.IsCurrent ci
    · obtain rfl := Option.some.inj ((if_pos hcurrent).symm.trans hid)
      exact hagrees hcurrent k' hk'
    · cases (if_neg hcurrent).symm.trans hid
  | writeResponse ci' bIsResponseFinished =>
    obtain rfl : ci = ci' := hci.unique hallowed
    by_cases hcurrent : s.shared.IsCurrent ci
    · obtain rfl := Option.some.inj ((if_pos hcurrent).symm.trans hid)
      exact hagrees hcurrent k' hk'
    · cases (if_neg hcurrent).symm.trans hid
  | releaseConnection id' bDeleteFromSocketsPool =>
    have hown : ci.psSession = id' := Releases.psSession_eq hallowed hci
    have hid' : id' = id := by
      by_cases herr : (s.shared.releaseConnection id' bDeleteFromSocketsPool c.works).1
          = .deleteSocketFailed
      · cases (if_pos herr).symm.trans hid
      · exact Option.some.inj ((if_neg herr).symm.trans hid)
    subst hid' hown
    rcases hmeets ci hci with hcurrent | hnone
    · exact hagrees hcurrent k' hk'
    · cases hnone.symm.trans hk'
  | accept => cases hid
  | initEvent id' => cases hid
  | takeEvent => cases hid
  | takeProxy => cases hid
  | startProxy ci' => cases hid
  | insertFreeSession id' bReset => cases hid
  | isOlderThan id' tNowInSeconds ulMaxTTLSession => cases hid
  | updateSocketStatus => cases hid
  | endHandling => cases hid
  | time => cases hid
  | outcome => cases hid
  | number => cases hid

end EventsAgree

/-! ### Every run -/

namespace ConnectionState

variable {T : Type} [DecidableEq T]

/-- **The connection of an event**: in every run in which the start times of a session tell its
connections apart, every call of a thread that handles an event, or runs a proxy thread, for a
connection reads, writes and closes this connection, and no later one. -/
theorem actsOnItsOwn_run {cfg : ProcessorConfiguration}
    {as : List (Action ConnectionTask ConnectionChoice T)}
    (hkeeps : Transition.Always (Threads.step (connectionTraffic cfg))
      (fun s a _ => Discipline.Meets KeepsStartTimes s a) (initial T cfg) as) :
    Transition.Always (Threads.step (connectionTraffic cfg))
      (fun s a _ => Discipline.Meets ActsOnItsOwn s a) (initial T cfg) as :=
  EventsAgree.invariant.always (ConnectionTask.endsIdle_body cfg)
    (fun _ _ _ _ h hallowed hmeets => h.actsOnItsOwn hallowed hmeets)
    (kept_initial cfg) (EventsAgree.initial cfg) hkeeps

theorem actsOnItsOwn_closedByClient :
    (Transition.run (Threads.step (connectionTraffic oneSession)) (initial Unit oneSession)
        closedByClient).map (·.shared.openFds) = some [] ∧
      Transition.Always (Threads.step (connectionTraffic oneSession))
        (fun s a _ => Discipline.Meets ActsOnItsOwn s a) (initial Unit oneSession)
        closedByClient := by
  refine ⟨by decide +kernel, actsOnItsOwn_run ?_⟩
  refine .cons rfl trivial ?_
  refine .cons rfl (Discipline.meets_call rfl trivial) ?_
  refine .cons rfl (Discipline.meets_call rfl ?_) ?_
  · -- no event is there when the connection is accepted
    rintro ci (hci | hci | ⟨t, hci⟩)
    · cases hci
    · cases hci
    · exact absurd hci (EventsAgree.not_holds_idle ci)
  refine .cons rfl (Discipline.meets_call rfl trivial) ?_
  refine .cons rfl (Discipline.meets_call rfl trivial) ?_
  refine .cons rfl (Discipline.meets_call rfl ?_) ?_
  · intro ci hci
    obtain rfl : ci = ⟨0, 1, some 0⟩ := hci.unique ⟨true, Or.inl rfl⟩
    exact Or.inl rfl
  exact .cons rfl (Discipline.meets_call rfl trivial) trivial

/-- A processor accepts a connection that the client closes.  Before it releases the session, the
check of unused connections, at second 61, puts the session in the free ones, and a second
connection is accepted. -/
def closedTooLate : List (Action ConnectionTask ConnectionChoice (Fin 3)) :=
  [.start 0 .connectionToAccept, .call 0 working, .call 0 working, .call 0 working,
    .call 0 { working with requestRead := .eofReached },
    .start 1 .checkUnusedSockets, .call 1 { working with time := 61, time_pos := by decide },
    .call 1 working, .call 1 working, .call 1 working,
    .start 2 .connectionToAccept, .call 2 working,
    .call 2 ⟨true, true, 0, 61, by decide, .works, 4, by decide, .complete⟩]

/-- The first processor closes the second connection. -/
theorem not_actsOnItsOwn_closedTooLate :
    ¬ Transition.Always (Threads.step (connectionTraffic oneSession))
        (fun s a _ => Discipline.Meets ActsOnItsOwn s a) (initial (Fin 3) oneSession)
        (closedTooLate ++ [.call 0 working]) := by
  intro h
  have hlast := h.last rfl rfl
  have hown : 1 = 0 :=
    hlast (.releaseConnection 0 false) ⟨_, _, rfl⟩ ⟨0, 1, some 0⟩ ⟨true, Or.inl rfl⟩ 0 rfl 0 rfl 1 rfl
  exact absurd hown (by decide)

end ConnectionState

end CatraLibraries
