/-
# What the operations on connections can do

Each method of `ConnectionTraffic` once, by its cases: which error it returns, and the state it
leaves, as one of a few changes of a state.  What is proved about the threads of the connections
manager looks at these cases only.
-/
import CatraLibraries.ConnectionsManager.ConnectionPhases
import Mathlib.Data.List.Perm.Basic

namespace CatraLibraries

/-- No connection comes of accepting. -/
def AcceptResult.Refused : AcceptResult → Prop
  | .accepted _ => False
  | _ => True

namespace ConnectionsManager

variable {s : ConnectionsManager} {id : Nat} {ci : ConnectionInformation}

/-- A session is in the sockets pool. -/
def Registered (s : ConnectionsManager) (id : Nat) : Prop := ∃ e ∈ s.socketsInfo, e.2 = id

instance (s : ConnectionsManager) (id : Nat) : Decidable (s.Registered id) :=
  inferInstanceAs (Decidable (∃ e ∈ s.socketsInfo, e.2 = id))

/-- The socket of a session is added to the pool. -/
def pooled (id : Nat) (s : ConnectionsManager) : ConnectionsManager :=
  { s with socketsInfo := s.socketsInfo ++ [((s.psSessions id).iFd, id)] }

/-- The socket of a session is deleted from the pool. -/
def unpooled (id : Nat) (s : ConnectionsManager) : ConnectionsManager :=
  { s with socketsInfo := s.socketsInfo.filter (·.1 ≠ (s.psSessions id).iFd) }

/-- The socket of a session is closed. -/
def closed (id : Nat) (s : ConnectionsManager) : ConnectionsManager :=
  { s.setSession id
      { s.psSessions id with iFd := -1, bSocketImplCreated := false, connection := none } with
    openFds := s.openFds.filter (· ≠ (s.psSessions id).iFd) }

/-- There is room in the sockets pool for the socket of a session, which is not there yet. -/
def Poolable (s : ConnectionsManager) (id : Nat) : Prop :=
  (s.psSessions id).iFd ∉ s.pooledFds ∧ s.socketsInfo.length < s.ulMaxSocketsNumber

theorem addSocket_cases (id : Nat) (s : ConnectionsManager) :
    s.addSocket id = (false, s) ∨ (s.Poolable id ∧ s.addSocket id = (true, s.pooled id)) := by
  dsimp only [addSocket]
  split
  · exact Or.inl rfl
  · rename_i hiFd
    split
    · exact Or.inl rfl
    · exact Or.inr ⟨⟨hiFd, by omega⟩, rfl⟩

theorem deleteSocket_cases (id : Nat) (s : ConnectionsManager) :
    (s.deleteSocket id = (true, s.unpooled id) ∧ (s.psSessions id).iFd ∈ s.pooledFds) ∨
      (s.deleteSocket id = (false, s) ∧ (s.psSessions id).iFd ∉ s.pooledFds) := by
  by_cases h : (s.psSessions id).iFd ∈ s.pooledFds
  · exact Or.inl ⟨if_pos h, h⟩
  · exact Or.inr ⟨if_neg h, h⟩

theorem closeSocket_cases (id : Nat) (closeWorks : Bool) (s : ConnectionsManager) :
    s.closeSocket id closeWorks = (true, s.closed id) ∨
      (s.closeSocket id closeWorks = (false, s) ∧
        ((s.psSessions id).iFd = -1 ∨ closeWorks = false)) := by
  by_cases h : (s.psSessions id).bSocketImplCreated ∧
      ((s.psSessions id).iFd = -1 ∨ closeWorks = false)
  · refine Or.inr ⟨?_, h.2⟩
    rw [closeSocket, SessionMembers.closeSocket, if_pos h]
  · refine Or.inl ?_
    rw [closeSocket, SessionMembers.closeSocket, if_neg h]
    rfl

/-! ### Accepting -/

theorem nextFree_mem {number : Nat} (h : s.nextFree number = some id) : id ∈ s.phmFreeSessions :=
  List.mem_of_getElem? h

/-- The connection that could not be set up: its socket is closed, if that works. -/
def setupFailed (id : Nat) (c : ConnectionChoice) (s : ConnectionsManager) : ConnectionsManager :=
  (((s.connect id c.time c.iFd).closeSocket id c.works).2).reset id

theorem setupFailed_eq (id : Nat) (c : ConnectionChoice) (s : ConnectionsManager) :
    ∃ m openFds, m.tUTCStartConnectionTime = 0 ∧
      s.setupFailed id c = { s.setSession id m with
        openFds := openFds
        nextConnection := s.nextConnection + 1 } := by
  rcases closeSocket_cases id c.works (s.connect id c.time c.iFd) with h | ⟨h, -⟩
  · refine ⟨⟨0, 0, -1, false, none⟩, (c.iFd :: s.openFds).filter (· ≠ c.iFd), rfl, ?_⟩
    rw [setupFailed, h]
    simp [reset, closed, connect, setSession, SessionMembers.reset]
  · refine ⟨⟨0, 0, c.iFd, true, some s.nextConnection⟩, c.iFd :: s.openFds, rfl, ?_⟩
    rw [setupFailed, h]
    simp [reset, connect, setSession, SessionMembers.reset]

/-- A session has got its connection, and is no free one. -/
def accepted (id : Nat) (c : ConnectionChoice) (s : ConnectionsManager) : ConnectionsManager :=
  { s.connect id c.time c.iFd with phmFreeSessions := s.phmFreeSessions.filter (· ≠ id) }

theorem acceptConnection_cases (id : Nat) (c : ConnectionChoice) (s : ConnectionsManager) :
    (∃ err, err.Refused ∧ s.acceptConnection id c = (err, s.noConnection id)) ∨
      (c.accepting = .setupFails ∧ s.acceptConnection id c = (.failed, s.setupFailed id c)) ∨
      (c.accepting = .works ∧
        s.acceptConnection id c = (.accepted id, s.connect id c.time c.iFd)) := by
  rw [acceptConnection]
  cases c.accepting with
  | nothing => exact Or.inl ⟨.notConnectionToAccept, trivial, rfl⟩
  | fails => exact Or.inl ⟨.failed, trivial, rfl⟩
  | setupFails =>
    dsimp only
    split
    · exact Or.inl ⟨.failed, trivial, rfl⟩
    · exact Or.inr (Or.inl ⟨rfl, rfl⟩)
  | works =>
    dsimp only
    split
    · exact Or.inl ⟨.failed, trivial, rfl⟩
    · exact Or.inr (Or.inr ⟨rfl, rfl⟩)

theorem accept_cases (c : ConnectionChoice) (s : ConnectionsManager) :
    s.accept c = (.failed, s) ∨ ∃ id, s.nextFree c.number = some id ∧
      ((∃ err, err.Refused ∧ s.accept c = (err, s.noConnection id)) ∨
        (c.accepting = .setupFails ∧ s.accept c = (.failed, s.setupFailed id c)) ∨
        (c.accepting = .works ∧ s.accept c = (.accepted id, s.accepted id c))) := by
  rw [accept]
  cases hid : s.nextFree c.number with
  | none => exact Or.inl rfl
  | some id =>
    refine Or.inr ⟨id, rfl, ?_⟩
    dsimp only
    rcases acceptConnection_cases id c s with ⟨err, herr, h⟩ | ⟨hc, h⟩ | ⟨hc, h⟩
    · refine Or.inl ⟨err, herr, ?_⟩
      rw [h]
      cases err with
      | accepted _ => exact herr.elim
      | failed => rfl
      | notConnectionToAccept => rfl
    · refine Or.inr (Or.inl ⟨hc, ?_⟩)
      rw [h]
    · refine Or.inr (Or.inr ⟨hc, ?_⟩)
      rw [h]
      rfl

/-! ### Reading, writing and releasing -/

theorem readRequest_cases (ci : ConnectionInformation) (c : ConnectionChoice)
    (s : ConnectionsManager) :
    (¬ s.IsCurrent ci ∧ s.readRequest ci c = (.requestNotReadBecauseOldSocket, s)) ∨
      s.IsCurrent ci ∧
        ((∃ err, err ≠ .headerTimeoutExpired ∧ s.readRequest ci c = (err, s)) ∨
          s.readRequest ci c = (.errNoError, s.setLastRead ci.psSession c.time) ∨
          s.readRequest ci c = (.headerTimeoutExpired, s.pooled ci.psSession) ∨
          (c.requestRead = .bodyTimeoutExpired ∧ s.Poolable ci.psSession ∧ s.readRequest ci c =
            (.errNoError, (s.pooled ci.psSession).setLastRead ci.psSession c.time))) := by
  rw [readRequest]
  by_cases hci : s.IsCurrent ci
  · refine Or.inr ⟨hci, ?_⟩
    rw [if_neg (not_not_intro hci)]
    cases c.requestRead with
    | complete => exact Or.inr (Or.inl rfl)
    | eofReached => exact Or.inl ⟨_, ReadError.noConfusion, rfl⟩
    | fails => exact Or.inl ⟨_, ReadError.noConfusion, rfl⟩
    | headerTimeoutExpired =>
      dsimp only
      rcases addSocket_cases ci.psSession s with h | ⟨-, h⟩
      · rw [h]
        exact Or.inl ⟨_, ReadError.noConfusion, rfl⟩
      · rw [h]
        exact Or.inr (Or.inr (Or.inl rfl))
    | bodyTimeoutExpired =>
      dsimp only
      rcases addSocket_cases ci.psSession s with h | ⟨hroom, h⟩
      · rw [h]
        exact Or.inl ⟨_, ReadError.noConfusion, rfl⟩
      · rw [h]
        exact Or.inr (Or.inr (Or.inr ⟨rfl, hroom, rfl⟩))
  · refine Or.inl ⟨hci, ?_⟩
    rw [if_pos hci]

theorem writeResponse_cases (ci : ConnectionInformation) (bIsResponseFinished writeWorks : Bool)
    (s : ConnectionsManager) :
    s.writeResponse ci bIsResponseFinished writeWorks = (false, s) ∨ s.IsCurrent ci ∧
      ((bIsResponseFinished = false ∧
          s.writeResponse ci bIsResponseFinished writeWorks = (true, s)) ∨
        (bIsResponseFinished = true ∧ s.Poolable ci.psSession ∧
          s.writeResponse ci bIsResponseFinished writeWorks = (true, s.pooled ci.psSession))) := by
  rw [writeResponse]
  by_cases hci : s.IsCurrent ci
  · rw [if_neg (not_not_intro hci)]
    cases writeWorks with
    | false => exact Or.inl rfl
    | true =>
      cases bIsResponseFinished with
      | false => exact Or.inr ⟨hci, Or.inl ⟨rfl, rfl⟩⟩
      | true =>
        rcases addSocket_cases ci.psSession s with h | ⟨hroom, h⟩
        · exact Or.inl h
        · exact Or.inr ⟨hci, Or.inr ⟨rfl, hroom, h⟩⟩
  · exact Or.inl (if_pos hci)

/-- The socket of a session is deleted from the pool, where that is asked for. -/
def deleted (id : Nat) (bDeleteFromSocketsPool : Bool) (s : ConnectionsManager) :
    ConnectionsManager := if bDeleteFromSocketsPool then s.unpooled id else s

/-- A session is released. -/
def released (id : Nat) (bDeleteFromSocketsPool : Bool) (s : ConnectionsManager) :
    ConnectionsManager := ((s.deleted id bDeleteFromSocketsPool).closed id).reset id

theorem psSessions_deleted (id : Nat) (bDeleteFromSocketsPool : Bool) (s : ConnectionsManager) :
    (s.deleted id bDeleteFromSocketsPool).psSessions = s.psSessions := by
  cases bDeleteFromSocketsPool <;> rfl

theorem releaseConnection_cases (id : Nat) (bDeleteFromSocketsPool closeWorks : Bool)
    (s : ConnectionsManager) :
    (bDeleteFromSocketsPool = true ∧ (s.psSessions id).iFd ∉ s.pooledFds ∧
        s.releaseConnection id bDeleteFromSocketsPool closeWorks = (.deleteSocketFailed, s)) ∨
      ((s.psSessions id).iFd = -1 ∨ closeWorks = false) ∧
        s.releaseConnection id bDeleteFromSocketsPool closeWorks
          = (.socketFailed, s.deleted id bDeleteFromSocketsPool) ∨
      s.releaseConnection id bDeleteFromSocketsPool closeWorks
        = (.errNoError, s.released id bDeleteFromSocketsPool) := by
  have hclose : ((s.deleted id bDeleteFromSocketsPool).psSessions id).iFd = (s.psSessions id).iFd →
      (∀ s₁, (s.deleted id bDeleteFromSocketsPool).closeSocket id closeWorks = (false, s₁) →
        s.releaseConnection id bDeleteFromSocketsPool closeWorks = (.socketFailed, s₁)) →
      (∀ s₁, (s.deleted id bDeleteFromSocketsPool).closeSocket id closeWorks = (true, s₁) →
        s.releaseConnection id bDeleteFromSocketsPool closeWorks = (.errNoError, s₁.reset id)) →
      ((s.psSessions id).iFd = -1 ∨ closeWorks = false) ∧
        s.releaseConnection id bDeleteFromSocketsPool closeWorks
          = (.socketFailed, s.deleted id bDeleteFromSocketsPool) ∨
      s.releaseConnection id bDeleteFromSocketsPool closeWorks
        = (.errNoError, s.released id bDeleteFromSocketsPool) := by
    intro hiFd hfails hcloses
    rcases closeSocket_cases id closeWorks (s.deleted id bDeleteFromSocketsPool) with h | ⟨h, hc⟩
    · exact Or.inr (hcloses _ h)
    · rw [hiFd] at hc
      exact Or.inl ⟨hc, hfails _ h⟩
  cases bDeleteFromSocketsPool with
  | false =>
    refine Or.inr (hclose rfl (fun s₁ h => ?_) fun s₁ h => ?_)
    · rw [releaseConnection, if_neg Bool.false_ne_true]
      dsimp only
      rw [if_neg (by decide), show s.closeSocket id closeWorks = (false, s₁) from h]
    · rw [releaseConnection, if_neg Bool.false_ne_true]
      dsimp only
      rw [if_neg (by decide), show s.closeSocket id closeWorks = (true, s₁) from h]
  | true =>
    rcases deleteSocket_cases id s with ⟨hdeleted, -⟩ | ⟨h, hiFd⟩
    · refine Or.inr (hclose rfl (fun s₁ h => ?_) fun s₁ h => ?_)
      · rw [releaseConnection, if_pos rfl, hdeleted]
        dsimp only
        rw [if_neg (by decide), show (s.unpooled id).closeSocket id closeWorks = (false, s₁) from h]
      · rw [releaseConnection, if_pos rfl, hdeleted]
        dsimp only
        rw [if_neg (by decide), show (s.unpooled id).closeSocket id closeWorks = (true, s₁) from h]
    · refine Or.inl ⟨rfl, hiFd, ?_⟩
      rw [releaseConnection, if_pos rfl, h]
      rfl

/-! ### The free sessions, the events and the proxy threads -/

/-- A session is put in the free sessions. -/
def freed (id : Nat) (s : ConnectionsManager) : ConnectionsManager :=
  { s with phmFreeSessions := s.phmFreeSessions ++ [id] }

theorem insertFreeSession_cases (id : Nat) (bReset : Bool) (s : ConnectionsManager) :
    (id ∈ s.phmFreeSessions ∧ (s.insertFreeSession id bReset = s ∨
        bReset = true ∧ s.insertFreeSession id bReset = s.reset id)) ∨
      (id ∉ s.phmFreeSessions ∧ s.insertFreeSession id bReset = s.freed id) := by
  rw [insertFreeSession]
  by_cases hid : id ∈ s.phmFreeSessions
  · rw [if_pos hid]
    cases bReset with
    | true => exact Or.inl ⟨hid, Or.inr ⟨rfl, rfl⟩⟩
    | false => exact Or.inl ⟨hid, Or.inl rfl⟩
  · rw [if_neg hid]
    exact Or.inr ⟨hid, rfl⟩

/-- The event of a socket that was in the pool. -/
def signalled (id : Nat) (s : ConnectionsManager) : ConnectionsManager :=
  { s.unpooled id with events := s.events ++ [s.information id] }

theorem updateSocketStatus_cases (c : ConnectionChoice) (s : ConnectionsManager) :
    s.updateSocketStatus c = s ∨ ∃ id, s.Registered id ∧
      (s.updateSocketStatus c = s.signalled id ∨ s.updateSocketStatus c = s.unpooled id ∨
        s.updateSocketStatus c = (s.unpooled id).pooled id) := by
  rw [updateSocketStatus]
  cases he : s.socketsInfo[c.number]? with
  | none => exact Or.inl rfl
  | some e =>
    obtain ⟨iFd, id⟩ := e
    dsimp only
    cases c.works with
    | false => exact Or.inl rfl
    | true =>
      rcases deleteSocket_cases id s with ⟨h, -⟩ | ⟨h, -⟩
      · refine Or.inr ⟨id, ⟨(iFd, id), List.mem_of_getElem? he, rfl⟩, ?_⟩
        rw [h]
        cases c.addEventWorks with
        | true => exact Or.inl rfl
        | false =>
          refine Or.inr ?_
          rcases addSocket_cases id (s.unpooled id) with h | ⟨-, h⟩
          · exact Or.inl (congrArg Prod.snd h)
          · exact Or.inr (congrArg Prod.snd h)
      · refine Or.inl ?_
        rw [h]
        rfl

theorem takeEvent_cases (number : Nat) (s : ConnectionsManager) :
    s.takeEvent number = (none, s) ∨ ∃ ci events, s.events.Perm (ci :: events) ∧
      s.takeEvent number = (some ci, { s with events := events }) := by
  rw [takeEvent]
  cases hci : s.events[number]? with
  | none => exact Or.inl rfl
  | some ci =>
    obtain ⟨hlt, rfl⟩ := List.getElem?_eq_some_iff.mp hci
    exact Or.inr ⟨_, _, (List.getElem_cons_eraseIdx_perm hlt).symm, rfl⟩

theorem takeProxy_cases (number : Nat) (s : ConnectionsManager) :
    s.takeProxy number = (none, s) ∨ ∃ ci httpProxyThreads,
      s.httpProxyThreads.Perm (ci :: httpProxyThreads) ∧
      s.takeProxy number = (some ci, { s with httpProxyThreads := httpProxyThreads }) := by
  rw [takeProxy]
  cases hci : s.httpProxyThreads[number]? with
  | none => exact Or.inl rfl
  | some ci =>
    obtain ⟨hlt, rfl⟩ := List.getElem?_eq_some_iff.mp hci
    exact Or.inr ⟨_, _, (List.getElem_cons_eraseIdx_perm hlt).symm, rfl⟩

end ConnectionsManager

end CatraLibraries
