/-
# One thread for a connection at a time

A session has one token: it is a free session, or its socket is in the sockets pool, or an event
or a proxied request of it waits, or a thread works for it.  A token may be lost, with a session
that no thread finds again, but it must not be doubled: then two threads work for one connection,
or the socket is in the sockets pool before the response is finished.

Three things double it: a request whose body does not come in time, after which the socket is in
the pool and the request is answered; a response that is finished twice; and a session that is
put in the free sessions while it is somewhere else.
-/
import CatraLibraries.ConnectionsManager.FreeSessions
import CatraLibraries.Lib.Places

namespace CatraLibraries

open Threads Places

namespace ConnectionPhase

/-- A thread works for a session: a connection is accepted, or its response is not finished. -/
def WorksFor (id : Nat) : ConnectionPhase → Prop
  | accepted id' => id' = id
  | handling ci true | proxying ci true => ci.psSession = id
  | _ => False

instance (id : Nat) (l : ConnectionPhase) : Decidable (l.WorksFor id) :=
  match l with
  | idle => isFalse fun h => h
  | accepted id' => inferInstanceAs (Decidable (id' = id))
  | handling ci true => inferInstanceAs (Decidable (ci.psSession = id))
  | handling _ false => isFalse fun h => h
  | proxying ci true => inferInstanceAs (Decidable (ci.psSession = id))
  | proxying _ false => isFalse fun h => h
  | puttingBack _ => isFalse fun h => h

/-- The token of a session in the hands of a thread. -/
def tokens (l : ConnectionPhase) (id : Nat) : Nat := if l.WorksFor id then 1 else 0

theorem tokens_of_worksFor {l : ConnectionPhase} {id : Nat} (h : l.WorksFor id) :
    l.tokens id = 1 := if_pos h

theorem tokens_of_not {l : ConnectionPhase} {id : Nat} (h : ¬ l.WorksFor id) :
    l.tokens id = 0 := if_neg h

@[simp] theorem tokens_finished (l : ConnectionPhase) (id : Nat) :
    l.finished.tokens id ≤ l.tokens id := by
  cases l with
  | handling ci working => exact Nat.zero_le _
  | proxying ci working => exact Nat.zero_le _
  | idle => exact Nat.le_refl _
  | accepted id' => exact Nat.le_refl _
  | puttingBack id' => exact Nat.le_refl _

/-- Who has an event or a proxied request has finished then. -/
theorem Holds.tokens_finished {l : ConnectionPhase} {ci : ConnectionInformation} (h : l.Holds ci)
    (id : Nat) : l.finished.tokens id = 0 := by
  obtain ⟨working, rfl | rfl⟩ := h
  · exact rfl
  · exact rfl

end ConnectionPhase

namespace ConnectionsManager

/-- The tokens of a session that no thread has. -/
def tokens (d : ConnectionsManager) (id : Nat) : Nat :=
  d.phmFreeSessions.count id + (d.socketsInfo.map Prod.snd).count id +
    (d.events.map ConnectionInformation.psSession).count id +
    (d.httpProxyThreads.map ConnectionInformation.psSession).count id

variable {d : ConnectionsManager} {id id' : Nat}

theorem registered_iff : d.Registered id ↔ 0 < (d.socketsInfo.map Prod.snd).count id := by
  rw [List.count_pos_iff, List.mem_map]
  exact Iff.rfl

theorem count_events_pos {events : List ConnectionInformation} {ci : ConnectionInformation}
    (h : ci ∈ events) : 0 < (events.map ConnectionInformation.psSession).count ci.psSession :=
  List.count_pos_iff.mpr (List.mem_map_of_mem h)

theorem count_singleton' (id id' : Nat) : ([id] : List Nat).count id' = if id = id' then 1 else 0 := by
  rw [List.count_singleton]
  simp only [beq_iff_eq]

theorem tokens_pooled (d : ConnectionsManager) (id id' : Nat) :
    (d.pooled id).tokens id' = d.tokens id' + if id = id' then 1 else 0 := by
  simp only [tokens, pooled, List.map_append, List.map_cons, List.map_nil, List.count_append,
    count_singleton']
  omega

theorem tokens_unpooled_le (d : ConnectionsManager) (id id' : Nat) :
    (d.unpooled id).tokens id' ≤ d.tokens id' := by
  have hle : ((d.unpooled id).socketsInfo.map Prod.snd).count id'
      ≤ (d.socketsInfo.map Prod.snd).count id' :=
    ((List.filter_sublist (l := d.socketsInfo)).map Prod.snd).count_le id'
  show _ + ((d.unpooled id).socketsInfo.map Prod.snd).count id' + _ + _ ≤ _
  simp only [tokens, unpooled] at hle ⊢
  omega

/-- The sockets in the pool are there under their descriptors. -/
def PooledByFd (d : ConnectionsManager) : Prop :=
  ∀ e ∈ d.socketsInfo, (d.psSessions e.2).iFd = e.1

/-- A session is not in the pool after its socket has been deleted from it. -/
theorem PooledByFd.count_unpooled (h : d.PooledByFd) (id : Nat) :
    ((d.unpooled id).socketsInfo.map Prod.snd).count id = 0 := by
  refine List.count_eq_zero.mpr fun hmem => ?_
  obtain ⟨e, he, rfl⟩ := List.mem_map.mp hmem
  obtain ⟨hmem, hne⟩ := List.mem_filter.mp he
  exact of_decide_eq_true hne (h e hmem).symm

theorem PooledByFd.unpooled (h : d.PooledByFd) (id : Nat) : (d.unpooled id).PooledByFd :=
  fun e he => h e (List.mem_filter.mp he).1

theorem PooledByFd.pooled (h : d.PooledByFd) (id : Nat) : (d.pooled id).PooledByFd := by
  intro e he
  rcases List.mem_append.mp he with he | he
  · exact h e he
  · obtain rfl := List.mem_singleton.mp he
    exact rfl

/-- A session that is not in the pool may get any members. -/
theorem PooledByFd.setSession {d' : ConnectionsManager} {m : SessionMembers} (h : d.PooledByFd)
    (hid : (d.socketsInfo.map Prod.snd).count id = 0)
    (hsessions : d'.psSessions = Function.update d.psSessions id m)
    (hpool : d'.socketsInfo = d.socketsInfo) : d'.PooledByFd := by
  intro e he
  rw [hpool] at he
  rw [hsessions, Function.update_of_ne]
  · exact h e he
  · rintro rfl
    exact List.count_eq_zero.mp hid (List.mem_map_of_mem he)

/-- Deleting the socket of a registered session from the pool takes its token out. -/
theorem tokens_unpooled (h : d.PooledByFd) (hid : d.Registered id) (id' : Nat) :
    (d.unpooled id).tokens id' + (if id = id' then 1 else 0) ≤ d.tokens id' := by
  rcases eq_or_ne id id' with rfl | hne
  · have hpos := registered_iff.mp hid
    have hzero := h.count_unpooled id
    rw [if_pos rfl]
    simp only [tokens, ConnectionsManager.unpooled] at hpos hzero ⊢
    omega
  · rw [if_neg hne]
    exact tokens_unpooled_le d id id'

/-- The token of a session goes from the pool to its event. -/
theorem tokens_signalled (h : d.PooledByFd) (hid : d.Registered id) (id' : Nat) :
    (d.signalled id).tokens id' ≤ d.tokens id' := by
  have hsignalled : (d.signalled id).tokens id'
      = (d.unpooled id).tokens id' + if id = id' then 1 else 0 := by
    simp only [tokens, signalled, ConnectionsManager.unpooled, information, List.map_append,
      List.map_cons, List.map_nil, List.count_append, count_singleton']
    omega
  rw [hsignalled]
  exact tokens_unpooled h hid id'

/-- The token of a session goes from the pool and back to it. -/
theorem tokens_unpooled_pooled (h : d.PooledByFd) (hid : d.Registered id) (id' : Nat) :
    ((d.unpooled id).pooled id).tokens id' ≤ d.tokens id' := by
  rw [tokens_pooled]
  exact tokens_unpooled h hid id'

/-- A free session that gets a connection gives its token to the thread. -/
theorem tokens_accepted (hid : id ∈ d.phmFreeSessions) (c : ConnectionChoice) (id' : Nat) :
    (d.accepted id c).tokens id' + (if id = id' then 1 else 0) ≤ d.tokens id' := by
  have hle : (d.phmFreeSessions.filter (· ≠ id)).count id' + (if id = id' then 1 else 0)
      ≤ d.phmFreeSessions.count id' := by
    rcases eq_or_ne id id' with rfl | hne
    · have hpos := List.count_pos_iff.mpr hid
      have hzero : (d.phmFreeSessions.filter (· ≠ id)).count id = 0 := by
        refine List.count_eq_zero.mpr fun hmem => ?_
        exact of_decide_eq_true (List.mem_filter.mp hmem).2 rfl
      rw [if_pos rfl, hzero]
      omega
    · rw [if_neg hne]
      exact (List.filter_sublist).count_le id'
  simp only [tokens, ConnectionsManager.accepted, connect, setSession]
  omega

/-- An event that is taken, or a proxied request, gives its token to the thread. -/
theorem count_taken {l l' : List ConnectionInformation} {ci : ConnectionInformation}
    (hperm : l.Perm (ci :: l')) (id : Nat) :
    (l'.map ConnectionInformation.psSession).count id + (if ci.psSession = id then 1 else 0)
      = (l.map ConnectionInformation.psSession).count id := by
  rw [(hperm.map _).count_eq, List.map_cons, List.count_cons]
  simp only [beq_iff_eq]

end ConnectionsManager

namespace ConnectionState

variable {T : Type}

/-- A session has been accepted or taken out of the sockets pool, and its response is not
finished, nor has it been released. -/
def InHands (s : ConnectionState T) (id : Nat) : Prop :=
  (∃ ci ∈ s.shared.events, ci.psSession = id) ∨
    (∃ ci ∈ s.shared.httpProxyThreads, ci.psSession = id) ∨ ∃ t, (s.phase t).WorksFor id

/-- **What is promised of a session in hands**: its socket is not in the sockets pool, and at most
one processor or proxy thread works for it. -/
structure WorkedAlone (s : ConnectionState T) (id : Nat) : Prop where
  notRegistered : s.InHands id → ¬ s.shared.Registered id
  alone : ∀ t t', (s.phase t).WorksFor id → (s.phase t').WorksFor id → t = t'

/-- The condition on the calls: the body of a request does not end in a timeout after which there
is room for the socket in the pool; a response is finished once; and a session is put in the free
ones only where it is nowhere else. -/
def KeepsApart (s : ConnectionState T) (t : T) (op : ConnectionOp) (c : ConnectionChoice) : Prop :=
  match op with
  | .readRequest ci =>
    s.shared.IsCurrent ci → c.requestRead = .bodyTimeoutExpired →
      s.shared.ulMaxSocketsNumber ≤ s.shared.socketsInfo.length
  | .writeResponse ci true =>
    (s.phase t).WorksFor ci.psSession ∨ s.shared.Registered ci.psSession
  | .insertFreeSession id _ =>
    id ∉ s.shared.phmFreeSessions → ¬ s.shared.Registered id ∧ ¬ s.InHands id
  | _ => True

end ConnectionState

/-- **At most one token** for each session. -/
structure TokensOnce {T : Type} (d : ConnectionsManager) (ph : T → ConnectionPhase) : Prop where
  exclusive : Exclusive d.tokens fun t => (ph t).tokens
  pool : d.PooledByFd

namespace TokensOnce

open ConnectionsManager ConnectionPhase

variable {T : Type} {d d' : ConnectionsManager} {ph : T → ConnectionPhase} {t : T} {id : Nat}
  {l : ConnectionPhase}

theorem initial (cfg : ProcessorConfiguration) :
    TokensOnce (.initial cfg) fun _ : T => ConnectionPhase.idle where
  exclusive := by
    have hfree : ∀ id, (ConnectionsManager.initial cfg).tokens id ≤ 1 :=
      fun id => List.nodup_iff_count.mp List.nodup_range id
    exact {
      once := hfree
      held := fun _ id => hfree id
      alone := fun _ _ _ _ => Nat.zero_le 1 }
  pool := List.forall_mem_nil _

/-- What one token means for a session in hands. -/
theorem workedAlone {s : ConnectionState T} (h : TokensOnce s.shared s.phase) (id : Nat) :
    s.WorkedAlone id where
  notRegistered := by
    intro hhands hregistered
    have hpool := registered_iff.mp hregistered
    have honce := h.exclusive.once id
    rcases hhands with ⟨ci, hci, rfl⟩ | ⟨ci, hci, rfl⟩ | ⟨t, ht⟩
    · have hevents := count_events_pos hci
      simp only [ConnectionsManager.tokens] at honce
      omega
    · have hproxies := count_events_pos hci
      simp only [ConnectionsManager.tokens] at honce
      omega
    · have hheld := h.exclusive.held t id
      rw [tokens_of_worksFor ht] at hheld
      simp only [ConnectionsManager.tokens] at hheld
      omega
  alone := by
    intro t t' ht ht'
    by_contra hne
    have halone := h.exclusive.alone t t' id hne
    rw [tokens_of_worksFor ht, tokens_of_worksFor ht'] at halone
    omega

theorem tokens_eq_zero (h : TokensOnce d ph) (ht : (ph t).WorksFor id) : d.tokens id = 0 := by
  have hheld := h.exclusive.held t id
  rw [tokens_of_worksFor ht] at hheld
  omega

/-- A free session is not in the pool. -/
theorem count_pool_of_free (h : TokensOnce d ph) (hid : id ∈ d.phmFreeSessions) :
    (d.socketsInfo.map Prod.snd).count id = 0 := by
  have hpos := List.count_pos_iff.mpr hid
  have honce := h.exclusive.once id
  simp only [ConnectionsManager.tokens] at honce
  omega

variable [DecidableEq T]

/-- **A step of one thread**, by what it does to the tokens. -/
theorem move (h : TokensOnce d ph) (hpool : d'.PooledByFd)
    (hmove : ∀ id, d'.tokens id + l.tokens id ≤ d.tokens id + (ph t).tokens id) :
    TokensOnce d' (Function.update ph t l) where
  exclusive := by
    have hupdate : (fun t' => (Function.update ph t l t').tokens)
        = Function.update (fun t' => (ph t').tokens) t l.tokens :=
      Function.comp_update ConnectionPhase.tokens ph t l
    rw [hupdate]
    exact h.exclusive.move hmove
  pool := hpool

theorem stay (h : TokensOnce d ph) (hpool : d'.PooledByFd)
    (htokens : ∀ id, d'.tokens id ≤ d.tokens id) :
    TokensOnce d' (Function.update ph t (ph t)) :=
  h.move hpool fun id => Nat.add_le_add_right (htokens id) _

/-- A thread that answers gives its token to the pool. -/
theorem pooled_finished (h : TokensOnce d ph) {ci : ConnectionInformation} (hci : (ph t).Holds ci)
    (ht : (ph t).WorksFor ci.psSession) :
    TokensOnce (d.pooled ci.psSession) (Function.update ph t (ph t).finished) := by
  refine h.move (h.pool.pooled _) fun id => ?_
  rw [tokens_pooled, hci.tokens_finished]
  rcases eq_or_ne ci.psSession id with rfl | hne
  · have hheld := tokens_of_worksFor ht
    simp only [if_true]
    omega
  · simp only [if_neg hne]
    omega

/-- **One call** keeps the tokens apart. -/
theorem call {s : ConnectionState T} {op : ConnectionOp} {c : ConnectionChoice}
    (h : TokensOnce s.shared s.phase) (hallowed : op.Allowed (s.phase t))
    (hmeets : s.KeepsApart t op c) :
    TokensOnce (op.exec c s.shared).2
      (Function.update s.phase t (op.next (op.exec c s.shared).1 (s.phase t))) := by
  have hsame : TokensOnce s.shared (Function.update s.phase t (s.phase t)) :=
    h.stay h.pool fun _ => Nat.le_refl _
  cases op with
  | accept =>
    show TokensOnce (s.shared.accept c).2
      (Function.update s.phase t (ConnectionOp.next .accept (s.shared.accept c).1 (s.phase t)))
    rcases accept_cases c s.shared with hr | ⟨id, hid, ⟨err, herr, hr⟩ | ⟨-, hr⟩ | ⟨-, hr⟩⟩
    · rw [hr]
      exact hsame
    · have hpool : (s.shared.noConnection id).PooledByFd :=
        h.pool.setSession (h.count_pool_of_free (nextFree_mem hid)) rfl rfl
      rw [hr]
      cases err with
      | accepted _ => exact herr.elim
      | failed => exact h.stay hpool fun _ => Nat.le_refl _
      | notConnectionToAccept => exact h.stay hpool fun _ => Nat.le_refl _
    · obtain ⟨m, openFds, -, heq⟩ := setupFailed_eq id c s.shared
      rw [hr]
      show TokensOnce (s.shared.setupFailed id c) (Function.update s.phase t (s.phase t))
      rw [heq]
      refine h.stay ?_ fun _ => Nat.le_refl _
      exact h.pool.setSession (h.count_pool_of_free (nextFree_mem hid)) rfl rfl
    · rw [hr]
      refine h.move ?_ fun id' => ?_
      · exact h.pool.setSession (h.count_pool_of_free (nextFree_mem hid)) rfl rfl
      · rw [show s.phase t = .idle from hallowed]
        exact tokens_accepted (nextFree_mem hid) c id'
  | initEvent id =>
    show TokensOnce s.shared (Function.update s.phase t (ConnectionOp.next (.initEvent id)
      (if c.works then some (s.shared.information id) else none) (s.phase t)))
    cases c.works with
    | false => exact hsame
    | true =>
      refine h.move h.pool fun id' => ?_
      rw [show s.phase t = .accepted id from hallowed]
      exact Nat.le_refl _
  | takeEvent =>
    show TokensOnce (s.shared.takeEvent c.number).2 (Function.update s.phase t
      (ConnectionOp.next .takeEvent (s.shared.takeEvent c.number).1 (s.phase t)))
    rcases takeEvent_cases c.number s.shared with hr | ⟨ci, events, hperm, hr⟩
    · rw [hr]
      exact hsame
    · rw [hr]
      refine h.move h.pool fun id => ?_
      have htaken := count_taken hperm id
      have hworks : (handling ci true).tokens id = if ci.psSession = id then 1 else 0 := rfl
      show ConnectionsManager.tokens _ id + (handling ci true).tokens id ≤ _
      rw [hworks]
      simp only [ConnectionsManager.tokens]
      omega
  | takeProxy =>
    show TokensOnce (s.shared.takeProxy c.number).2 (Function.update s.phase t
      (ConnectionOp.next .takeProxy (s.shared.takeProxy c.number).1 (s.phase t)))
    rcases takeProxy_cases c.number s.shared with hr | ⟨ci, proxies, hperm, hr⟩
    · rw [hr]
      exact hsame
    · rw [hr]
      refine h.move h.pool fun id => ?_
      have htaken := count_taken hperm id
      have hworks : (proxying ci true).tokens id = if ci.psSession = id then 1 else 0 := rfl
      show ConnectionsManager.tokens _ id + (proxying ci true).tokens id ≤ _
      rw [hworks]
      simp only [ConnectionsManager.tokens]
      omega
  | readRequest ci =>
    have hphase : s.phase t = .handling ci true := hallowed
    have hworks : (s.phase t).WorksFor ci.psSession := by
      rw [hphase]
      exact rfl
    show TokensOnce (s.shared.readRequest ci c).2 (Function.update s.phase t
      (ConnectionOp.next (.readRequest ci) (s.shared.readRequest ci c).1 (s.phase t)))
    rcases readRequest_cases ci c s.shared with
      ⟨-, hr⟩ | ⟨hcurrent, ⟨err, herr, hr⟩ | hr | hr | ⟨hbody, hroom, hr⟩⟩
    · rw [hr]
      exact hsame
    · rw [hr]
      cases err with
      | headerTimeoutExpired => exact absurd rfl herr
      | errNoError => exact hsame
      | eofReached => exact hsame
      | requestNotReadBecauseOldSocket => exact hsame
      | failed => exact hsame
    · rw [hr]
      refine h.stay ?_ fun _ => Nat.le_refl _
      refine h.pool.setSession (List.count_eq_zero.mpr fun hmem => ?_) rfl rfl
      obtain ⟨e, he, hid⟩ := List.mem_map.mp hmem
      exact (h.workedAlone ci.psSession).notRegistered (Or.inr (Or.inr ⟨t, hworks⟩)) ⟨e, he, hid⟩
    · rw [hr]
      exact h.pooled_finished ⟨true, Or.inl hphase⟩ hworks
    · exact absurd (hmeets hcurrent hbody) (Nat.not_le_of_lt hroom.2)
  | writeResponse ci bIsResponseFinished =>
    show TokensOnce (s.shared.writeResponse ci bIsResponseFinished c.works).2
      (Function.update s.phase t ((s.phase t).afterResponse bIsResponseFinished
        (s.shared.writeResponse ci bIsResponseFinished c.works).1))
    rcases writeResponse_cases ci bIsResponseFinished c.works s.shared with
      hr | ⟨-, ⟨hfin, hr⟩ | ⟨rfl, hroom, hr⟩⟩
    · rw [hr, afterResponse, if_neg fun h => Bool.false_ne_true h.2]
      exact hsame
    · rw [hr, afterResponse, if_neg fun h => Bool.false_ne_true (hfin.symm.trans h.1)]
      exact hsame
    · rw [hr, afterResponse, if_pos ⟨rfl, rfl⟩]
      rcases hmeets with hworks | ⟨e, he, hid⟩
      · exact h.pooled_finished hallowed hworks
      · -- the socket is in the pool already, under its descriptor
        refine absurd (List.mem_map.mpr ⟨e, he, ?_⟩) hroom.1
        rw [← h.pool e he, hid]
  | startProxy ci =>
    have hphase : s.phase t = .handling ci true := hallowed
    refine h.move h.pool fun id => ?_
    show (s.shared.startProxy ci).tokens id + (s.phase t).finished.tokens id ≤ _
    rw [hphase]
    have hworks : (handling ci true).tokens id = if ci.psSession = id then 1 else 0 := rfl
    have hfinished : (handling ci true).finished.tokens id = 0 := rfl
    rw [hworks, hfinished]
    simp only [ConnectionsManager.tokens, startProxy, List.map_append, List.map_cons, List.map_nil,
      List.count_append, count_singleton']
    omega
  | releaseConnection id bDeleteFromSocketsPool =>
    have hle : ∀ id', (s.shared.deleted id bDeleteFromSocketsPool).tokens id'
        ≤ s.shared.tokens id' := by
      intro id'
      cases bDeleteFromSocketsPool with
      | true => exact tokens_unpooled_le _ id id'
      | false => exact Nat.le_refl _
    have hpool : (s.shared.deleted id bDeleteFromSocketsPool).PooledByFd := by
      cases bDeleteFromSocketsPool with
      | true => exact h.pool.unpooled id
      | false => exact h.pool
    -- after the deletion the session is not in the pool
    have hout : ((s.shared.deleted id bDeleteFromSocketsPool).socketsInfo.map Prod.snd).count id
        = 0 := by
      cases bDeleteFromSocketsPool with
      | true => exact h.pool.count_unpooled id
      | false =>
        have hworks : (s.phase t).WorksFor id := by
          rcases (hallowed : (s.phase t).Releases id false) with hphase | ⟨ci, rfl, hphase⟩
          · rw [hphase]
            exact rfl
          · rw [hphase]
            exact rfl
        have hzero := h.tokens_eq_zero hworks
        simp only [ConnectionsManager.tokens] at hzero
        show (s.shared.socketsInfo.map Prod.snd).count id = 0
        omega
    show TokensOnce (s.shared.releaseConnection id bDeleteFromSocketsPool c.works).2
      (Function.update s.phase t ((s.phase t).afterRelease id
        (s.shared.releaseConnection id bDeleteFromSocketsPool c.works).1))
    have hphase : ∀ err id', ((s.phase t).afterRelease id err).tokens id' = 0 := by
      intro err id'
      rw [afterRelease]
      split
      · exact rfl
      · exact rfl
    rcases releaseConnection_cases id bDeleteFromSocketsPool c.works s.shared with
      ⟨-, -, hr⟩ | ⟨-, hr⟩ | hr
    · rw [hr]
      refine h.move h.pool fun id' => ?_
      rw [hphase]
      exact Nat.le_add_right _ _
    · rw [hr]
      refine h.move hpool fun id' => ?_
      rw [hphase]
      exact Nat.le_trans (hle id') (Nat.le_add_right _ _)
    · rw [hr]
      refine h.move ?_ fun id' => ?_
      · have hclosed : ((s.shared.deleted id bDeleteFromSocketsPool).closed id).PooledByFd :=
          hpool.setSession hout rfl rfl
        exact hclosed.setSession hout rfl rfl
      · rw [hphase]
        exact Nat.le_trans (hle id') (Nat.le_add_right _ _)
  | insertFreeSession id bReset =>
    show TokensOnce (s.shared.insertFreeSession id bReset) (Function.update s.phase t .idle)
    rcases insertFreeSession_cases id bReset s.shared with ⟨hid, hr | ⟨-, hr⟩⟩ | ⟨hid, hr⟩
    · rw [hr]
      refine h.move h.pool fun id' => ?_
      exact Nat.le_add_right _ _
    · rw [hr]
      refine h.move ?_ fun id' => Nat.le_add_right _ _
      exact h.pool.setSession (h.count_pool_of_free hid) rfl rfl
    · rw [hr]
      obtain ⟨hregistered, hhands⟩ := hmeets hid
      have hworks : ∀ t', (s.phase t').tokens id = 0 :=
        fun t' => tokens_of_not fun ht' => hhands (Or.inr (Or.inr ⟨t', ht'⟩))
      have hzero : s.shared.tokens id = 0 := by
        have hfree := List.count_eq_zero.mpr hid
        have hpool := Nat.eq_zero_of_not_pos fun h => hregistered (registered_iff.mpr h)
        have hevents : (s.shared.events.map ConnectionInformation.psSession).count id = 0 := by
          refine List.count_eq_zero.mpr fun hmem => ?_
          obtain ⟨ci, hci, hid⟩ := List.mem_map.mp hmem
          exact hhands (Or.inl ⟨ci, hci, hid⟩)
        have hproxies : (s.shared.httpProxyThreads.map ConnectionInformation.psSession).count id
            = 0 := by
          refine List.count_eq_zero.mpr fun hmem => ?_
          obtain ⟨ci, hci, hid⟩ := List.mem_map.mp hmem
          exact hhands (Or.inr (Or.inl ⟨ci, hci, hid⟩))
        simp only [ConnectionsManager.tokens]
        omega
      have hfreed : ∀ id', (s.shared.freed id).tokens id'
          = s.shared.tokens id' + if id = id' then 1 else 0 := by
        intro id'
        simp only [ConnectionsManager.tokens, freed, List.count_append, count_singleton']
        omega
      have hgain : TokensOnce (s.shared.freed id) s.phase := by
        refine ⟨h.exclusive.gain hworks ?_ fun id' hne => ?_, h.pool⟩
        · exact Nat.le_of_eq (by rw [hfreed, hzero, if_pos rfl])
        · rw [hfreed, if_neg hne.symm]
          exact Nat.le_refl _
      exact hgain.move hgain.pool fun id' => Nat.le_add_right _ _
  | isOlderThan id tNowInSeconds ulMaxTTLSession => exact hsame
  | updateSocketStatus =>
    show TokensOnce (s.shared.updateSocketStatus c) (Function.update s.phase t (s.phase t))
    rcases updateSocketStatus_cases c s.shared with hr | ⟨id, hid, hr | hr | hr⟩
    · rw [hr]
      exact hsame
    · rw [hr]
      exact h.stay (h.pool.unpooled id) (tokens_signalled h.pool hid)
    · rw [hr]
      exact h.stay (h.pool.unpooled id) (tokens_unpooled_le _ id)
    · rw [hr]
      exact h.stay ((h.pool.unpooled id).pooled id) (tokens_unpooled_pooled h.pool hid)
  | endHandling => exact h.move h.pool fun id => Nat.le_add_right _ _
  | time => exact hsame
  | outcome => exact hsame
  | number => exact hsame

theorem invariant : connectionDiscipline.Invariant ConnectionOp.exec
    (TokensOnce (T := T)) ConnectionState.KeepsApart :=
  fun _ _ _ _ h hallowed hmeets => h.call hallowed hmeets

end TokensOnce

/-! ### Every run -/

namespace ConnectionState

variable {T : Type} [DecidableEq T]

/-- **One thread for a connection**: after every run in which the threads keep their sessions
apart, a session that has been taken out of the sockets pool, or accepted, is not in the pool
before its response is finished or it is released, and at most one thread works for it. -/
theorem workedAlone_run {cfg : ProcessorConfiguration} {s : ConnectionState T}
    {as : List (Action ConnectionTask ConnectionChoice T)}
    (hapart : Transition.Always (Threads.step (connectionTraffic cfg))
      (fun s a _ => Discipline.Meets KeepsApart s a) (initial T cfg) as)
    (hrun : Transition.run (Threads.step (connectionTraffic cfg)) (initial T cfg) as = some s)
    (id : Nat) : s.WorkedAlone id := by
  have htokens : TokensOnce s.shared s.phase :=
    TokensOnce.invariant.run (ConnectionTask.endsIdle_body cfg) (kept_initial cfg)
      (TokensOnce.initial cfg) hapart hrun
  exact htokens.workedAlone id

/-- A processor accepts a connection and reads its request. -/
def reading (requestRead : RequestRead) : List (Action ConnectionTask ConnectionChoice Unit) :=
  [.start () .connectionToAccept, .call () working, .call () working, .call () working,
    .call () { working with requestRead := requestRead }]

theorem workedAlone_reading :
    ∃ s : ConnectionState Unit, Transition.run (Threads.step (connectionTraffic oneSession))
        (initial Unit oneSession) (reading .complete) = some s ∧ s.InHands 0 ∧ s.WorkedAlone 0 := by
  have heval : (Transition.run (Threads.step (connectionTraffic oneSession))
      (initial Unit oneSession) (reading .complete)).map (fun s => ConnectionState.phase s ())
      = some (.handling ⟨0, 1, some 0⟩ true) := by
    decide +kernel
  obtain ⟨s, hrun, hphase⟩ := Option.map_eq_some_iff.mp heval
  refine ⟨s, hrun, Or.inr (Or.inr ⟨(), ?_⟩), workedAlone_run ?_ hrun 0⟩
  · rw [hphase]
    exact rfl
  · refine .cons rfl trivial ?_
    refine .cons rfl (Discipline.meets_call rfl trivial) ?_
    refine .cons rfl (Discipline.meets_call rfl trivial) ?_
    refine .cons rfl (Discipline.meets_call rfl trivial) ?_
    refine .cons rfl (Discipline.meets_call rfl ?_) trivial
    exact fun _ h => RequestRead.noConfusion h

/-- The body of a request does not come in time: the socket is put in the sockets pool, and the
request is answered all the same. -/
theorem not_workedAlone_reading :
    ∃ s : ConnectionState Unit, Transition.run (Threads.step (connectionTraffic oneSession))
        (initial Unit oneSession) (reading .bodyTimeoutExpired) = some s ∧ ¬ s.WorkedAlone 0 := by
  have heval : (Transition.run (Threads.step (connectionTraffic oneSession))
      (initial Unit oneSession) (reading .bodyTimeoutExpired)).map
      (fun s => (ConnectionState.phase s (), s.shared.socketsInfo))
      = some (.handling ⟨0, 1, some 0⟩ true, [(3, 0)]) := by
    decide +kernel
  obtain ⟨s, hrun, hs⟩ := Option.map_eq_some_iff.mp heval
  obtain ⟨hphase, hpool⟩ := Prod.mk.inj hs
  refine ⟨s, hrun, fun h => h.notRegistered (Or.inr (Or.inr ⟨(), ?_⟩)) ⟨(3, 0), ?_, rfl⟩⟩
  · rw [hphase]
    exact rfl
  · rw [hpool]
    exact List.mem_cons_self

end ConnectionState

end CatraLibraries
