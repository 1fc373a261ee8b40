/-
# The queue of the requests

`Effect` says what a step of the manager does to its members.  From it comes what holds of the two
lists of records in every reachable state (`InOrder`): each record is in one of them, once; the URIs
that wait are all different; what was queued is what was dispatched and then what waits; and a thread
runs only at an index that the dispatcher may have reached.
-/
import CatraLibraries.HTTPCacheManager.HTTPCacheManager
import Mathlib.Data.List.Nodup

namespace CatraLibraries

open Memory CString Paths WebUtility Transition
open CacheSaveHttpGetThread (Files Download DownloadEvent completedPath)

namespace SaveHttpGetThread

variable {thread : SaveHttpGetThread} {request : HTTPRequest}

/-- A thread that does not run is not started by `finish`. -/
theorem not_running_finish (h : ¬thread.Running) (attrDestroy : Bool) :
    ¬(thread.finish attrDestroy).Running := by
  unfold finish
  split
  · exact fun h => h.elim PThreadStatus.noConfusion PThreadStatus.noConfusion
  · exact h

theorem not_running_httpGetInit (h : ¬thread.Running) (request : HTTPRequest) (attrInit : Bool) :
    ¬(thread.httpGetInit request attrInit).2.Running := by
  unfold httpGetInit
  split
  · exact h
  · dsimp only
    split
    · exact h
    · split
      · exact h
      · exact fun h => h.elim PThreadStatus.noConfusion PThreadStatus.noConfusion

theorem not_running_init (h : ¬thread.Running) (request : HTTPRequest) (attrDestroy attrInit : Bool) :
    ¬(thread.init request attrDestroy attrInit).2.Running := by
  have hfinish : ¬(if thread.sStatus then thread.finish attrDestroy else thread).Running := by
    split
    · exact not_running_finish h attrDestroy
    · exact h
  unfold init
  dsimp only
  split
  · exact hfinish
  · have hdestination : ¬SaveHttpGetThread.Running
        { (if thread.sStatus then thread.finish attrDestroy else thread) with
          bDestinationPathName := request.bHTTPLocalPathName } := hfinish
    exact not_running_httpGetInit hdestination request attrInit

theorem httpGetInit_ok {attrInit : Bool} (h : (thread.httpGetInit request attrInit).1 = true) :
    (thread.httpGetInit request attrInit).2.resource = request.resource ∧
      (thread.httpGetInit request attrInit).2.bDestinationPathName =
        thread.bDestinationPathName := by
  unfold httpGetInit at h ⊢
  split at h
  · cases h
  · next hserver =>
    rw [if_neg hserver]
    dsimp only at h ⊢
    split at h
    · cases h
    · next huri =>
      rw [if_neg huri]
      split at h
      · cases h
      · next hstatus =>
        rw [if_neg hstatus]
        exact ⟨rfl, rfl⟩

/-- **A thread that was initialized** has what its request asks for. -/
theorem init_ok {attrDestroy attrInit : Bool}
    (h : (thread.init request attrDestroy attrInit).1 = true) :
    (thread.init request attrDestroy attrInit).2.resource = request.resource ∧
      (thread.init request attrDestroy attrInit).2.bDestinationPathName =
        request.bHTTPLocalPathName := by
  unfold init at h ⊢
  dsimp only at h ⊢
  split at h
  · cases h
  · next hpath =>
    rw [if_neg hpath]
    exact httpGetInit_ok h

variable {setDetachState create bContentLengthInitialized : Bool} {body : List UInt8}

/-- `start` leaves what the thread is to download. -/
theorem start_keeps (thread : SaveHttpGetThread) (setDetachState create : Bool) (body : List UInt8)
    (bContentLengthInitialized : Bool) :
    (thread.start setDetachState create body bContentLengthInitialized).2.resource =
        thread.resource ∧
      (thread.start setDetachState create body bContentLengthInitialized).2.bDestinationPathName =
        thread.bDestinationPathName := by
  unfold start
  split
  · exact ⟨rfl, rfl⟩
  · split
    · exact ⟨rfl, rfl⟩
    · split
      · exact ⟨rfl, rfl⟩
      · exact ⟨rfl, rfl⟩

/-- **A thread that was started** runs, from the beginning of its download. -/
theorem start_ok
    (h : (thread.start setDetachState create body bContentLengthInitialized).1 = true) :
    (thread.start setDetachState create body bContentLengthInitialized).2.Running ∧
      (thread.start setDetachState create body bContentLengthInitialized).2.download = .start := by
  unfold start at h ⊢
  split at h
  · cases h
  · next hstatus =>
    rw [if_neg hstatus]
    split at h
    · cases h
    · next hattr =>
      rw [if_neg hattr]
      split at h
      · cases h
      · next hcreate =>
        rw [if_neg hcreate]
        exact ⟨Or.inl rfl, rfl⟩

/-- A thread is started only when both calls succeed. -/
theorem outcomes_of_start
    (h : (thread.start setDetachState create body bContentLengthInitialized).1 = true) :
    setDetachState = true ∧ create = true := by
  unfold start at h
  split at h
  · cases h
  · split at h
    · cases h
    · next hattr =>
      split at h
      · cases h
      · next hcreate => exact ⟨Bool.not_eq_false _ ▸ hattr, Bool.not_eq_false _ ▸ hcreate⟩

theorem not_running_start (hidle : ¬thread.Running)
    (h : (thread.start setDetachState create body bContentLengthInitialized).1 = false) :
    ¬(thread.start setDetachState create body bContentLengthInitialized).2.Running := by
  unfold start at h ⊢
  split at h
  · next hstatus =>
    rw [if_pos hstatus]
    exact hidle
  · next hstatus =>
    rw [if_neg hstatus]
    split at h
    · next hattr =>
      rw [if_pos hattr]
      exact hidle
    · next hattr =>
      rw [if_neg hattr]
      split at h
      · next hcreate =>
        rw [if_pos hcreate]
        exact fun h => h.elim PThreadStatus.noConfusion PThreadStatus.noConfusion
      · cases h

end SaveHttpGetThread

namespace HTTPCacheManager

/-- Where the dispatcher goes in a round. -/
inductive Turns (settings : Settings) (m : HTTPCacheManager) : Dispatcher → Prop
  | sleeping : Turns settings m .sleeping
  | round : Turns settings m (.scanning 0)
  | next (i : ℕ) (hdispatcher : m.dispatcher = .scanning i)
      (hindex : i < settings.ulMaxConcurrentHTTPRequest) : Turns settings m (.scanning (i + 1))
  | found (i : ℕ) (hdispatcher : m.dispatcher = .scanning i)
      (hindex : i ≠ settings.ulMaxConcurrentHTTPRequest)
      (hidle : i < settings.ulMaxConcurrentHTTPRequest → ¬(m.pshgtSaveHttpGetThread i).Running) :
      Turns settings m (.initializing i)

/-- **What a step does.** -/
inductive Effect (settings : Settings) (m : HTTPCacheManager) : Action → HTTPCacheManager → Prop
  | answers (a : Action) : Effect settings m a m
  | misses (a : Action) (k : ℕ) (client : CacheClient)
      (hpath : client.pbHTTPLocalPathName =
        bCacheDirectory settings.pCacheDirectory ++ client.url.bRelativePathWithoutParameters) :
      Effect settings m a { m with clients := Function.update m.clients k (some client) }
  | leaves (a : Action) (k : ℕ) :
      Effect settings m a { m with clients := Function.update m.clients k none }
  | enqueues (k : ℕ) (saveHTTPRequestKey : Bool) (client : CacheClient) (i : ℕ) (available : List ℕ)
      (hclient : m.clients k = some client) (hsleeping : m.dispatcher = .sleeping)
      (hremembers : ¬m.Remembers settings client.url.bRelativePathWithoutParameters)
      (hwaiting : ¬m.Waiting client.url.bRelativePathWithoutParameters)
      (havailable : m.vAvailableHTTPRequests = i :: available) :
      Effect settings m (.getContent k saveHTTPRequestKey)
        { m.enqueue client i available with clients := Function.update m.clients k none }
  | turns (a : Action) (dispatcher : Dispatcher) (hturns : Turns settings m dispatcher) :
      Effect settings m a { m with dispatcher := dispatcher }
  | inits (a : Action) (i r : ℕ) (waiting : List ℕ) (attrDestroy attrInit : Bool)
      (hdispatcher : m.dispatcher = .initializing i)
      (hwaiting : m.vWaitingQueueHTTPRequests = r :: waiting) :
      Effect settings m a (m.initThread i (m.httpRequests r) attrDestroy attrInit)
  | startFails (a : Action) (i r : ℕ) (waiting : List ℕ) (setDetachState create : Bool) (body : List UInt8)
      (bContentLengthInitialized : Bool) (hdispatcher : m.dispatcher = .starting i)
      (hwaiting : m.vWaitingQueueHTTPRequests = r :: waiting)
      (hfails : ((m.pshgtSaveHttpGetThread i).start setDetachState create body
        bContentLengthInitialized).1 = false) :
      Effect settings m a (m.startFails i ((m.pshgtSaveHttpGetThread i).start setDetachState create
        body bContentLengthInitialized).2)
  | dispatches (i r : ℕ) (waiting : List ℕ) (setDetachState create : Bool) (body : List UInt8)
      (bContentLengthInitialized : Bool) (hdispatcher : m.dispatcher = .starting i)
      (hwaiting : m.vWaitingQueueHTTPRequests = r :: waiting)
      (hstarts : ((m.pshgtSaveHttpGetThread i).start setDetachState create body
        bContentLengthInitialized).1 = true) :
      Effect settings m (.start setDetachState create body bContentLengthInitialized)
        (m.dispatch r waiting i ((m.pshgtSaveHttpGetThread i).start setDetachState
        create body bContentLengthInitialized).2)
  | downloads (i : ℕ) (event : DownloadEvent) (m' : HTTPCacheManager)
      (hrunning : (m.pshgtSaveHttpGetThread i).Running)
      (hstep : m.downloadStep settings i event = some m') : Effect settings m (.download i event) m'
  | runEnds (a : Action) (i : ℕ) (hrunning : (m.pshgtSaveHttpGetThread i).Running) :
      Effect settings m a (m.runEnds i)

variable {settings : Settings} {m m' : HTTPCacheManager} {a : Action}

/-- A client that does not find its path in the cache. -/
theorem path_of_lookUp {files : Files (List Name)} {pbHTTPRequest : CStr}
    {createDirectory isFileExisting bAlreadyInCache : Bool} {path : List UInt8} {url : ParsedURL}
    (h : lookUp settings files pbHTTPRequest createDirectory isFileExisting =
      .ok (.ok (path, bAlreadyInCache)))
    (hurl : parseURL pbHTTPRequest maxHostNameLength = .ok (.ok url)) :
    path = bCacheDirectory settings.pCacheDirectory ++ url.bRelativePathWithoutParameters ∧
      bAlreadyInCache = (files (settings.marker path)).isSome := by
  unfold lookUp at h
  cases hpath : getLocalPathName (bCacheDirectory settings.pCacheDirectory) (fun _ => createDirectory)
      pbHTTPRequest with
  | error e =>
    rw [hpath] at h
    cases h
  | ok result =>
    rw [hpath, ok_bind] at h
    cases result with
    | error e => cases h
    | ok path' =>
      dsimp only at h
      split at h
      · cases h
        obtain ⟨url', hparts, rfl⟩ := getLocalPathName_ok hpath
        rw [parseURL_eq, hparts] at hurl
        cases hurl
        exact ⟨rfl, rfl⟩
      · cases h

theorem effect_of_getContent {k : ℕ} {client : CacheClient} (hclient : m.clients k = some client)
    (hsleeping : m.dispatcher = .sleeping) (saveHTTPRequestKey : Bool) :
    Effect settings m (.getContent k saveHTTPRequestKey)
      { (m.getContent settings client saveHTTPRequestKey).2 with
        clients := Function.update m.clients k none } := by
  unfold getContent
  dsimp only
  split
  · exact .leaves _ k
  · next hremembers =>
    split
    · exact .leaves _ k
    · next hwaiting =>
      split
      · exact .leaves _ k
      · next i available havailable =>
        exact .enqueues k saveHTTPRequestKey client i available hclient hsleeping hremembers hwaiting havailable

theorem turns_of_scan {i : ℕ} (hdispatcher : m.dispatcher = .scanning i) :
    Turns settings m (m.scan settings i).dispatcher := by
  unfold scan
  dsimp only
  split
  · exact .sleeping
  · split
    · next hrunning => exact .next i hdispatcher hrunning.1
    · next hrunning =>
      split
      · exact .sleeping
      · next hindex =>
        exact .found i hdispatcher hindex fun hlt hrun => hrunning ⟨hlt, hrun⟩

theorem step_effect (h : step settings m a = some m') : Effect settings m a m' := by
  cases a with
  | lookUp k pbHTTPRequest createDirectory isFileExisting =>
    unfold step at h
    dsimp only at h
    split at h
    · next hlook hurl =>
      cases h
      exact .misses _ k _ (path_of_lookUp hlook hurl).1
    · cases h
      exact .answers _
    · cases h
  | getContent k saveHTTPRequestKey =>
    unfold step at h
    dsimp only at h
    split at h
    · next hclient hsleeping =>
      cases h
      exact effect_of_getContent hclient hsleeping saveHTTPRequestKey
    · cases h
  | lock =>
    unfold step at h
    dsimp only at h
    split at h
    · cases h
      refine .turns _ _ ?_
      split
      · exact .sleeping
      · exact .round
    · cases h
  | scan =>
    unfold step at h
    dsimp only at h
    split at h
    · next i hdispatcher =>
      cases h
      exact .turns _ _ (turns_of_scan hdispatcher)
    · cases h
  | init attrDestroy attrInit =>
    unfold step at h
    dsimp only at h
    split at h
    · next i r waiting hdispatcher hwaiting =>
      cases h
      exact .inits _ i r waiting attrDestroy attrInit hdispatcher hwaiting
    · cases h
  | start setDetachState create body bContentLengthInitialized =>
    unfold step at h
    dsimp only at h
    split at h
    · next i r waiting hdispatcher hwaiting =>
      split at h
      · next hstarts =>
        cases h
        exact .dispatches i r waiting setDetachState create body bContentLengthInitialized
          hdispatcher hwaiting hstarts
      · next hfails =>
        cases h
        exact .startFails _ i r waiting setDetachState create body bContentLengthInitialized
          hdispatcher hwaiting (Bool.not_eq_true _ ▸ hfails)
    · cases h
  | download i event =>
    unfold step at h
    dsimp only at h
    split at h
    · next hrunning => exact .downloads i event m' hrunning h
    · cases h
  | runEnds i =>
    unfold step at h
    dsimp only at h
    split at h
    · next hends =>
      cases h
      exact .runEnds _ i hends.1
    · cases h

/-! ### The order of the records -/

/-- The URI of a record. -/
def uri (m : HTTPCacheManager) (i : ℕ) : List UInt8 := (m.httpRequests i).bURI

/-- **The records and the threads in order.** -/
structure InOrder (settings : Settings) (m : HTTPCacheManager) : Prop where
  records : (m.vAvailableHTTPRequests ++ m.vWaitingQueueHTTPRequests).Perm
    (List.range settings.ulHTTPRequestsQueueSize)
  uris : (m.vWaitingQueueHTTPRequests.map m.uri).Nodup
  queue : m.queued = m.dispatched ++ m.vWaitingQueueHTTPRequests.map m.httpRequests
  running : ∀ i, (m.pshgtSaveHttpGetThread i).Running → i < settings.ulMaxConcurrentHTTPRequest
  scanning : ∀ i, m.dispatcher = .scanning i → i ≤ settings.ulMaxConcurrentHTTPRequest
  idle : ∀ i, m.dispatcher = .initializing i ∨ m.dispatcher = .starting i →
    i < settings.ulMaxConcurrentHTTPRequest ∧ ¬(m.pshgtSaveHttpGetThread i).Running

/-- The queue of the requests is the same in two states. -/
structure SameQueue (m m' : HTTPCacheManager) : Prop where
  httpRequests : m'.httpRequests = m.httpRequests
  available : m'.vAvailableHTTPRequests = m.vAvailableHTTPRequests
  waiting : m'.vWaitingQueueHTTPRequests = m.vWaitingQueueHTTPRequests
  queued : m'.queued = m.queued
  dispatched : m'.dispatched = m.dispatched

/-- A step of a download changes what its thread is at, the files, and what was received. -/
theorem downloadStep_eq {i : ℕ} {event : DownloadEvent} (h : m.downloadStep settings i event = some m') :
    ∃ download files,
      CacheSaveHttpGetThread.step (m.pshgtSaveHttpGetThread i).body
          (m.pshgtSaveHttpGetThread i).bContentLengthInitialized
          (settings.data (m.pshgtSaveHttpGetThread i).bDestinationPathName)
          (settings.marker (m.pshgtSaveHttpGetThread i).bDestinationPathName)
          ((m.pshgtSaveHttpGetThread i).download, m.files) event = some (download, files) ∧
      m' = { m with
        pshgtSaveHttpGetThread := Function.update m.pshgtSaveHttpGetThread i
          { m.pshgtSaveHttpGetThread i with download := download }
        files := files
        received :=
          if download.phase = .touching then
            m.received ++ [((m.pshgtSaveHttpGetThread i).resource, (m.pshgtSaveHttpGetThread i).body)]
          else m.received } := by
  unfold downloadStep at h
  obtain ⟨⟨download, files⟩, hstep, rfl⟩ := Option.map_eq_some_iff.mp h
  exact ⟨download, files, hstep, rfl⟩

theorem inOrder_initial (settings : Settings) (files : Files (List Name)) :
    InOrder settings (initial settings files) where
  records := List.Perm.of_eq (List.append_nil _)
  uris := List.nodup_nil
  queue := rfl
  running := by
    rintro i (h | h)
    · cases h
    · cases h
  scanning := by
    intro i h
    cases h
  idle := by
    rintro i (h | h)
    · cases h
    · cases h

namespace InOrder

/-- Where the queue stays the same, it is enough to look at the threads and the dispatcher. -/
theorem of_sameQueue (h : InOrder settings m) (hsame : SameQueue m m')
    (hrunning : ∀ i, (m'.pshgtSaveHttpGetThread i).Running →
      i < settings.ulMaxConcurrentHTTPRequest)
    (hscanning : ∀ i, m'.dispatcher = .scanning i → i ≤ settings.ulMaxConcurrentHTTPRequest)
    (hidle : ∀ i, m'.dispatcher = .initializing i ∨ m'.dispatcher = .starting i →
      i < settings.ulMaxConcurrentHTTPRequest ∧ ¬(m'.pshgtSaveHttpGetThread i).Running) :
    InOrder settings m' where
  records := by
    rw [hsame.available, hsame.waiting]
    exact h.records
  uris := by
    have huri : m'.uri = m.uri := by
      funext i
      unfold uri
      rw [hsame.httpRequests]
    rw [hsame.waiting, huri]
    exact h.uris
  queue := by
    rw [hsame.queued, hsame.dispatched, hsame.waiting, hsame.httpRequests]
    exact h.queue
  running := hrunning
  scanning := hscanning
  idle := hidle

theorem nodup (h : InOrder settings m) :
    (m.vAvailableHTTPRequests ++ m.vWaitingQueueHTTPRequests).Nodup :=
  h.records.nodup_iff.mpr List.nodup_range

/-- A new request goes to the end of the queue. -/
theorem enqueue (h : InOrder settings m) {client : CacheClient} {i : ℕ} {available : List ℕ}
    (hwaiting : ¬m.Waiting client.url.bRelativePathWithoutParameters)
    (havailable : m.vAvailableHTTPRequests = i :: available) :
    InOrder settings (m.enqueue client i available) where
  records := by
    have hrecords := h.records
    rw [havailable, List.cons_append] at hrecords
    refine List.Perm.trans ?_ hrecords
    show (available ++ (m.vWaitingQueueHTTPRequests ++ [i])).Perm _
    rw [← List.append_assoc]
    exact List.perm_append_singleton i _
  uris := by
    have hnot := h.nodup
    rw [havailable, List.cons_append, List.nodup_cons, List.mem_append, not_or] at hnot
    have huri : ∀ j ∈ m.vWaitingQueueHTTPRequests, (m.enqueue client i available).uri j = m.uri j := by
      intro j hj
      have hne : j ≠ i := by
        rintro rfl
        exact hnot.1.2 hj
      unfold uri HTTPCacheManager.enqueue
      dsimp only
      rw [Function.update_of_ne hne]
    have hnew : (m.enqueue client i available).uri i = client.url.bRelativePathWithoutParameters := by
      unfold uri HTTPCacheManager.enqueue
      dsimp only
      rw [Function.update_self]
      rfl
    show ((m.vWaitingQueueHTTPRequests ++ [i]).map (m.enqueue client i available).uri).Nodup
    rw [List.map_append, List.map_congr_left huri, List.map_singleton, hnew]
    refine List.Nodup.append h.uris (List.nodup_singleton _) ?_
    intro u hu hclient
    rw [List.mem_singleton] at hclient
    obtain ⟨j, hj, rfl⟩ := List.mem_map.mp hu
    exact hwaiting ⟨j, hj, hclient⟩
  queue := by
    have hnot := h.nodup
    rw [havailable, List.cons_append, List.nodup_cons, List.mem_append, not_or] at hnot
    have hold : ∀ j ∈ m.vWaitingQueueHTTPRequests,
        Function.update m.httpRequests i client.httpRequest j = m.httpRequests j := by
      intro j hj
      refine Function.update_of_ne ?_ _ _
      rintro rfl
      exact hnot.1.2 hj
    show m.queued ++ [client.httpRequest] = m.dispatched ++
      (m.vWaitingQueueHTTPRequests ++ [i]).map (Function.update m.httpRequests i client.httpRequest)
    rw [List.map_append, List.map_congr_left hold, List.map_singleton, Function.update_self, h.queue,
      List.append_assoc]
  running := h.running
  scanning := h.scanning
  idle := h.idle

/-- The first request is dispatched. -/
theorem dispatch (h : InOrder settings m) {i r : ℕ} {waiting : List ℕ} {thread : SaveHttpGetThread}
    (hdispatcher : m.dispatcher = .starting i)
    (hwaiting : m.vWaitingQueueHTTPRequests = r :: waiting) :
    InOrder settings (m.dispatch r waiting i thread) where
  records := by
    have hrecords := h.records
    rw [hwaiting] at hrecords
    show ((m.vAvailableHTTPRequests ++ [r]) ++ waiting).Perm _
    rw [List.append_assoc, List.singleton_append]
    exact hrecords
  uris := by
    have huris := h.uris
    rw [hwaiting, List.map_cons, List.nodup_cons] at huris
    exact huris.2
  queue := by
    have hqueue := h.queue
    rw [hwaiting, List.map_cons] at hqueue
    show m.queued = (m.dispatched ++ [m.httpRequests r]) ++ waiting.map m.httpRequests
    rw [List.append_assoc, List.singleton_append]
    exact hqueue
  running := by
    intro j hj
    by_cases hij : j = i
    · exact hij ▸ (h.idle i (Or.inr hdispatcher)).1
    · refine h.running j ?_
      unfold HTTPCacheManager.dispatch at hj
      dsimp only at hj
      rw [Function.update_of_ne hij] at hj
      exact hj
  scanning := by
    intro j hj
    cases hj
    exact (h.idle i (Or.inr hdispatcher)).1
  idle := by
    rintro j (hj | hj)
    · cases hj
    · cases hj

theorem turn (h : InOrder settings m) {dispatcher : Dispatcher}
    (hturns : Turns settings m dispatcher) :
    InOrder settings { m with dispatcher := dispatcher } := by
  refine h.of_sameQueue ⟨rfl, rfl, rfl, rfl, rfl⟩ h.running ?_ ?_
  · rintro j rfl
    cases hturns with
    | round => exact Nat.zero_le _
    | next i hdispatcher hindex => exact hindex
  · rintro j (rfl | rfl)
    · cases hturns with
      | found i hdispatcher hindex hidle =>
        have hlt := Nat.lt_of_le_of_ne (h.scanning _ hdispatcher) hindex
        exact ⟨hlt, hidle hlt⟩
    · cases hturns

/-- A thread that does not run afterwards is changed, and the dispatcher is where it was or goes on
to `dispatcher`. -/
theorem change (h : InOrder settings m) (i : ℕ) {thread : SaveHttpGetThread}
    (hthread : ¬thread.Running) {dispatcher : Dispatcher}
    (hdispatcher : dispatcher = m.dispatcher ∨ dispatcher = .sleeping ∨
      (dispatcher = .starting i ∧ i < settings.ulMaxConcurrentHTTPRequest)) :
    InOrder settings { m with
      pshgtSaveHttpGetThread := Function.update m.pshgtSaveHttpGetThread i thread
      dispatcher := dispatcher } := by
  have hrunning : ∀ j, (Function.update m.pshgtSaveHttpGetThread i thread j).Running →
      (m.pshgtSaveHttpGetThread j).Running := by
    intro j hj
    by_cases hij : j = i
    · rw [hij, Function.update_self] at hj
      exact absurd hj hthread
    · rw [Function.update_of_ne hij] at hj
      exact hj
  refine h.of_sameQueue ⟨rfl, rfl, rfl, rfl, rfl⟩ (fun j hj => h.running j (hrunning j hj)) ?_ ?_
  · rintro j rfl
    rcases hdispatcher with hsame | hsleeping | hstarting
    · exact h.scanning j hsame.symm
    · cases hsleeping
    · cases hstarting.1
  · intro j hj
    dsimp only at hj ⊢
    rcases hdispatcher with hsame | hsleeping | ⟨hstarting, hlt⟩
    · rw [hsame] at hj
      have hidle := h.idle j hj
      exact ⟨hidle.1, fun hrun => hidle.2 (hrunning j hrun)⟩
    · rw [hsleeping] at hj
      rcases hj with hj | hj
      · cases hj
      · cases hj
    · rw [hstarting] at hj
      rcases hj with hj | hj
      · cases hj
      · cases hj
        rw [Function.update_self]
        exact ⟨hlt, hthread⟩

/-- A step of a download does not start or end a thread. -/
theorem download (h : InOrder settings m) (i : ℕ) (download : Download)
    (files : Files (List Name)) (received : List (ParsedURL × List UInt8)) :
    InOrder settings { m with
      pshgtSaveHttpGetThread := Function.update m.pshgtSaveHttpGetThread i
        { m.pshgtSaveHttpGetThread i with download := download }
      files := files
      received := received } := by
  have hrunning : ∀ j, (Function.update m.pshgtSaveHttpGetThread i
      { m.pshgtSaveHttpGetThread i with download := download } j).Running ↔
      (m.pshgtSaveHttpGetThread j).Running := by
    intro j
    by_cases hij : j = i
    · subst hij
      rw [Function.update_self]
      exact Iff.rfl
    · rw [Function.update_of_ne hij]
  refine h.of_sameQueue ⟨rfl, rfl, rfl, rfl, rfl⟩
    (fun j hj => h.running j ((hrunning j).mp hj)) h.scanning ?_
  intro j hj
  have hidle := h.idle j hj
  exact ⟨hidle.1, fun hrun => hidle.2 ((hrunning j).mp hrun)⟩

/-- **A step keeps the order.** -/
theorem step (h : InOrder settings m) (hstep : step settings m a = some m') :
    InOrder settings m' := by
  cases step_effect hstep with
  | answers => exact h
  | misses _ k client hpath =>
    exact h.of_sameQueue ⟨rfl, rfl, rfl, rfl, rfl⟩ h.running h.scanning h.idle
  | leaves _ k => exact h.of_sameQueue ⟨rfl, rfl, rfl, rfl, rfl⟩ h.running h.scanning h.idle
  | enqueues k _ client i available hclient hsleeping hremembers hwaiting havailable =>
    have henqueue := h.enqueue hwaiting havailable
    exact henqueue.of_sameQueue ⟨rfl, rfl, rfl, rfl, rfl⟩ henqueue.running henqueue.scanning
      henqueue.idle
  | turns _ dispatcher hturns => exact h.turn hturns
  | inits _ i r waiting attrDestroy attrInit hdispatcher hwaiting =>
    obtain ⟨hlt, hidle⟩ := h.idle i (Or.inl hdispatcher)
    refine h.change i (SaveHttpGetThread.not_running_init hidle _ _ _) ?_
    split
    · exact Or.inr (Or.inr ⟨rfl, hlt⟩)
    · exact Or.inr (Or.inl rfl)
  | startFails _ i r waiting setDetachState create body bContentLengthInitialized hdispatcher hwaiting
      hfails =>
    obtain ⟨hlt, hidle⟩ := h.idle i (Or.inr hdispatcher)
    exact h.change i (SaveHttpGetThread.not_running_start hidle hfails) (Or.inr (Or.inl rfl))
  | dispatches i r waiting setDetachState create body bContentLengthInitialized hdispatcher hwaiting
      hstarts =>
    exact h.dispatch hdispatcher hwaiting
  | downloads i event _ hrunning hstep =>
    obtain ⟨download, files, -, rfl⟩ := downloadStep_eq hstep
    exact h.download i download files _
  | runEnds _ i hrunning =>
    have hended : ¬SaveHttpGetThread.Running { m.pshgtSaveHttpGetThread i with
        stPThreadStatus := .initializedAgainAfterRunning } :=
      fun h => h.elim PThreadStatus.noConfusion PThreadStatus.noConfusion
    exact h.change i hended (Or.inl rfl)

/-- **A run keeps the order.** -/
theorem run {files : Files (List Name)} {actions : List Action}
    (hrun : run (HTTPCacheManager.step settings) (initial settings files) actions = some m) :
    InOrder settings m :=
  invariant (fun _ _ _ hs _ hstep => hs.step hstep) (inOrder_initial settings files)
    (always_of_forall (fun _ _ _ => trivial) _ _) hrun

end InOrder

/-- Two records, one thread, and the cache in "/c". -/
def small : Settings := ⟨2, 1, ⟨[47, 99], by decide⟩, []⟩

/-- The request "http://h:1/a". -/
def requestOfA : CStr := ⟨[104, 116, 116, 112, 58, 47, 47, 104, 58, 49, 47, 97], by decide⟩

/-- A client asks for it, and the download of one byte is started. -/
def startOfA : List Action :=
  [.lookUp 0 requestOfA true true, .getContent 0 true, .lock, .scan, .init true true,
    .start true true [1] true]

end HTTPCacheManager

end CatraLibraries
