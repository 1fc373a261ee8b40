/-
# What the threads download

A thread that runs downloads a resource that was dispatched, to the local path of that resource.
No two threads download the same URI at a time, and its URI does not wait any more: a URI is queued
only when no thread remembers it, and a record leaves the queue when its thread is started.  So the
threads are started for the requests of the clients in their order (`requestQueue`).
-/
import CatraLibraries.HTTPCacheManager.RequestQueue
import Mathlib.Data.Set.Card

namespace CatraLibraries

open Memory CString Paths WebUtility Transition
open CacheSaveHttpGetThread (Files Download DownloadEvent completedPath)

/-- What a request is to download, and where to. -/
def HTTPRequest.target (request : HTTPRequest) : ParsedURL × List UInt8 :=
  (request.resource, request.bHTTPLocalPathName)

/-- What a thread downloads, and where to. -/
def SaveHttpGetThread.target (thread : SaveHttpGetThread) : ParsedURL × List UInt8 :=
  (thread.resource, thread.bDestinationPathName)

namespace HTTPCacheManager

/-- The local path of a resource. -/
def Settings.path (settings : Settings) (resource : ParsedURL) : List UInt8 :=
  bCacheDirectory settings.pCacheDirectory ++ resource.bRelativePathWithoutParameters

/-- The resources that were dispatched. -/
def resources (m : HTTPCacheManager) : List ParsedURL := m.dispatched.map HTTPRequest.resource

/-- A thread has a resource and its local path. -/
structure Loads (settings : Settings) (resource : ParsedURL) (thread : SaveHttpGetThread) : Prop where
  loads : thread.resource = resource
  path : thread.bDestinationPathName = settings.path resource

/-- **The threads and their resources.** -/
structure Threads (settings : Settings) (m : HTTPCacheManager) : Prop where
  order : InOrder settings m
  paths : ∀ r ∈ m.queued, r.bHTTPLocalPathName = settings.path r.resource
  clients : ∀ k client, m.clients k = some client →
    client.pbHTTPLocalPathName = settings.path client.url
  starting : ∀ i r waiting, m.dispatcher = .starting i → m.vWaitingQueueHTTPRequests = r :: waiting →
    Loads settings (m.httpRequests r).resource (m.pshgtSaveHttpGetThread i)
  running : ∀ i, (m.pshgtSaveHttpGetThread i).Running → ∃ resource ∈ m.resources,
    Loads settings resource (m.pshgtSaveHttpGetThread i)
  unqueued : ∀ i, (m.pshgtSaveHttpGetThread i).Running →
    ¬m.Waiting (m.pshgtSaveHttpGetThread i).getInputDetails
  alone : ∀ i j, (m.pshgtSaveHttpGetThread i).Running → (m.pshgtSaveHttpGetThread j).Running →
    (m.pshgtSaveHttpGetThread i).getInputDetails = (m.pshgtSaveHttpGetThread j).getInputDetails →
    i = j

variable {settings : Settings} {m m' : HTTPCacheManager} {a : Action}

theorem threads_initial (settings : Settings) (files : Files (List Name)) :
    Threads settings (initial settings files) where
  order := inOrder_initial settings files
  paths := by
    intro r hr
    cases hr
  clients := by
    intro k client h
    cases h
  starting := by
    intro i r waiting h
    cases h
  running := by
    rintro i (h | h)
    · cases h
    · cases h
  unqueued := by
    rintro i (h | h)
    · cases h
    · cases h
  alone := by
    rintro i j (h | h)
    · cases h
    · cases h

namespace Threads

/-- The request of a waiting record has the path of its resource. -/
theorem path_of_waiting (h : Threads settings m) {r : ℕ} (hr : r ∈ m.vWaitingQueueHTTPRequests) :
    (m.httpRequests r).bHTTPLocalPathName = settings.path (m.httpRequests r).resource := by
  refine h.paths _ ?_
  rw [h.order.queue]
  exact List.mem_append_right _ (List.mem_map_of_mem hr)

/-- A thread is changed into one that does not run. -/
theorem change (h : Threads settings m) (i : ℕ) {thread : SaveHttpGetThread}
    (hthread : ¬thread.Running) {dispatcher : Dispatcher}
    (horder : InOrder settings { m with
      pshgtSaveHttpGetThread := Function.update m.pshgtSaveHttpGetThread i thread
      dispatcher := dispatcher })
    (hstarting : ∀ j r waiting, dispatcher = .starting j →
      m.vWaitingQueueHTTPRequests = r :: waiting →
      Loads settings (m.httpRequests r).resource
        (Function.update m.pshgtSaveHttpGetThread i thread j)) :
    Threads settings { m with
      pshgtSaveHttpGetThread := Function.update m.pshgtSaveHttpGetThread i thread
      dispatcher := dispatcher } := by
  have hsame : ∀ j, (Function.update m.pshgtSaveHttpGetThread i thread j).Running →
      Function.update m.pshgtSaveHttpGetThread i thread j = m.pshgtSaveHttpGetThread j := by
    intro j hj
    refine Function.update_of_ne ?_ _ _
    rintro rfl
    rw [Function.update_self] at hj
    exact hthread hj
  refine ⟨horder, h.paths, h.clients, hstarting, ?_, ?_, ?_⟩
  · intro j hj
    have heq := hsame j hj
    dsimp only at hj ⊢
    rw [heq] at hj ⊢
    exact h.running j hj
  · intro j hj
    have heq := hsame j hj
    dsimp only at hj ⊢
    rw [heq] at hj ⊢
    exact h.unqueued j hj
  · intro j k hj hk huri
    have hjeq := hsame j hj
    have hkeq := hsame k hk
    dsimp only at hj hk huri
    rw [hjeq, hkeq] at huri
    rw [hjeq] at hj
    rw [hkeq] at hk
    exact h.alone j k hj hk huri

theorem waiting_of_enqueue {client : CacheClient} {i : ℕ} {available : List ℕ} {bURI : List UInt8}
    (h : Threads settings m) (havailable : m.vAvailableHTTPRequests = i :: available)
    (hwaiting : (m.enqueue client i available).Waiting bURI) :
    m.Waiting bURI ∨ client.url.bRelativePathWithoutParameters = bURI := by
  have hnot := h.order.nodup
  rw [havailable, List.cons_append, List.nodup_cons, List.mem_append, not_or] at hnot
  obtain ⟨j, hj, huri⟩ := hwaiting
  have hj : j ∈ m.vWaitingQueueHTTPRequests ++ [i] := hj
  have huri : (Function.update m.httpRequests i client.httpRequest j).bURI = bURI := huri
  rcases List.mem_append.mp hj with hold | hnew
  · have hne : j ≠ i := by
      rintro rfl
      exact hnot.1.2 hold
    rw [Function.update_of_ne hne] at huri
    exact Or.inl ⟨j, hold, huri⟩
  · obtain rfl := List.mem_singleton.mp hnew
    rw [Function.update_self] at huri
    exact Or.inr huri

/-- A new request is not the one of a thread that runs. -/
theorem enqueue (h : Threads settings m) {client : CacheClient} {i k : ℕ} {available : List ℕ}
    (hclient : m.clients k = some client) (hsleeping : m.dispatcher = .sleeping)
    (hremembers : ¬m.Remembers settings client.url.bRelativePathWithoutParameters)
    (hwaiting : ¬m.Waiting client.url.bRelativePathWithoutParameters)
    (havailable : m.vAvailableHTTPRequests = i :: available) :
    Threads settings { m.enqueue client i available with
      clients := Function.update m.clients k none } where
  order := by
    have horder := h.order.enqueue hwaiting havailable
    exact horder.of_sameQueue ⟨rfl, rfl, rfl, rfl, rfl⟩ horder.running horder.scanning horder.idle
  paths := by
    intro r hr
    rcases List.mem_append.mp hr with hr | hr
    · exact h.paths r hr
    · rw [List.mem_singleton.mp hr]
      exact h.clients k client hclient
  clients := by
    intro j client' hj
    by_cases hjk : j = k
    · subst hjk
      dsimp only at hj
      rw [Function.update_self] at hj
      cases hj
    · dsimp only at hj
      rw [Function.update_of_ne hjk] at hj
      exact h.clients j client' hj
  starting := by
    intro j r waiting hj
    have hj : m.dispatcher = .starting j := hj
    rw [hsleeping] at hj
    cases hj
  running := h.running
  unqueued := by
    intro j hj hwaits
    rcases h.waiting_of_enqueue havailable hwaits with hold | hnew
    · exact h.unqueued j hj hold
    · exact hremembers ⟨j, h.order.running j hj, hnew.symm⟩
  alone := h.alone

/-- The thread of the first request runs. -/
theorem dispatch (h : Threads settings m) {i r : ℕ} {waiting : List ℕ} {thread : SaveHttpGetThread}
    (hdispatcher : m.dispatcher = .starting i)
    (hwaiting : m.vWaitingQueueHTTPRequests = r :: waiting)
    (hloads : Loads settings (m.httpRequests r).resource thread) :
    Threads settings (m.dispatch r waiting i thread) := by
  have huri : thread.getInputDetails = (m.httpRequests r).bURI :=
    congrArg ParsedURL.bRelativePathWithoutParameters hloads.loads
  have hhead : r ∈ m.vWaitingQueueHTTPRequests := hwaiting ▸ List.mem_cons_self
  have hnodup := h.order.uris
  rw [hwaiting, List.map_cons, List.nodup_cons] at hnodup
  -- what still waits has waited before
  have hrest : ∀ bURI, (m.dispatch r waiting i thread).Waiting bURI → m.Waiting bURI := by
    rintro bURI ⟨j, hj, hbURI⟩
    exact ⟨j, hwaiting ▸ List.mem_cons_of_mem r hj, hbURI⟩
  have hthread : ∀ j, j ≠ i →
      (m.dispatch r waiting i thread).pshgtSaveHttpGetThread j = m.pshgtSaveHttpGetThread j :=
    fun j hj => Function.update_of_ne hj _ _
  have hnew : (m.dispatch r waiting i thread).pshgtSaveHttpGetThread i = thread :=
    Function.update_self ..
  have hothers : ∀ j, (m.pshgtSaveHttpGetThread j).Running →
      (m.pshgtSaveHttpGetThread j).getInputDetails ≠ thread.getInputDetails := by
    intro j hj hsame
    exact h.unqueued j hj ⟨r, hhead, huri.symm.trans hsame.symm⟩
  refine ⟨h.order.dispatch hdispatcher hwaiting, h.paths, h.clients, ?_, ?_, ?_, ?_⟩
  · intro j r' waiting' hj
    cases hj
  · intro j hj
    by_cases hij : j = i
    · subst hij
      rw [hnew]
      refine ⟨(m.httpRequests r).resource, ?_, hloads⟩
      exact List.mem_map_of_mem (List.mem_append_right _ (List.mem_singleton_self _))
    · rw [hthread j hij] at hj ⊢
      obtain ⟨resource, hresource, hloads⟩ := h.running j hj
      obtain ⟨r', hr', rfl⟩ := List.mem_map.mp hresource
      exact ⟨_, List.mem_map_of_mem (List.mem_append_left _ hr'), hloads⟩
  · intro j hj hwaits
    by_cases hij : j = i
    · subst hij
      rw [hnew, huri] at hwaits
      obtain ⟨j', hj', hsame⟩ := hwaits
      exact hnodup.1 (List.mem_map.mpr ⟨j', hj', hsame⟩)
    · rw [hthread j hij] at hj hwaits
      exact h.unqueued j hj (hrest _ hwaits)
  · intro j k hj hk hsame
    by_cases hij : j = i
    · by_cases hik : k = i
      · exact hij.trans hik.symm
      · rw [hij, hnew, hthread k hik] at hsame
        rw [hthread k hik] at hk
        exact absurd hsame.symm (hothers k hk)
    · by_cases hik : k = i
      · rw [hik, hnew, hthread j hij] at hsame
        rw [hthread j hij] at hj
        exact absurd hsame (hothers j hj)
      · rw [hthread j hij] at hj hsame
        rw [hthread k hik] at hk hsame
        exact h.alone j k hj hk hsame

/-- A step of a download changes nothing of this. -/
theorem download (h : Threads settings m) (i : ℕ) (download : Download)
    (files : Files (List Name)) (received : List (ParsedURL × List UInt8)) :
    Threads settings { m with
      pshgtSaveHttpGetThread := Function.update m.pshgtSaveHttpGetThread i
        { m.pshgtSaveHttpGetThread i with download := download }
      files := files
      received := received } := by
  have hsame : ∀ j, ∃ download', Function.update m.pshgtSaveHttpGetThread i
      { m.pshgtSaveHttpGetThread i with download := download } j =
      { m.pshgtSaveHttpGetThread j with download := download' } := by
    intro j
    by_cases hij : j = i
    · subst hij
      exact ⟨download, Function.update_self ..⟩
    · exact ⟨_, Function.update_of_ne hij _ _⟩
  refine ⟨h.order.download i download files received, h.paths, h.clients, ?_, ?_, ?_, ?_⟩
  · intro j r waiting hj hwaiting
    obtain ⟨download', hj'⟩ := hsame j
    dsimp only
    rw [hj']
    have hloads := h.starting j r waiting hj hwaiting
    exact ⟨hloads.loads, hloads.path⟩
  · intro j hj
    obtain ⟨download', hj'⟩ := hsame j
    dsimp only at hj ⊢
    rw [hj'] at hj ⊢
    obtain ⟨resource, hresource, hloads⟩ := h.running j hj
    exact ⟨resource, hresource, hloads.loads, hloads.path⟩
  · intro j hj
    obtain ⟨download', hj'⟩ := hsame j
    dsimp only at hj ⊢
    rw [hj'] at hj ⊢
    exact h.unqueued j hj
  · intro j k hj hk huri
    obtain ⟨download₁, hj'⟩ := hsame j
    obtain ⟨download₂, hk'⟩ := hsame k
    dsimp only at hj hk huri
    rw [hj'] at hj huri
    rw [hk'] at hk huri
    exact h.alone j k hj hk huri

/-- **A step keeps the threads and their resources.** -/
theorem step (h : Threads settings m) (hstep : step settings m a = some m') :
    Threads settings m' := by
  have horder := h.order.step hstep
  cases step_effect hstep with
  | answers => exact h
  | misses _ k client hpath =>
    refine ⟨horder, h.paths, ?_, h.starting, h.running, h.unqueued, h.alone⟩
    intro j client' hj
    dsimp only at hj
    by_cases hjk : j = k
    · rw [hjk, Function.update_self] at hj
      cases hj
      exact hpath
    · rw [Function.update_of_ne hjk] at hj
      exact h.clients j client' hj
  | leaves _ k =>
    refine ⟨horder, h.paths, ?_, h.starting, h.running, h.unqueued, h.alone⟩
    intro j client' hj
    dsimp only at hj
    by_cases hjk : j = k
    · rw [hjk, Function.update_self] at hj
      cases hj
    · rw [Function.update_of_ne hjk] at hj
      exact h.clients j client' hj
  | enqueues k _ client i available hclient hsleeping hremembers hwaiting havailable =>
    exact h.enqueue hclient hsleeping hremembers hwaiting havailable
  | turns _ dispatcher hturns =>
    refine ⟨horder, h.paths, h.clients, ?_, h.running, h.unqueued, h.alone⟩
    intro i r waiting hi
    dsimp only at hi
    rw [hi] at hturns
    cases hturns
  | inits _ i r waiting attrDestroy attrInit hdispatcher hwaiting =>
    obtain ⟨hlt, hidle⟩ := h.order.idle i (Or.inl hdispatcher)
    refine h.change i (SaveHttpGetThread.not_running_init hidle _ _ _) horder ?_
    intro j r' waiting' hj hwaiting'
    split at hj
    · next hok =>
      cases hj
      rw [hwaiting] at hwaiting'
      cases hwaiting'
      rw [Function.update_self]
      obtain ⟨hresource, hpath⟩ := SaveHttpGetThread.init_ok hok
      exact ⟨hresource, hpath.trans (h.path_of_waiting (hwaiting ▸ List.mem_cons_self))⟩
    · cases hj
  | startFails _ i r waiting setDetachState create body bContentLengthInitialized hdispatcher
      hwaiting hfails =>
    obtain ⟨hlt, hidle⟩ := h.order.idle i (Or.inr hdispatcher)
    refine h.change i (SaveHttpGetThread.not_running_start hidle hfails) horder ?_
    intro j r' waiting' hj
    cases hj
  | dispatches i r waiting setDetachState create body bContentLengthInitialized hdispatcher hwaiting
      hstarts =>
    have hloads := h.starting i r waiting hdispatcher hwaiting
    obtain ⟨hresource, hpath⟩ := SaveHttpGetThread.start_keeps (m.pshgtSaveHttpGetThread i)
      setDetachState create body bContentLengthInitialized
    exact h.dispatch hdispatcher hwaiting
      ⟨hresource.trans hloads.loads, hpath.trans hloads.path⟩
  | downloads i event _ hrunning hstep =>
    obtain ⟨download, files, -, rfl⟩ := downloadStep_eq hstep
    exact h.download i download files _
  | runEnds _ i hrunning =>
    have hended : ¬SaveHttpGetThread.Running { m.pshgtSaveHttpGetThread i with
        stPThreadStatus := .initializedAgainAfterRunning } :=
      fun h => h.elim PThreadStatus.noConfusion PThreadStatus.noConfusion
    refine h.change i hended horder ?_
    intro j r waiting hj hwaiting
    by_cases hij : j = i
    · -- the dispatcher starts only threads that do not run
      rw [hij] at hj
      exact absurd hrunning (h.order.idle i (Or.inr hj)).2
    · rw [Function.update_of_ne hij]
      exact h.starting j r waiting hj hwaiting

/-- **A run keeps them.** -/
theorem run {files : Files (List Name)} {actions : List Action}
    (hrun : run (HTTPCacheManager.step settings) (initial settings files) actions = some m) :
    Threads settings m :=
  invariant (fun _ _ _ hs _ hstep => hs.step hstep) (threads_initial settings files)
    (always_of_forall (fun _ _ _ => trivial) _ _) hrun

end Threads

/-! ### The order of the downloads -/

/-- The request that a step of a client queues: none where the file comes already, or where no
record is available. -/
def queues (settings : Settings) (m : HTTPCacheManager) : Action → List (ParsedURL × List UInt8)
  | .getContent k _ =>
    match m.clients k with
    | some client =>
      if m.Remembers settings client.url.bRelativePathWithoutParameters ∨
          m.Waiting client.url.bRelativePathWithoutParameters ∨ m.vAvailableHTTPRequests = [] then []
      else [client.httpRequest.target]
    | none => []
  | _ => []

/-- What the threads download that run after a step and did not run before it. -/
def starts (settings : Settings) (m m' : HTTPCacheManager) : List (ParsedURL × List UInt8) :=
  ((List.range settings.ulMaxConcurrentHTTPRequest).filter fun i =>
    ¬(m.pshgtSaveHttpGetThread i).Running ∧ (m'.pshgtSaveHttpGetThread i).Running).map
      fun i => (m'.pshgtSaveHttpGetThread i).target

/-- Where no thread begins to run, none is started. -/
theorem starts_eq_nil (h : ∀ i, (m'.pshgtSaveHttpGetThread i).Running →
    (m.pshgtSaveHttpGetThread i).Running) : starts settings m m' = [] := by
  unfold starts
  rw [List.map_eq_nil_iff, List.filter_eq_nil_iff]
  intro i _ hi
  obtain ⟨hidle, hrunning⟩ := of_decide_eq_true hi
  exact hidle (h i hrunning)

/-- One thread is changed into one that does not run. -/
theorem starts_of_idle {i : ℕ} {thread : SaveHttpGetThread} (hthread : ¬thread.Running)
    (hthreads : m'.pshgtSaveHttpGetThread = Function.update m.pshgtSaveHttpGetThread i thread) :
    starts settings m m' = [] := by
  refine starts_eq_nil fun j hj => ?_
  rw [hthreads] at hj
  by_cases hij : j = i
  · rw [hij, Function.update_self] at hj
    exact absurd hj hthread
  · rwa [Function.update_of_ne hij] at hj

/-- One thread begins to run. -/
theorem starts_of_running {i : ℕ} {thread : SaveHttpGetThread}
    (hi : i < settings.ulMaxConcurrentHTTPRequest) (hidle : ¬(m.pshgtSaveHttpGetThread i).Running)
    (hthread : thread.Running)
    (hthreads : m'.pshgtSaveHttpGetThread = Function.update m.pshgtSaveHttpGetThread i thread) :
    starts settings m m' = [thread.target] := by
  have honly : (List.range settings.ulMaxConcurrentHTTPRequest).filter (fun j =>
      ¬(m.pshgtSaveHttpGetThread j).Running ∧ (m'.pshgtSaveHttpGetThread j).Running) = [i] := by
    have hcongr : ∀ j ∈ List.range settings.ulMaxConcurrentHTTPRequest,
        decide (¬(m.pshgtSaveHttpGetThread j).Running ∧ (m'.pshgtSaveHttpGetThread j).Running)
          = (j == i) := by
      intro j _
      rw [hthreads]
      by_cases hij : j = i
      · rw [hij, Function.update_self, beq_self_eq_true]
        exact decide_eq_true ⟨hidle, hthread⟩
      · rw [Function.update_of_ne hij, beq_eq_false_iff_ne.mpr hij]
        exact decide_eq_false fun h => h.1 h.2
    rw [List.filter_congr hcongr, List.filter_beq,
      List.count_eq_one_of_mem List.nodup_range (List.mem_range.mpr hi), List.replicate_one]
  unfold starts
  rw [honly, List.map_singleton, hthreads, Function.update_self]

/-- Only a client queues a request. -/
theorem queued_of_effect (h : Effect settings m a m') (ha : ∀ k b, a ≠ .getContent k b) :
    m'.queued = m.queued := by
  cases h with
  | enqueues k b => exact absurd rfl (ha k b)
  | downloads i event _ _ hstep =>
    obtain ⟨download, files, -, rfl⟩ := downloadStep_eq hstep
    rfl
  | _ => rfl

/-- **What a step adds** to what was queued. -/
theorem queued_step (h : step settings m a = some m') :
    m'.queued.map HTTPRequest.target = m.queued.map HTTPRequest.target ++ m.queues settings a := by
  cases a with
  | getContent k saveHTTPRequestKey =>
    unfold step at h
    dsimp only at h
    split at h
    · next client hclient _ =>
      cases h
      unfold queues getContent
      simp only [hclient]
      split
      · next hremembers => rw [if_pos (Or.inl hremembers), List.append_nil]
      · next hremembers =>
        split
        · next hwaiting => rw [if_pos (Or.inr (Or.inl hwaiting)), List.append_nil]
        · next hwaiting =>
          split
          · next havailable => rw [if_pos (Or.inr (Or.inr havailable)), List.append_nil]
          · next i available havailable =>
            have hsome : m.vAvailableHTTPRequests ≠ [] := by
              rw [havailable]
              exact List.cons_ne_nil i available
            rw [if_neg (fun hall => hall.elim hremembers fun hrest => hrest.elim hwaiting hsome)]
            exact List.map_append
    · cases h
  | _ =>
    rw [queued_of_effect (step_effect h) (fun _ _ => Action.noConfusion)]
    exact (List.append_nil _).symm

theorem dispatched_of_same (hdispatched : m'.dispatched = m.dispatched)
    (hstarts : starts settings m m' = []) :
    m'.dispatched.map HTTPRequest.target =
      m.dispatched.map HTTPRequest.target ++ starts settings m m' := by
  rw [hdispatched, hstarts, List.append_nil]

/-- **What a step adds** to what was dispatched are the threads that begin to run. -/
theorem dispatched_step (hthreads : Threads settings m) (h : step settings m a = some m') :
    m'.dispatched.map HTTPRequest.target =
      m.dispatched.map HTTPRequest.target ++ starts settings m m' := by
  cases step_effect h with
  | inits _ i r waiting attrDestroy attrInit hdispatcher hwaiting =>
    have hidle := (hthreads.order.idle i (Or.inl hdispatcher)).2
    exact dispatched_of_same rfl
      (starts_of_idle (SaveHttpGetThread.not_running_init hidle _ _ _) rfl)
  | startFails _ i r waiting setDetachState create body bContentLengthInitialized hdispatcher
      hwaiting hfails =>
    have hidle := (hthreads.order.idle i (Or.inr hdispatcher)).2
    exact dispatched_of_same rfl
      (starts_of_idle (SaveHttpGetThread.not_running_start hidle hfails) rfl)
  | dispatches i r waiting setDetachState create body bContentLengthInitialized hdispatcher hwaiting
      hstarts =>
    -- the thread was given the first record of the queue, and keeps its resource and path
    obtain ⟨hlt, hidle⟩ := hthreads.order.idle i (Or.inr hdispatcher)
    have hloads := hthreads.starting i r waiting hdispatcher hwaiting
    obtain ⟨hresource, hpath⟩ := SaveHttpGetThread.start_keeps (m.pshgtSaveHttpGetThread i)
      setDetachState create body bContentLengthInitialized
    rw [starts_of_running hlt hidle (SaveHttpGetThread.start_ok hstarts).1 rfl]
    unfold HTTPCacheManager.dispatch SaveHttpGetThread.target
    rw [List.map_append, List.map_singleton, hresource, hpath, hloads.loads, hloads.path,
      ← hthreads.path_of_waiting (hwaiting ▸ List.mem_cons_self)]
    rfl
  | downloads i event _ hrunning hstep =>
    obtain ⟨download, files, -, rfl⟩ := downloadStep_eq hstep
    refine dispatched_of_same rfl (starts_eq_nil fun j hj => ?_)
    by_cases hij : j = i
    · exact hij ▸ hrunning
    · dsimp only at hj
      rwa [Function.update_of_ne hij] at hj
  | runEnds _ i hrunning =>
    have hended : ¬SaveHttpGetThread.Running { m.pshgtSaveHttpGetThread i with
        stPThreadStatus := .initializedAgainAfterRunning } :=
      fun h => h.elim PThreadStatus.noConfusion PThreadStatus.noConfusion
    exact dispatched_of_same rfl (starts_of_idle hended rfl)
  | _ => exact dispatched_of_same rfl (starts_eq_nil fun _ hj => hj)

/-- **The queue of the requests in every reachable state.**  Each record is available or waiting,
and only one of the two and once; the waiting URIs are all different; no more downloads run than
may; and the threads that were started download what the clients queued, in that order, the requests
that wait being the rest. -/
theorem requestQueue (settings : Settings) (files : Files (List Name)) (actions : List Action)
    (m : HTTPCacheManager)
    (hrun : run (step settings) (initial settings files) actions = some m) :
    (m.vAvailableHTTPRequests ++ m.vWaitingQueueHTTPRequests).Perm
        (List.range settings.ulHTTPRequestsQueueSize) ∧
      (m.vWaitingQueueHTTPRequests.map m.uri).Nodup ∧
      Set.encard {i | (m.pshgtSaveHttpGetThread i).Running} ≤
        settings.ulMaxConcurrentHTTPRequest ∧
      observations (step settings) (fun m a _ => m.queues settings a) (initial settings files) actions
        = observations (step settings) (fun m _ m' => starts settings m m') (initial settings files)
            actions ++ m.vWaitingQueueHTTPRequests.map fun r => (m.httpRequests r).target := by
  have h := InOrder.run hrun
  refine ⟨h.records, h.uris, ?_, ?_⟩
  · have hsubset : {i | (m.pshgtSaveHttpGetThread i).Running} ⊆
        (Finset.range settings.ulMaxConcurrentHTTPRequest : Set ℕ) := by
      intro i hi
      rw [Finset.coe_range]
      exact h.running i hi
    refine (Set.encard_le_encard hsubset).trans ?_
    rw [Set.encard_coe_eq_coe_finsetCard, Finset.card_range]
  · have hinitial := threads_initial settings files
    have hqueued := observations_of_step (fun m => m.queued.map HTTPRequest.target)
      (fun _ _ _ (hs : Threads settings _) hstep => hs.step hstep)
      (fun _ _ _ _ hstep => queued_step hstep) hinitial hrun
    have hdispatched := observations_of_step (fun m => m.dispatched.map HTTPRequest.target)
      (fun _ _ _ (hs : Threads settings _) hstep => hs.step hstep)
      (fun _ _ _ hs hstep => dispatched_step hs hstep) hinitial hrun
    rw [h.queue, List.map_append, List.map_map, hdispatched] at hqueued
    exact hqueued.symm

/-- One request, that is dispatched: its thread is started, and nothing waits. -/
theorem requestQueue_startOfA :
    ∃ m, run (step small) (initial small fun _ => none) startOfA = some m ∧
      (m.vAvailableHTTPRequests ++ m.vWaitingQueueHTTPRequests).Perm
        (List.range small.ulHTTPRequestsQueueSize) ∧
      (m.vWaitingQueueHTTPRequests.map m.uri).Nodup ∧
      Set.encard {i | (m.pshgtSaveHttpGetThread i).Running} ≤ small.ulMaxConcurrentHTTPRequest ∧
      observations (step small) (fun m a _ => m.queues small a) (initial small fun _ => none) startOfA
        = [(⟨[104], 1, [47, 97], []⟩, [47, 99, 47, 97])] ∧
      observations (step small) (fun m _ m' => starts small m m') (initial small fun _ => none) startOfA
        = [(⟨[104], 1, [47, 97], []⟩, [47, 99, 47, 97])] := by
  have hsome : (run (step small) (initial small fun _ => none) startOfA).isSome = true := by
    decide +kernel
  obtain ⟨m, hrun⟩ := Option.isSome_iff_exists.mp hsome
  obtain ⟨hrecords, huris, hrunning, -⟩ := requestQueue small _ startOfA m hrun
  refine ⟨m, hrun, hrecords, huris, hrunning, ?_, ?_⟩
  · decide +kernel
  · decide +kernel

end HTTPCacheManager

end CatraLibraries
