/-
# What the cache answers

A request is in the cache when the marker of its local path is there.  The path has neither the
host and the port of the resource nor its parameters, so that two resources may have one path; and
a path that ends like a marker may be the marker of another one.  Where the resources that are
dispatched have files of their own, and the downloads keep their markers true, an answer from the
cache stands for a download of the very resource.
-/
import CatraLibraries.HTTPCacheManager.ThreadResources
import CatraLibraries.HTTPCacheManager.DownloadProgress

namespace CatraLibraries

open Memory CString Paths WebUtility Transition
open CacheSaveHttpGetThread (Files Download DownloadEvent completedPath Progress Moved progress_start)

namespace HTTPCacheManager

/-- The resource of a request that can be parsed. -/
def resourceOf (pbHTTPRequest : CStr) : Option ParsedURL :=
  match parseURL pbHTTPRequest maxHostNameLength with
  | .ok (.ok url) => some url
  | _ => none

/-- Two resources that differ at most in the host, the port and the parameters. -/
def SamePath (resource other : ParsedURL) : Prop :=
  resource.bRelativePathWithoutParameters = other.bRelativePathWithoutParameters

instance (resource other : ParsedURL) : Decidable (SamePath resource other) :=
  inferInstanceAs (Decidable (_ = _))

/-- The name of the file of a resource. -/
def Settings.content (settings : Settings) (resource : ParsedURL) : List Name :=
  settings.data (settings.path resource)

/-- The name of the marker of a resource. -/
def Settings.complete (settings : Settings) (resource : ParsedURL) : List Name :=
  settings.marker (settings.path resource)

/-- A name is not one of the two of a resource. -/
structure Settings.Spares (settings : Settings) (resource : ParsedURL) (name : List Name) : Prop where
  content : name ≠ settings.content resource
  complete : name ≠ settings.complete resource

instance (settings : Settings) (resource : ParsedURL) (name : List Name) :
    Decidable (settings.Spares resource name) :=
  decidable_of_iff (name ≠ settings.content resource ∧ name ≠ settings.complete resource)
    ⟨fun h => ⟨h.1, h.2⟩, fun h => ⟨h.content, h.complete⟩⟩

/-- **What an answer from the cache stands for**: a download of the resource was received, and its
file has the body. -/
def HitsReceived (settings : Settings) (m : HTTPCacheManager) (a : Action) : Prop :=
  ∀ k pbHTTPRequest createDirectory isFileExisting path resource,
    a = .lookUp k pbHTTPRequest createDirectory isFileExisting →
    lookUp settings m.files pbHTTPRequest createDirectory isFileExisting = .ok (.ok (path, true)) →
    resourceOf pbHTTPRequest = some resource →
    ∃ body, (resource, body) ∈ m.received ∧ m.files (settings.data path) = some body

/-- A marker that is found lies inside the cache directory, it is no file of another path that was
dispatched, and no other resource with its path was received. -/
def CarefulLookUp (settings : Settings) (m : HTTPCacheManager) (pbHTTPRequest : CStr) : Prop :=
  ∀ resource ∈ resourceOf pbHTTPRequest, m.files (settings.complete resource) ≠ none →
    resolve settings.cwd settings.pCacheDirectory.bytes <+: settings.complete resource ∧
      (∀ other ∈ m.resources, ¬SamePath other resource →
        settings.Spares other (settings.complete resource)) ∧
      ∀ other ∈ m.received, SamePath other.1 resource → other.1 = resource

/-- A resource that is dispatched shares no file with another path. -/
def CarefulStart (settings : Settings) (m : HTTPCacheManager) : Prop :=
  ∀ r ∈ m.vWaitingQueueHTTPRequests.head?, ∀ other ∈ m.resources,
    ¬SamePath other (m.httpRequests r).resource →
      settings.Spares other (settings.content (m.httpRequests r).resource) ∧
        settings.Spares other (settings.complete (m.httpRequests r).resource)

/-- **The condition on the steps.** -/
def Careful (settings : Settings) (m : HTTPCacheManager) : Action → Prop
  | .lookUp _ pbHTTPRequest _ _ => m.CarefulLookUp settings pbHTTPRequest
  | .start true true _ _ => m.CarefulStart settings
  | .download i event =>
    event.Careful (settings.marker (m.pshgtSaveHttpGetThread i).bDestinationPathName) m.files
  | _ => True

instance (settings : Settings) (m : HTTPCacheManager) (pbHTTPRequest : CStr) :
    Decidable (m.CarefulLookUp settings pbHTTPRequest) :=
  inferInstanceAs (Decidable (∀ resource ∈ resourceOf pbHTTPRequest, _))

instance (settings : Settings) (m : HTTPCacheManager) : Decidable (m.CarefulStart settings) :=
  inferInstanceAs (Decidable (∀ r ∈ m.vWaitingQueueHTTPRequests.head?, _))

instance (settings : Settings) (m : HTTPCacheManager) (a : Action) :
    Decidable (m.Careful settings a) :=
  match a with
  | .lookUp _ pbHTTPRequest _ _ => inferInstanceAs (Decidable (m.CarefulLookUp settings pbHTTPRequest))
  | .start true true _ _ => inferInstanceAs (Decidable (m.CarefulStart settings))
  | .download i event => inferInstanceAs (Decidable (event.Careful
      (settings.marker (m.pshgtSaveHttpGetThread i).bDestinationPathName) m.files))
  | .start true false _ _ | .start false _ _ _ | .getContent _ _ | .lock | .scan | .init _ _
  | .runEnds _ => inferInstanceAs (Decidable True)

/-- A resource with the path was received, and the file of the path has its body. -/
def Completed (settings : Settings) (m : HTTPCacheManager) (resource : ParsedURL) : Prop :=
  ∃ other body, SamePath other resource ∧ (other, body) ∈ m.received ∧
    m.files (settings.content resource) = some body

/-- **The cache.**  `before` are the files that were there in the beginning. -/
structure Cached (settings : Settings) (before : Files (List Name)) (m : HTTPCacheManager) : Prop where
  apart : ∀ resource ∈ m.resources, ∀ other ∈ m.resources, ¬SamePath other resource →
    settings.Spares other (settings.content resource) ∧
      settings.Spares other (settings.complete resource)
  present : ∀ name, m.files name ≠ none →
    before name ≠ none ∨ ∃ resource ∈ m.resources, ¬settings.Spares resource name
  complete : ∀ resource ∈ m.resources, m.files (settings.complete resource) ≠ none →
    before (settings.complete resource) ≠ none ∨ m.Completed settings resource
  progress : ∀ i, (m.pshgtSaveHttpGetThread i).Running →
    Progress (m.pshgtSaveHttpGetThread i).body (m.pshgtSaveHttpGetThread i).bContentLengthInitialized
      (settings.content (m.pshgtSaveHttpGetThread i).resource)
      (settings.complete (m.pshgtSaveHttpGetThread i).resource) m.files
      (((m.pshgtSaveHttpGetThread i).resource, (m.pshgtSaveHttpGetThread i).body) ∈ m.received)
      (m.pshgtSaveHttpGetThread i).download

variable {settings : Settings} {before : Files (List Name)} {m m' : HTTPCacheManager} {a : Action}

theorem content_ne_complete (settings : Settings) (resource : ParsedURL) :
    settings.content resource ≠ settings.complete resource :=
  resolve_append_suffix_ne settings.cwd (settings.path resource) (by decide) (by decide)

theorem content_eq {resource other : ParsedURL} (h : SamePath other resource) :
    settings.content other = settings.content resource := by
  unfold Settings.content Settings.path
  rw [h]

theorem complete_eq {resource other : ParsedURL} (h : SamePath other resource) :
    settings.complete other = settings.complete resource := by
  unfold Settings.complete Settings.path
  rw [h]

/-- Resources with one path are completed together. -/
theorem Completed.of_samePath {resource other : ParsedURL} (h : m.Completed settings other)
    (hpath : SamePath other resource) : m.Completed settings resource := by
  obtain ⟨source, body, hsource, hbody, hcontent⟩ := h
  rw [content_eq hpath] at hcontent
  exact ⟨source, body, hsource.trans hpath, hbody, hcontent⟩

theorem cached_initial (settings : Settings) (before : Files (List Name)) :
    Cached settings before (initial settings before) where
  apart := by
    intro resource h
    cases h
  present := fun name h => Or.inl h
  complete := by
    intro resource h
    cases h
  progress := by
    rintro i (h | h)
    · cases h
    · cases h

namespace Cached

/-- Steps that change neither the files nor what was dispatched, and start no thread. -/
theorem of_same (h : Cached settings before m) (hfiles : m'.files = m.files)
    (hresources : m'.resources = m.resources) (hreceived : m'.received = m.received)
    (hthreads : ∀ i, (m'.pshgtSaveHttpGetThread i).Running →
      m'.pshgtSaveHttpGetThread i = m.pshgtSaveHttpGetThread i) :
    Cached settings before m' := by
  refine ⟨?_, ?_, ?_, ?_⟩
  · rw [hresources]
    exact h.apart
  · rw [hfiles, hresources]
    exact h.present
  · unfold Completed
    rw [hfiles, hresources, hreceived]
    exact h.complete
  · intro i hi
    have hsame := hthreads i hi
    rw [hsame] at hi
    rw [hsame, hfiles, hreceived]
    exact h.progress i hi

/-- Where a thread is changed into one that does not run. -/
theorem change (h : Cached settings before m) (i : ℕ) {thread : SaveHttpGetThread}
    (hthread : ¬thread.Running) (dispatcher : Dispatcher) :
    Cached settings before { m with
      pshgtSaveHttpGetThread := Function.update m.pshgtSaveHttpGetThread i thread
      dispatcher := dispatcher } := by
  refine h.of_same rfl rfl rfl ?_
  intro j hj
  refine Function.update_of_ne ?_ _ _
  rintro rfl
  dsimp only at hj
  rw [Function.update_self] at hj
  exact hthread hj

/-- The marker of a resource that was not dispatched before. -/
theorem complete_new (h : Cached settings before m) {resource : ParsedURL}
    (hnew : ∀ other ∈ m.resources, ¬SamePath other resource →
      settings.Spares other (settings.complete resource))
    (hmarker : m.files (settings.complete resource) ≠ none) :
    before (settings.complete resource) ≠ none ∨ m.Completed settings resource := by
  rcases h.present _ hmarker with hbefore | ⟨other, hother, hspares⟩
  · exact Or.inl hbefore
  · by_cases hsame : SamePath other resource
    · rw [← complete_eq hsame] at hmarker ⊢
      exact (h.complete other hother hmarker).imp_right fun hcompleted =>
        hcompleted.of_samePath hsame
    · exact absurd (hnew other hother hsame) hspares

/-- A thread is started. -/
theorem dispatch (h : Cached settings before m) {i r : ℕ} {waiting : List ℕ}
    {thread : SaveHttpGetThread} (hwaiting : m.vWaitingQueueHTTPRequests = r :: waiting)
    (hcareful : m.CarefulStart settings) (hstart : thread.download = .start) :
    Cached settings before (m.dispatch r waiting i thread) := by
  have hhead : r ∈ m.vWaitingQueueHTTPRequests.head? := by
    rw [hwaiting]
    rfl
  have hnew := hcareful r hhead
  have hresources : (m.dispatch r waiting i thread).resources =
      m.resources ++ [(m.httpRequests r).resource] := List.map_append
  have hspares : ∀ other ∈ m.resources, ¬SamePath other (m.httpRequests r).resource →
      settings.Spares (m.httpRequests r).resource (settings.content other) ∧
        settings.Spares (m.httpRequests r).resource (settings.complete other) := by
    intro other hother hne
    obtain ⟨hcontent, hcomplete⟩ := hnew other hother hne
    exact ⟨⟨hcontent.content.symm, hcomplete.content.symm⟩,
      ⟨hcontent.complete.symm, hcomplete.complete.symm⟩⟩
  refine ⟨?_, ?_, ?_, ?_⟩
  · rw [hresources]
    intro resource hresource other hother hne
    rcases List.mem_append.mp hresource with hresource | hresource
    · rcases List.mem_append.mp hother with hother | hother
      · exact h.apart resource hresource other hother hne
      · obtain rfl := List.mem_singleton.mp hother
        exact hspares resource hresource fun hsame => hne hsame.symm
    · obtain rfl := List.mem_singleton.mp hresource
      rcases List.mem_append.mp hother with hother | hother
      · exact hnew other hother hne
      · exact absurd (congrArg _ (List.mem_singleton.mp hother)) hne
  · rw [hresources]
    intro name hname
    refine (h.present name hname).imp_right ?_
    rintro ⟨resource, hresource, hspare⟩
    exact ⟨resource, List.mem_append_left _ hresource, hspare⟩
  · rw [hresources]
    intro resource hresource hmarker
    rcases List.mem_append.mp hresource with hresource | hresource
    · exact h.complete resource hresource hmarker
    · obtain rfl := List.mem_singleton.mp hresource
      exact h.complete_new (fun other hother hne => (hnew other hother hne).2) hmarker
  · intro j hj
    by_cases hij : j = i
    · subst hij
      have hthread : (m.dispatch r waiting j thread).pshgtSaveHttpGetThread j = thread :=
        Function.update_self ..
      rw [hthread, hstart]
      exact progress_start
    · have hthread : (m.dispatch r waiting i thread).pshgtSaveHttpGetThread j =
          m.pshgtSaveHttpGetThread j := Function.update_of_ne hij _ _
      rw [hthread] at hj ⊢
      exact h.progress j hj

/-- **A step of a download.**  Its two files are its own, because no other thread downloads its
resource, and the other resources have other files. -/
theorem download (h : Cached settings before m) (hthreads : Threads settings m) {i : ℕ}
    {download : Download} {files : Files (List Name)}
    (hrunning : (m.pshgtSaveHttpGetThread i).Running)
    (hmoved : Moved (m.pshgtSaveHttpGetThread i).body
      (m.pshgtSaveHttpGetThread i).bContentLengthInitialized
      (settings.content (m.pshgtSaveHttpGetThread i).resource)
      (settings.complete (m.pshgtSaveHttpGetThread i).resource) m.files files
      (((m.pshgtSaveHttpGetThread i).resource, (m.pshgtSaveHttpGetThread i).body) ∈ m.received)
      download) :
    Cached settings before { m with
      pshgtSaveHttpGetThread := Function.update m.pshgtSaveHttpGetThread i
        { m.pshgtSaveHttpGetThread i with download := download }
      files := files
      received :=
        if download.phase = .touching then
          m.received ++ [((m.pshgtSaveHttpGetThread i).resource, (m.pshgtSaveHttpGetThread i).body)]
        else m.received } := by
  obtain ⟨resource, hresource, hloads⟩ := hthreads.running i hrunning
  have hthis := hloads.loads
  subst hthis
  -- what was received is kept
  have hkeep : ∀ entry ∈ m.received, entry ∈ (if download.phase = .touching then
      m.received ++ [((m.pshgtSaveHttpGetThread i).resource, (m.pshgtSaveHttpGetThread i).body)]
      else m.received) := by
    intro entry hentry
    split
    · exact List.mem_append_left _ hentry
    · exact hentry
  -- the files of another resource are not touched
  have hothers : ∀ other ∈ m.resources, ¬SamePath other (m.pshgtSaveHttpGetThread i).resource →
      files (settings.content other) = m.files (settings.content other) ∧
        files (settings.complete other) = m.files (settings.complete other) := by
    intro other hother hne
    obtain ⟨hcontent, hcomplete⟩ := h.apart other hother _ hresource fun hsame => hne hsame.symm
    exact ⟨hmoved.others _ hcontent.content hcontent.complete,
      hmoved.others _ hcomplete.content hcomplete.complete⟩
  refine ⟨h.apart, ?_, ?_, ?_⟩
  · intro name hname
    by_cases hspare : settings.Spares (m.pshgtSaveHttpGetThread i).resource name
    · have hsame := hmoved.others name hspare.content hspare.complete
      have hname : files name ≠ none := hname
      rw [hsame] at hname
      exact h.present name hname
    · exact Or.inr ⟨_, hresource, hspare⟩
  · intro other hother hmarker
    have hmarker : files (settings.complete other) ≠ none := hmarker
    by_cases hne : SamePath other (m.pshgtSaveHttpGetThread i).resource
    · rw [complete_eq hne] at hmarker
      have hcontent_eq : files (settings.content other) = files (settings.content
          (m.pshgtSaveHttpGetThread i).resource) := by rw [content_eq hne]
      rcases hmoved.marked hmarker with ⟨hold, hsame⟩ | ⟨hbody, hreceived⟩
      · rw [← complete_eq hne] at hold
        refine (h.complete _ hother hold).imp_right ?_
        rintro ⟨source, body, hsource, hbody, hcontent⟩
        rw [content_eq hne] at hcontent
        exact ⟨source, body, hsource, hkeep _ hbody, hcontent_eq.trans (hsame.trans hcontent)⟩
      · exact Or.inr ⟨_, _, hne.symm, hkeep _ hreceived, hcontent_eq.trans hbody⟩
    · obtain ⟨hcontent, hcomplete⟩ := hothers other hother hne
      rw [hcomplete] at hmarker
      refine (h.complete other hother hmarker).imp_right ?_
      rintro ⟨source, body, hsource, hbody, hfile⟩
      exact ⟨source, body, hsource, hkeep _ hbody, hcontent.trans hfile⟩
  · intro j hj
    by_cases hij : j = i
    · subst hij
      dsimp only
      rw [Function.update_self]
      refine hmoved.progress.congr rfl rfl ?_
      rintro (hreceived | htouching)
      · exact hkeep _ hreceived
      · rw [if_pos htouching]
        exact List.mem_append_right _ (List.mem_singleton_self _)
    · dsimp only at hj ⊢
      rw [Function.update_of_ne hij] at hj ⊢
      obtain ⟨other, hother, hloads'⟩ := hthreads.running j hj
      have hthat := hloads'.loads
      subst hthat
      have hne : ¬SamePath (m.pshgtSaveHttpGetThread j).resource
          (m.pshgtSaveHttpGetThread i).resource :=
        fun hsame => hij (hthreads.alone j i hj hrunning hsame)
      obtain ⟨hcontent, hcomplete⟩ := hothers _ hother hne
      exact (h.progress j hj).congr hcontent hcomplete fun hreceived => hkeep _ hreceived

/-- **A careful step keeps the cache.** -/
theorem step (h : Cached settings before m) (hthreads : Threads settings m)
    (hcareful : m.Careful settings a) (hstep : step settings m a = some m') :
    Cached settings before m' := by
  cases step_effect hstep with
  | answers => exact h
  | misses => exact h.of_same rfl rfl rfl fun _ _ => rfl
  | leaves => exact h.of_same rfl rfl rfl fun _ _ => rfl
  | enqueues => exact h.of_same rfl rfl rfl fun _ _ => rfl
  | turns => exact h.of_same rfl rfl rfl fun _ _ => rfl
  | inits _ i r waiting attrDestroy attrInit hdispatcher hwaiting =>
    obtain ⟨hlt, hidle⟩ := hthreads.order.idle i (Or.inl hdispatcher)
    exact h.change i (SaveHttpGetThread.not_running_init hidle _ _ _) _
  | startFails _ i r waiting setDetachState create body bContentLengthInitialized hdispatcher
      hwaiting hfails =>
    obtain ⟨hlt, hidle⟩ := hthreads.order.idle i (Or.inr hdispatcher)
    exact h.change i (SaveHttpGetThread.not_running_start hidle hfails) _
  | dispatches i r waiting setDetachState create body bContentLengthInitialized hdispatcher hwaiting
      hstarts =>
    obtain ⟨rfl, rfl⟩ := SaveHttpGetThread.outcomes_of_start hstarts
    exact h.dispatch hwaiting hcareful (SaveHttpGetThread.start_ok hstarts).2
  | downloads i event _ hrunning hdownload =>
    obtain ⟨download, files, hmove, rfl⟩ := downloadStep_eq hdownload
    obtain ⟨resource, hresource, hloads⟩ := hthreads.running i hrunning
    have hthis := hloads.loads
    subst hthis
    have hprogress := h.progress i hrunning
    have hcareful : event.Careful
        (settings.marker (m.pshgtSaveHttpGetThread i).bDestinationPathName) m.files := hcareful
    rw [hloads.path] at hmove hcareful
    exact h.download hthreads hrunning
      (hprogress.step (content_ne_complete settings _) hcareful hmove)
  | runEnds _ i hrunning =>
    have hended : ¬SaveHttpGetThread.Running { m.pshgtSaveHttpGetThread i with
        stPThreadStatus := .initializedAgainAfterRunning } :=
      fun h => h.elim PThreadStatus.noConfusion PThreadStatus.noConfusion
    exact h.change i hended m.dispatcher

/-- **An answer from the cache** is right. -/
theorem hit (h : Cached settings before m)
    (hempty : ∀ name, resolve settings.cwd settings.pCacheDirectory.bytes <+: name →
      before name = none)
    (hcareful : m.Careful settings a) : HitsReceived settings m a := by
  rintro k pbHTTPRequest createDirectory isFileExisting path resource rfl hlook hresource
  have hurl : parseURL pbHTTPRequest maxHostNameLength = .ok (.ok resource) := by
    unfold resourceOf at hresource
    split at hresource
    · next hparse =>
      cases hresource
      exact hparse
    · cases hresource
  obtain ⟨hpath, hmarker⟩ := path_of_lookUp hlook hurl
  have hpath : path = settings.path resource := hpath
  subst hpath
  have hmarker : m.files (settings.complete resource) ≠ none :=
    Option.isSome_iff_ne_none.mp hmarker.symm
  obtain ⟨hinside, hspares, halone⟩ := hcareful resource hresource hmarker
  obtain ⟨source, body, hsource, hbody, hcontent⟩ :=
    (h.complete_new hspares hmarker).resolve_left fun hbefore => hbefore (hempty _ hinside)
  obtain rfl : source = resource := halone _ hbody hsource
  exact ⟨body, hbody, hcontent⟩

end Cached

/-- **Every answer from the cache.**  From an empty cache directory, in every run whose steps meet
the condition, an answer from the cache stands for a download of the very resource that was
received, and the file has its body. -/
theorem hits_received (settings : Settings) (before : Files (List Name)) (actions : List Action)
    (hempty : ∀ name, resolve settings.cwd settings.pCacheDirectory.bytes <+: name →
      before name = none)
    (hcareful : Always (step settings) (fun m a _ => m.Careful settings a)
      (initial settings before) actions) :
    Always (step settings) (fun m a _ => HitsReceived settings m a)
      (initial settings before) actions := by
  have hkept : ∀ m a m', Threads settings m ∧ Cached settings before m → m.Careful settings a →
      step settings m a = some m' →
      (Threads settings m' ∧ Cached settings before m') ∧ HitsReceived settings m a := by
    rintro m a m' ⟨hthreads, hcached⟩ hcareful hstep
    exact ⟨⟨hthreads.step hstep, hcached.step hthreads hcareful hstep⟩,
      hcached.hit hempty hcareful⟩
  exact always_of_invariant hkept
    ⟨threads_initial settings before, cached_initial settings before⟩ hcareful

/-- "http://h:1/a" is downloaded, and then a client asks for it. -/
def downloadOfA : List Action :=
  startOfA ++ [.scan, .download 0 .header, .download 0 (.read 1), .download 0 (.open true),
    .download 0 (.write (some 0)), .download 0 (.touchOpen true), .download 0 (.touchClose true),
    .lookUp 0 requestOfA true true]

/-- The client is answered from the cache. -/
theorem hits_received_ofA :
    Always (step small) (fun m a _ => HitsReceived small m a) (initial small fun _ => none)
      downloadOfA :=
  hits_received small (fun _ => none) downloadOfA (fun _ _ => rfl) (by decide +kernel)

/-- The request "http://g:1/a". -/
def requestOfOtherHost : CStr := ⟨[104, 116, 116, 112, 58, 47, 47, 103, 58, 49, 47, 97], by decide⟩

/-- The socket of the download cannot be closed after the last byte, and the file is removed. -/
def removalOfA : List Action :=
  downloadOfA ++ [.download 0 (.nowLocalInMilliSecs true), .download 0 (.finish false),
    .download 0 (.close true), .download 0 (.isFileExisting true), .download 0 (.remove true),
    .runEnds 0]

/-- A hit that stands for nothing shows in the files and in what was received. -/
theorem not_hitsReceived {actions : List Action} {pbHTTPRequest : CStr} (resource : ParsedURL)
    (path : List UInt8) (hresource : resourceOf pbHTTPRequest = some resource)
    (hcheck : ((run (step small) (initial small fun _ => none) actions).any fun m =>
      (step small m (.lookUp 0 pbHTTPRequest true true)).isSome &&
      (match lookUp small m.files pbHTTPRequest true true with
        | .ok (.ok result) => result == (path, true)
        | _ => false) &&
      (m.received.all (fun entry => decide (entry.1 ≠ resource)) ||
        (m.files (small.data path)).isNone)) = true) :
    ¬Always (step small) (fun m a _ => HitsReceived small m a) (initial small fun _ => none)
      (actions ++ [.lookUp 0 pbHTTPRequest true true]) := by
  intro h
  obtain ⟨m, hrun, hcheck⟩ := (Option.any_eq_true _ _).mp hcheck
  rw [Bool.and_eq_true, Bool.and_eq_true, Bool.or_eq_true] at hcheck
  obtain ⟨⟨hstep, hlook⟩, hnothing⟩ := hcheck
  obtain ⟨m', hstep⟩ := Option.isSome_iff_exists.mp hstep
  split at hlook
  · next result hresult =>
    obtain rfl := eq_of_beq hlook
    obtain ⟨body, hbody, hfile⟩ :=
      h.last hrun hstep 0 pbHTTPRequest true true path resource rfl hresult hresource
    rcases hnothing with hreceived | hnone
    · exact of_decide_eq_true (List.all_eq_true.mp hreceived _ hbody) rfl
    · rw [hfile] at hnone
      cases hnone
  · cases hlook

/-- The file is gone, but its marker is there; and the file of another host. -/
theorem not_hits_received :
    ¬Always (step small) (fun m a _ => HitsReceived small m a) (initial small fun _ => none)
        (removalOfA ++ [.lookUp 0 requestOfA true true]) ∧
      ¬Always (step small) (fun m a _ => HitsReceived small m a) (initial small fun _ => none)
        (downloadOfA ++ [.lookUp 0 requestOfOtherHost true true]) :=
  ⟨not_hitsReceived ⟨[104], 1, [47, 97], []⟩ [47, 99, 47, 97] (by decide +kernel) (by decide +kernel),
    not_hitsReceived ⟨[103], 1, [47, 97], []⟩ [47, 99, 47, 97] (by decide +kernel)
      (by decide +kernel)⟩

end HTTPCacheManager

end CatraLibraries
