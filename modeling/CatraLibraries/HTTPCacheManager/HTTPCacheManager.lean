/-
# The manager and its threads

The clients of an `HTTPCacheManager`, its dispatcher (`HTTPCacheManager::run`) and the threads of
the downloads.  A client looks at the cache without the lock of the requests, and takes it for the
rest of `getLocalPathNameAndCacheContent`.  The dispatcher keeps the lock for a whole round; the
threads take no lock, so what they do comes between any two steps of the others.

A step is what one of them does without looking at the state again; the calls that can fail have
their outcomes in the action.
-/
import CatraLibraries.PThread.PosixThread
import CatraLibraries.HTTPCacheManager.LocalPaths
import CatraLibraries.HTTPCacheManager.CompleteMarker

namespace CatraLibraries

open Memory CString Paths WebUtility Transition
open CacheSaveHttpGetThread (Files Download DownloadEvent completedPath)

/-- `HTTPRequest_t`. -/
structure HTTPRequest where
  bHTTPHost : List UInt8
  lHTTPPort : Int
  bHTTPRequestURL : List UInt8
  bURI : List UInt8
  bURLParameters : List UInt8
  bHTTPLocalPathName : List UInt8
  deriving DecidableEq, Repr

/-- The resource that a request asks for. -/
def HTTPRequest.resource (request : HTTPRequest) : ParsedURL where
  pServer := request.bHTTPHost
  lPort := request.lHTTPPort
  bRelativePathWithoutParameters := request.bURI
  bURLParameters := request.bURLParameters

/-- A thread for downloads; `sStatus` says whether it is initialized, and `_bHttpURI` is none
while its buffer is.  `body` is what the server sends. -/
structure SaveHttpGetThread where
  sStatus : Bool
  stPThreadStatus : PThreadStatus
  pWebServer : List UInt8
  lWebServerPort : Int
  bHttpURI : Option (List UInt8)
  bURLParameters : List UInt8
  bDestinationPathName : List UInt8
  download : Download
  body : List UInt8
  bContentLengthInitialized : Bool
  deriving DecidableEq, Repr

namespace SaveHttpGetThread

/-- A thread as it is constructed. -/
def builded : SaveHttpGetThread where
  sStatus := false
  stPThreadStatus := .builded
  pWebServer := []
  lWebServerPort := -1
  bHttpURI := none
  bURLParameters := []
  bDestinationPathName := []
  download := .start
  body := []
  bContentLengthInitialized := false

/-- The status that the dispatcher passes over. -/
def Running (thread : SaveHttpGetThread) : Prop :=
  thread.stPThreadStatus = .started ∨ thread.stPThreadStatus = .startedAndJoined

instance (thread : SaveHttpGetThread) : Decidable thread.Running := inferInstanceAs (Decidable (_ ∨ _))

/-- `getInputDetails`, of the URI: a buffer that is not initialized reads as an empty text. -/
def getInputDetails (thread : SaveHttpGetThread) : List UInt8 := thread.bHttpURI.getD []

/-- What a thread downloads. -/
def resource (thread : SaveHttpGetThread) : ParsedURL where
  pServer := thread.pWebServer
  lPort := thread.lWebServerPort
  bRelativePathWithoutParameters := thread.getInputDetails
  bURLParameters := thread.bURLParameters

/-- `finish`, for a thread whose `sStatus` is initialized; `attrDestroy` is the outcome of
`pthread_attr_destroy`. -/
def finish (attrDestroy : Bool) (thread : SaveHttpGetThread) : SaveHttpGetThread :=
  if (thread.stPThreadStatus = .initialized ∨
      thread.stPThreadStatus = .initializedAgainAfterRunning ∨
      thread.stPThreadStatus = .detached) ∧ attrDestroy = true then
    { thread with
      sStatus := false, stPThreadStatus := .builded, bHttpURI := none, bDestinationPathName := [] }
  else thread

/-- `HttpGetThread::init`, with the outcome of `pthread_attr_init`. -/
def httpGetInit (request : HTTPRequest) (attrInit : Bool) (thread : SaveHttpGetThread) :
    Bool × SaveHttpGetThread :=
  if HTTPCacheManager.maxHostNameLength ≤ request.bHTTPHost.length ∨ request.lHTTPPort ≤ 0 then
    (false, thread)
  else
    let thread :=
      { thread with pWebServer := request.bHTTPHost, lWebServerPort := request.lHTTPPort }
    -- the buffer of a thread that was not finished is not initialized again
    if thread.bHttpURI.isSome then (false, thread)
    else if thread.stPThreadStatus ≠ .builded ∨ attrInit = false then (false, thread)
    else
      (true, { thread with
        stPThreadStatus := .initialized
        bHttpURI := some request.bURI
        bURLParameters := request.bURLParameters })

/-- `init`, with the outcomes of `pthread_attr_destroy` and `pthread_attr_init`. -/
def init (request : HTTPRequest) (attrDestroy attrInit : Bool) (thread : SaveHttpGetThread) :
    Bool × SaveHttpGetThread :=
  let thread := if thread.sStatus then thread.finish attrDestroy else thread
  if request.bHTTPLocalPathName = [] then (false, thread)
  else
    let result :=
      { thread with bDestinationPathName := request.bHTTPLocalPathName }.httpGetInit request attrInit
    (result.1, { result.2 with sStatus := result.1 || result.2.sStatus })

/-- `start`, with the outcomes of `pthread_attr_setdetachstate` and `pthread_create`. -/
def start (setDetachState create : Bool) (body : List UInt8) (bContentLengthInitialized : Bool)
    (thread : SaveHttpGetThread) : Bool × SaveHttpGetThread :=
  if thread.stPThreadStatus ≠ .initialized ∧
      thread.stPThreadStatus ≠ .initializedAgainAfterRunning then (false, thread)
  else if setDetachState = false then (false, thread)
  else if create = false then (false, { thread with stPThreadStatus := .initialized })
  else
    (true, { thread with
      stPThreadStatus := .started
      download := .start
      body := body
      bContentLengthInitialized := bContentLengthInitialized })

end SaveHttpGetThread

namespace HTTPCacheManager

/-- A client between its look at the cache and the lock. -/
structure CacheClient where
  pbHTTPRequest : CStr
  pbHTTPLocalPathName : List UInt8
  url : ParsedURL

/-- Where the dispatcher is; it has the lock unless it is sleeping. -/
inductive Dispatcher
  | sleeping
  | scanning (ulHTTPRequestIndex : ℕ)
  | initializing (ulHTTPRequestIndex : ℕ)
  | starting (ulHTTPRequestIndex : ℕ)
  deriving DecidableEq, Repr

/-- What the manager is initialized with, and the working directory. -/
structure Settings where
  ulHTTPRequestsQueueSize : ℕ
  ulMaxConcurrentHTTPRequest : ℕ
  pCacheDirectory : CStr
  cwd : List Name

end HTTPCacheManager

open HTTPCacheManager (CacheClient Dispatcher)

/-- The manager with its clients, threads and files.  The last three members are its history: the
requests that were queued and dispatched, and the resources whose last byte was received. -/
structure HTTPCacheManager where
  httpRequests : ℕ → HTTPRequest
  vAvailableHTTPRequests : List ℕ
  vWaitingQueueHTTPRequests : List ℕ
  pshgtSaveHttpGetThread : ℕ → SaveHttpGetThread
  clients : ℕ → Option CacheClient
  dispatcher : Dispatcher
  files : Files (List Name)
  queued : List HTTPRequest
  dispatched : List HTTPRequest
  received : List (ParsedURL × List UInt8)

namespace HTTPCacheManager

/-- The actions; the truth values are the outcomes of calls. -/
inductive Action
  | lookUp (client : ℕ) (pbHTTPRequest : CStr) (createDirectory isFileExisting : Bool)
  | getContent (client : ℕ) (saveHTTPRequestKey : Bool)
  | lock
  | scan
  | init (attrDestroy attrInit : Bool)
  | start (setDetachState create : Bool) (body : List UInt8) (bContentLengthInitialized : Bool)
  | download (ulHTTPRequestIndex : ℕ) (event : DownloadEvent)
  | runEnds (ulHTTPRequestIndex : ℕ)

/-- The manager after its initialization, with the files that are there. -/
def initial (settings : Settings) (files : Files (List Name)) : HTTPCacheManager where
  httpRequests := fun _ => ⟨[], 0, [], [], [], []⟩
  vAvailableHTTPRequests := List.range settings.ulHTTPRequestsQueueSize
  vWaitingQueueHTTPRequests := []
  pshgtSaveHttpGetThread := fun _ => .builded
  clients := fun _ => none
  dispatcher := .sleeping
  files := files
  queued := []
  dispatched := []
  received := []

/-- The name of the file with a path. -/
def Settings.data (settings : Settings) (path : List UInt8) : List Name := resolve settings.cwd path

/-- The name of the marker of a path. -/
def Settings.marker (settings : Settings) (path : List UInt8) : List Name :=
  resolve settings.cwd (completedPath path)

/-! ### The clients -/

/-- The part of `getLocalPathNameAndCacheContent` without the lock: the local path of the request,
and whether it is in the cache already. -/
def lookUp (settings : Settings) (files : Files (List Name)) (pbHTTPRequest : CStr)
    (createDirectory isFileExisting : Bool) :
    Except Fault (Except HTTPCacheManagerError (List UInt8 × Bool)) := do
  match ← getLocalPathName (bCacheDirectory settings.pCacheDirectory) (fun _ => createDirectory)
      pbHTTPRequest with
  | .error e => return .error e
  | .ok pbHTTPLocalPathName =>
    if isFileExisting then
      return .ok (pbHTTPLocalPathName, (files (settings.marker pbHTTPLocalPathName)).isSome)
    else return .error .isFileExistingFailed

/-- Some thread was given a URI, and has not lost it since. -/
def Remembers (settings : Settings) (m : HTTPCacheManager) (bReceivedURI : List UInt8) : Prop :=
  ∃ i < settings.ulMaxConcurrentHTTPRequest,
    (m.pshgtSaveHttpGetThread i).getInputDetails = bReceivedURI

instance (settings : Settings) (m : HTTPCacheManager) (bReceivedURI : List UInt8) :
    Decidable (m.Remembers settings bReceivedURI) :=
  inferInstanceAs (Decidable (∃ i < _, _))

/-- A URI is waiting. -/
def Waiting (m : HTTPCacheManager) (bReceivedURI : List UInt8) : Prop :=
  ∃ i ∈ m.vWaitingQueueHTTPRequests, (m.httpRequests i).bURI = bReceivedURI

instance (m : HTTPCacheManager) (bReceivedURI : List UInt8) :
    Decidable (m.Waiting bReceivedURI) :=
  inferInstanceAs (Decidable (∃ i ∈ _, _))

/-- What is written into a record. -/
def CacheClient.httpRequest (client : CacheClient) : HTTPRequest where
  bHTTPHost := client.url.pServer
  lHTTPPort := client.url.lPort
  bHTTPRequestURL := client.pbHTTPRequest.bytes
  bURI := client.url.bRelativePathWithoutParameters
  bURLParameters := client.url.bURLParameters
  bHTTPLocalPathName := client.pbHTTPLocalPathName

/-- The first available record becomes the last waiting one. -/
def enqueue (client : CacheClient) (i : ℕ) (available : List ℕ) (m : HTTPCacheManager) :
    HTTPCacheManager :=
  { m with
    httpRequests := Function.update m.httpRequests i client.httpRequest
    vAvailableHTTPRequests := available
    vWaitingQueueHTTPRequests := m.vWaitingQueueHTTPRequests ++ [i]
    queued := m.queued ++ [client.httpRequest] }

/-- The result of `saveHTTPRequestKey`; it succeeds where no key is given. -/
def keyResult (saveHTTPRequestKey : Bool) : Except HTTPCacheManagerError Unit :=
  if saveHTTPRequestKey then .ok () else .error .saveHTTPRequestKeyFailed

/-- The part of `getLocalPathNameAndCacheContent` with the lock, where `*pbAlreadyInCache` is
false. -/
def getContent (settings : Settings) (client : CacheClient) (saveHTTPRequestKey : Bool)
    (m : HTTPCacheManager) : Except HTTPCacheManagerError Unit × HTTPCacheManager :=
  let bReceivedURI := client.url.bRelativePathWithoutParameters
  -- the thread may have ended
  if m.Remembers settings bReceivedURI then (keyResult saveHTTPRequestKey, m)
  else if m.Waiting bReceivedURI then (keyResult saveHTTPRequestKey, m)
  else
    match m.vAvailableHTTPRequests with
    | [] => (.error (.noMoreHTTPRequestAvailable settings.ulHTTPRequestsQueueSize), m)
    | i :: available => (keyResult saveHTTPRequestKey, m.enqueue client i available)

/-! ### The dispatcher -/

/-- A thread was started: the first waiting record becomes available again. -/
def dispatch (i : ℕ) (waiting : List ℕ) (ulHTTPRequestIndex : ℕ) (thread : SaveHttpGetThread)
    (m : HTTPCacheManager) : HTTPCacheManager :=
  { m with
    vAvailableHTTPRequests := m.vAvailableHTTPRequests ++ [i]
    vWaitingQueueHTTPRequests := waiting
    pshgtSaveHttpGetThread :=
      Function.update m.pshgtSaveHttpGetThread ulHTTPRequestIndex thread
    dispatcher := .scanning (ulHTTPRequestIndex + 1)
    dispatched := m.dispatched ++ [m.httpRequests i] }

/-- A step of the round over the requests and the threads. -/
def scan (settings : Settings) (ulHTTPRequestIndex : ℕ) (m : HTTPCacheManager) : HTTPCacheManager :=
  { m with
    dispatcher :=
      if m.vWaitingQueueHTTPRequests = [] then .sleeping
      else if ulHTTPRequestIndex < settings.ulMaxConcurrentHTTPRequest ∧
          (m.pshgtSaveHttpGetThread ulHTTPRequestIndex).Running then
        .scanning (ulHTTPRequestIndex + 1)
      else if ulHTTPRequestIndex = settings.ulMaxConcurrentHTTPRequest then .sleeping
      else .initializing ulHTTPRequestIndex }

/-- A thread is initialized with a request. -/
def initThread (ulHTTPRequestIndex : ℕ) (request : HTTPRequest) (attrDestroy attrInit : Bool)
    (m : HTTPCacheManager) : HTTPCacheManager :=
  let result := (m.pshgtSaveHttpGetThread ulHTTPRequestIndex).init request attrDestroy attrInit
  { m with
    pshgtSaveHttpGetThread :=
      Function.update m.pshgtSaveHttpGetThread ulHTTPRequestIndex result.2
    dispatcher := if result.1 then .starting ulHTTPRequestIndex else .sleeping }

/-- A thread cannot be started: the round is over, and the request goes on waiting. -/
def startFails (ulHTTPRequestIndex : ℕ) (thread : SaveHttpGetThread) (m : HTTPCacheManager) :
    HTTPCacheManager :=
  { m with
    pshgtSaveHttpGetThread :=
      Function.update m.pshgtSaveHttpGetThread ulHTTPRequestIndex thread
    dispatcher := .sleeping }

/-! ### The threads -/

/-- A step of a download. -/
def downloadStep (settings : Settings) (ulHTTPRequestIndex : ℕ) (event : DownloadEvent)
    (m : HTTPCacheManager) : Option HTTPCacheManager :=
  let thread := m.pshgtSaveHttpGetThread ulHTTPRequestIndex
  (CacheSaveHttpGetThread.step thread.body thread.bContentLengthInitialized
      (settings.data thread.bDestinationPathName) (settings.marker thread.bDestinationPathName)
      (thread.download, m.files) event).map fun (download, files) =>
    { m with
      pshgtSaveHttpGetThread :=
        Function.update m.pshgtSaveHttpGetThread ulHTTPRequestIndex
          { thread with download := download }
      files := files
      received :=
        if download.phase = .touching then m.received ++ [(thread.resource, thread.body)]
        else m.received }

/-- The end of `runFunction`. -/
def runEnds (ulHTTPRequestIndex : ℕ) (m : HTTPCacheManager) : HTTPCacheManager :=
  { m with
    pshgtSaveHttpGetThread :=
      Function.update m.pshgtSaveHttpGetThread ulHTTPRequestIndex
        { m.pshgtSaveHttpGetThread ulHTTPRequestIndex with
          stPThreadStatus := .initializedAgainAfterRunning } }

/-! ### Steps -/

/-- One step of a client, of the dispatcher or of a thread. -/
def step (settings : Settings) (m : HTTPCacheManager) : Action → Option HTTPCacheManager
  | .lookUp k pbHTTPRequest createDirectory isFileExisting =>
    match m.clients k, lookUp settings m.files pbHTTPRequest createDirectory isFileExisting,
        parseURL pbHTTPRequest maxHostNameLength with
    | none, .ok (.ok (pbHTTPLocalPathName, false)), .ok (.ok url) =>
      some { m with
        clients := Function.update m.clients k (some ⟨pbHTTPRequest, pbHTTPLocalPathName, url⟩) }
    | none, .ok _, .ok _ => some m
    | _, _, _ => none
  | .getContent k saveHTTPRequestKey =>
    match m.clients k, m.dispatcher with
    | some client, .sleeping =>
      some { (m.getContent settings client saveHTTPRequestKey).2 with
        clients := Function.update m.clients k none }
    | _, _ => none
  | .lock =>
    match m.dispatcher with
    | .sleeping =>
      some { m with
        dispatcher := if m.vWaitingQueueHTTPRequests = [] then .sleeping else .scanning 0 }
    | _ => none
  | .scan =>
    match m.dispatcher with
    | .scanning i => some (m.scan settings i)
    | _ => none
  | .init attrDestroy attrInit =>
    match m.dispatcher, m.vWaitingQueueHTTPRequests with
    | .initializing i, r :: _ => some (m.initThread i (m.httpRequests r) attrDestroy attrInit)
    | _, _ => none
  | .start setDetachState create body bContentLengthInitialized =>
    match m.dispatcher, m.vWaitingQueueHTTPRequests with
    | .starting i, r :: waiting =>
      let (ok, thread) :=
        (m.pshgtSaveHttpGetThread i).start setDetachState create body bContentLengthInitialized
      if ok then some (m.dispatch r waiting i thread) else some (m.startFails i thread)
    | _, _ => none
  | .download i event =>
    if (m.pshgtSaveHttpGetThread i).Running then m.downloadStep settings i event else none
  | .runEnds i =>
    if (m.pshgtSaveHttpGetThread i).Running ∧
        (m.pshgtSaveHttpGetThread i).download.phase = .finished then
      some (m.runEnds i)
    else none

end HTTPCacheManager

end CatraLibraries
