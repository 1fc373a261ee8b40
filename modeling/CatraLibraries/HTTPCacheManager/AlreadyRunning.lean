/-
# Requests that are already running

A client that is told that its content is not in the cache yet relies on a download: of a request
that waits, or of a thread that runs.  `getLocalPathNameAndCacheContent` looks for the URI in what
the threads remember, and a thread remembers its URI after its download, until it is initialized
again.  So a URI can be left over from a download that failed, and then nobody loads it.
-/
import CatraLibraries.HTTPCacheManager.RequestQueue

namespace CatraLibraries

open Transition

namespace HTTPCacheManager

/-- A thread that runs has a URI. -/
def Downloading (settings : Settings) (m : HTTPCacheManager) (bURI : List UInt8) : Prop :=
  ∃ i < settings.ulMaxConcurrentHTTPRequest,
    (m.pshgtSaveHttpGetThread i).Running ∧ (m.pshgtSaveHttpGetThread i).getInputDetails = bURI

instance (settings : Settings) (m : HTTPCacheManager) (bURI : List UInt8) :
    Decidable (m.Downloading settings bURI) :=
  inferInstanceAs (Decidable (∃ i < _, _))

/-- **What a client relies on.**  When it is told that its content will come, its URI is waiting or
is downloaded. -/
def Promised (settings : Settings) (m : HTTPCacheManager) (a : Action) (m' : HTTPCacheManager) :
    Prop :=
  ∀ k saveHTTPRequestKey client, a = .getContent k saveHTTPRequestKey → m.clients k = some client →
    (m.getContent settings client saveHTTPRequestKey).1 = .ok () →
    m'.Waiting client.url.bRelativePathWithoutParameters ∨
      m'.Downloading settings client.url.bRelativePathWithoutParameters

/-- A URI is left over: threads remember it, none of them runs, and it does not wait. -/
structure LeftOver (settings : Settings) (m : HTTPCacheManager) (bURI : List UInt8) : Prop where
  remembers : m.Remembers settings bURI
  notWaiting : ¬m.Waiting bURI
  notDownloading : ¬m.Downloading settings bURI

/-- The client does not ask for a URI that is left over, or its key cannot be saved. -/
def AsksInTime (settings : Settings) (m : HTTPCacheManager) (a : Action) : Prop :=
  ∀ k client, a = .getContent k true → m.clients k = some client →
    ¬m.LeftOver settings client.url.bRelativePathWithoutParameters

variable {settings : Settings} {m m' : HTTPCacheManager} {client : CacheClient}

theorem keyResult_ok {saveHTTPRequestKey : Bool} (h : keyResult saveHTTPRequestKey = .ok ()) :
    saveHTTPRequestKey = true := by
  cases saveHTTPRequestKey with
  | false => cases h
  | true => rfl

/-- A request that was queued is waiting. -/
theorem waiting_enqueue (client : CacheClient) (i : ℕ) (available : List ℕ) (m : HTTPCacheManager) :
    (m.enqueue client i available).Waiting client.url.bRelativePathWithoutParameters := by
  refine ⟨i, List.mem_append_right _ (List.mem_singleton_self i), ?_⟩
  show (Function.update m.httpRequests i client.httpRequest i).bURI = _
  rw [Function.update_self]
  rfl

/-- **One answer.**  The client can rely on it unless its URI is left over. -/
theorem getContent_promised_iff (m : HTTPCacheManager) (client : CacheClient)
    (saveHTTPRequestKey : Bool) :
    ((m.getContent settings client saveHTTPRequestKey).1 = .ok () →
      (m.getContent settings client saveHTTPRequestKey).2.Waiting
          client.url.bRelativePathWithoutParameters ∨
        (m.getContent settings client saveHTTPRequestKey).2.Downloading settings
          client.url.bRelativePathWithoutParameters) ↔
      (saveHTTPRequestKey = true →
        ¬m.LeftOver settings client.url.bRelativePathWithoutParameters) := by
  unfold getContent
  dsimp only
  by_cases hremembers : m.Remembers settings client.url.bRelativePathWithoutParameters
  · -- a thread remembers the URI: nothing is changed
    rw [if_pos hremembers]
    constructor
    · rintro h rfl hleft
      exact (h rfl).elim hleft.notWaiting hleft.notDownloading
    · intro h hok
      by_contra hboth
      rw [not_or] at hboth
      exact h (keyResult_ok hok) ⟨hremembers, hboth.1, hboth.2⟩
  · rw [if_neg hremembers]
    refine iff_of_true ?_ fun _ hleft => hremembers hleft.remembers
    split
    · next hwaiting => exact fun _ => Or.inl hwaiting
    · split
      · intro h
        cases h
      · next i available havailable => exact fun _ => Or.inl (waiting_enqueue client i available m)

theorem promised_iff {a : Action} (hstep : step settings m a = some m') :
    Promised settings m a m' ↔ AsksInTime settings m a := by
  constructor
  · rintro h k client rfl hclient
    unfold step at hstep
    dsimp only at hstep
    rw [hclient] at hstep
    split at hstep
    · next hsome _ =>
      cases hsome
      cases hstep
      refine (getContent_promised_iff m client true).mp ?_ rfl
      exact h k true client rfl hclient
    · cases hstep
  · rintro h k saveHTTPRequestKey client rfl hclient
    unfold step at hstep
    dsimp only at hstep
    rw [hclient] at hstep
    split at hstep
    · next hsome _ =>
      cases hsome
      cases hstep
      refine (getContent_promised_iff m client saveHTTPRequestKey).mpr ?_
      rintro rfl
      exact h k client rfl hclient
    · cases hstep

/-- **Every answer of a run.**  In a run the clients can rely on all their answers exactly when none
of them asks for a URI that is left over. -/
theorem promised_run_iff (settings : Settings) (files : CacheSaveHttpGetThread.Files (List Paths.Name))
    (actions : List Action) :
    Always (step settings) (Promised settings) (initial settings files) actions ↔
      Always (step settings) (fun m a _ => AsksInTime settings m a) (initial settings files)
        actions := by
  refine always_iff ?_ _ _
  intro m a m' hstep
  exact promised_iff hstep

/-- The download of "http://h:1/a" fails, and a client looks for it again. -/
def failureOfA : List Action :=
  startOfA ++ [.scan, .download 0 .requestFails, .download 0 (.isFileExisting true), .runEnds 0,
    .lookUp 0 requestOfA true true]

/-- The client is told that the content will come, and nobody loads it. -/
theorem not_promised_after_failure :
    ¬Always (step small) (Promised small) (initial small fun _ => none)
      (failureOfA ++ [.getContent 0 true]) := by
  intro h
  have hcheck : ((run (step small) (initial small fun _ => none) failureOfA).any fun m =>
      (step small m (.getContent 0 true)).any fun m' => (m.clients 0).any fun client =>
        keyResult true = (m.getContent small client true).1 ∧
        ¬m'.Waiting client.url.bRelativePathWithoutParameters ∧
        ¬m'.Downloading small client.url.bRelativePathWithoutParameters) = true := by
    decide +kernel
  obtain ⟨m, hrun, hcheck⟩ := (Option.any_eq_true _ _).mp hcheck
  obtain ⟨m', hstep, hcheck⟩ := (Option.any_eq_true _ _).mp hcheck
  obtain ⟨client, hclient, hcheck⟩ := (Option.any_eq_true _ _).mp hcheck
  obtain ⟨hok, hwaiting, hdownloading⟩ := of_decide_eq_true hcheck
  exact (h.last hrun hstep 0 true client rfl hclient hok.symm).elim hwaiting hdownloading

end HTTPCacheManager

end CatraLibraries
