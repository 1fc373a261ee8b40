/-
# What the threads of the connections manager are at

The phase of a thread says which session it is concerned with, and how far it has come: a
connection is accepted, its event is handled or its proxy thread runs, with a response that is
finished or not, or the session is put back in the free ones.  The programs make every call in
the phase where it belongs, so what the threads do to each other is seen from the phases alone.

A handler whose socket is in the sockets pool again, or whose request a proxy thread answers, has
finished, like one whose response is.
-/
import CatraLibraries.ConnectionsManager.ConnectionTraffic

namespace CatraLibraries

open Threads

/-- The phase of a thread; `working` says that the response is not finished. -/
inductive ConnectionPhase
  | idle
  | accepted (ulConnectionIdentifier : Nat)
  | handling (ci : ConnectionInformation) (working : Bool)
  | proxying (ci : ConnectionInformation) (working : Bool)
  | puttingBack (ulConnectionIdentifier : Nat)
  deriving DecidableEq

namespace ConnectionPhase

/-- The response is finished. -/
def finished : ConnectionPhase → ConnectionPhase
  | handling ci _ => handling ci false
  | proxying ci _ => proxying ci false
  | l => l

/-- After a response, which may be the last one, has been written or not. -/
def afterResponse (bIsResponseFinished written : Bool) (l : ConnectionPhase) : ConnectionPhase :=
  if bIsResponseFinished = true ∧ written = true then l.finished else l

/-- After `releaseConnection`; only the check of unused connections looks at the error. -/
def afterRelease (ulConnectionIdentifier : Nat) (err : ReleaseError) (l : ConnectionPhase) :
    ConnectionPhase :=
  if err = .socketFailed ∧ l = idle then idle else puttingBack ulConnectionIdentifier

/-- The thread handles an event or runs a proxy thread, with this information. -/
def Holds (l : ConnectionPhase) (ci : ConnectionInformation) : Prop :=
  ∃ working, l = handling ci working ∨ l = proxying ci working

/-- Where `releaseConnection` is called: without the deletion from the sockets pool by a thread
that has a connection and has not answered, with it by a handler or by the check of unused
connections. -/
def Releases (ulConnectionIdentifier : Nat) (bDeleteFromSocketsPool : Bool)
    (l : ConnectionPhase) : Prop :=
  match bDeleteFromSocketsPool with
  | false =>
    l = accepted ulConnectionIdentifier ∨
      ∃ ci, ci.psSession = ulConnectionIdentifier ∧ l = handling ci true
  | true => l = idle ∨ ∃ ci working, ci.psSession = ulConnectionIdentifier ∧ l = handling ci working

theorem afterResponse_eq (bIsResponseFinished written : Bool) (l : ConnectionPhase) :
    l.afterResponse bIsResponseFinished written = l.finished ∨
      l.afterResponse bIsResponseFinished written = l := ite_eq_or_eq ..

theorem Holds.finished {l : ConnectionPhase} {ci : ConnectionInformation} (h : l.Holds ci) :
    l.finished.Holds ci := by
  obtain ⟨working, rfl | rfl⟩ := h
  · exact ⟨false, Or.inl rfl⟩
  · exact ⟨false, Or.inr rfl⟩

end ConnectionPhase

/-- The phases in which an operation is called. -/
def ConnectionOp.Allowed (op : ConnectionOp) (l : ConnectionPhase) : Prop :=
  match op with
  | .accept | .takeEvent | .takeProxy | .updateSocketStatus => l = .idle
  | .initEvent ulConnectionIdentifier => l = .accepted ulConnectionIdentifier
  | .readRequest ci | .startProxy ci => l = .handling ci true
  | .writeResponse ci _ => l.Holds ci
  | .releaseConnection ulConnectionIdentifier bDeleteFromSocketsPool =>
    l.Releases ulConnectionIdentifier bDeleteFromSocketsPool
  | .insertFreeSession ulConnectionIdentifier _ => l = .puttingBack ulConnectionIdentifier
  | _ => True

/-- The phase after an operation. -/
def ConnectionOp.next : (op : ConnectionOp) → op.Result → ConnectionPhase → ConnectionPhase
  | .accept, r, l =>
    match (r : AcceptResult) with
    | .accepted ulConnectionIdentifier => .accepted ulConnectionIdentifier
    | _ => l
  | .initEvent _, r, l =>
    match (r : Option ConnectionInformation) with
    | some ci => .handling ci true
    | none => l
  | .takeEvent, r, l =>
    match (r : Option ConnectionInformation) with
    | some ci => .handling ci true
    | none => l
  | .takeProxy, r, l =>
    match (r : Option ConnectionInformation) with
    | some ci => .proxying ci true
    | none => l
  | .readRequest _, r, l =>
    match (r : ReadError) with
    | .headerTimeoutExpired => l.finished
    | _ => l
  | .writeResponse _ bIsResponseFinished, written, l => l.afterResponse bIsResponseFinished written
  | .startProxy _, _, l => l.finished
  | .releaseConnection ulConnectionIdentifier _, err, l => l.afterRelease ulConnectionIdentifier err
  | .insertFreeSession _ _, _, _ => .idle
  | .endHandling, _, _ => .idle
  | _, _, l => l

/-- The calls of the programs and their phases. -/
def connectionDiscipline : Discipline ConnectionOp ConnectionOp.Result ConnectionPhase where
  idle := .idle
  allowed := ConnectionOp.Allowed
  next := ConnectionOp.next

namespace ConnectionProg

variable {α : Type}

/-- The program makes its calls where they belong, and ends idle. -/
abbrev EndsIdle (p : ConnectionProg α) (l : ConnectionPhase) : Prop :=
  connectionDiscipline.Respects p l fun _ l => l = .idle

open Discipline ConnectionPhase

variable {ci : ConnectionInformation} {l : ConnectionPhase}

/-- An outcome or a number comes before the rest. -/
theorem endsIdle_outcome {f : Bool → ConnectionProg α} (h : ∀ b, EndsIdle (f b) l) :
    EndsIdle (outcome >>= f) l := respects_lift trivial h

theorem endsIdle_endHandling (a : α) : EndsIdle (endHandling >>= fun _ => pure a) l :=
  respects_lift trivial fun _ => rfl

theorem endsIdle_giveBack (ulConnectionIdentifier : Nat) {bDeleteFromSocketsPool : Bool}
    (h : l.Releases ulConnectionIdentifier bDeleteFromSocketsPool) (hl : l ≠ .idle) :
    EndsIdle (giveBack ulConnectionIdentifier bDeleteFromSocketsPool) l := by
  refine respects_lift h fun err => ?_
  have hnext : l.afterRelease ulConnectionIdentifier err = .puttingBack ulConnectionIdentifier :=
    if_neg fun h => hl h.2
  refine respects_lift ?_ fun _ => rfl
  exact hnext

/-- Writing responses goes on with the same connection. -/
theorem respects_writeResponses (n : Nat) (h : l.Holds ci) :
    connectionDiscipline.Respects (writeResponses ci n) l fun _ l' =>
      l'.Holds ci ∧ (∀ w, l = .handling ci w → ∃ w', l' = .handling ci w') := by
  induction n generalizing l with
  | zero => exact ⟨h, fun w hw => ⟨w, hw⟩⟩
  | succ n ih =>
    refine respects_lift trivial fun fin => ?_
    refine respects_lift h fun written => ?_
    show connectionDiscipline.Respects (writeResponses ci n) (l.afterResponse fin written) _
    rcases afterResponse_eq fin written l with hnext | hnext
    · rw [hnext]
      refine wp_mono _ (fun _ l' hl' => ⟨hl'.1, ?_⟩) (ih h.finished)
      rintro w rfl
      exact hl'.2 false rfl
    · rw [hnext]
      exact ih h

theorem endsIdle_afterError (w : Bool) : EndsIdle (afterError ci) (.handling ci w) := by
  refine endsIdle_outcome fun close => ?_
  cases close with
  | true =>
    refine respects_bind (endsIdle_giveBack ci.psSession (Or.inr ⟨ci, w, rfl, rfl⟩) ?_) ?_
    · exact fun h => ConnectionPhase.noConfusion h
    · exact fun _ _ hl => hl
  | false => exact endsIdle_endHandling true

theorem endsIdle_processReceivedRequest (w : Bool) :
    EndsIdle (processReceivedRequest ci) (.handling ci w) := by
  refine respects_lift trivial fun n => ?_
  refine respects_bind (respects_writeResponses n ⟨w, Or.inl rfl⟩) fun _ l hl => ?_
  obtain ⟨w', rfl⟩ := hl.2 w rfl
  refine endsIdle_outcome fun processed => ?_
  cases processed with
  | true => exact endsIdle_endHandling true
  | false => exact endsIdle_afterError w'

theorem endsIdle_manageHTTPProxyRequest :
    EndsIdle (manageHTTPProxyRequest ci) (.handling ci true) := by
  refine endsIdle_outcome fun notToBeProxied => ?_
  cases notToBeProxied with
  | true => exact endsIdle_processReceivedRequest true
  | false =>
    refine endsIdle_outcome fun started => ?_
    cases started with
    | true => exact respects_lift rfl fun _ => endsIdle_endHandling true
    | false =>
      refine endsIdle_outcome fun sends => ?_
      cases sends with
      | true =>
        refine respects_lift ⟨true, Or.inl rfl⟩ fun written => ?_
        cases written with
        | true => exact endsIdle_afterError false
        | false => exact endsIdle_afterError true
      | false => exact endsIdle_afterError true

theorem endsIdle_handleConnectionReadyToReadEvent (bIsHTTPProxyEnabled : Bool)
    (ci : ConnectionInformation) :
    EndsIdle (handleConnectionReadyToReadEvent bIsHTTPProxyEnabled ci) (.handling ci true) := by
  have hrelease : (handling ci true).Releases ci.psSession false := Or.inr ⟨ci, rfl, rfl⟩
  have hidle : handling ci true ≠ .idle := fun h => ConnectionPhase.noConfusion h
  refine respects_lift rfl fun read => ?_
  cases read with
  | eofReached =>
    exact respects_bind (endsIdle_giveBack ci.psSession hrelease hidle) fun _ _ hl => hl
  | headerTimeoutExpired => exact endsIdle_endHandling true
  | requestNotReadBecauseOldSocket => exact endsIdle_endHandling false
  | failed =>
    exact respects_bind (endsIdle_giveBack ci.psSession hrelease hidle) fun _ _ hl => hl
  | errNoError =>
    cases bIsHTTPProxyEnabled with
    | true => exact endsIdle_manageHTTPProxyRequest
    | false => exact endsIdle_processReceivedRequest true

theorem endsIdle_acceptLoop (bIsHTTPProxyEnabled : Bool) (n : Nat) :
    EndsIdle (acceptLoop bIsHTTPProxyEnabled n) .idle := by
  induction n with
  | zero => exact rfl
  | succ n ih =>
    refine endsIdle_outcome fun inTime => ?_
    cases inTime with
    | false => exact rfl
    | true =>
      refine respects_lift rfl fun err => ?_
      cases err with
      | failed => exact rfl
      | notConnectionToAccept => exact rfl
      | accepted ulConnectionIdentifier =>
        refine respects_lift rfl fun pevConnection => ?_
        cases pevConnection with
        | none =>
          refine respects_bind (endsIdle_giveBack ulConnectionIdentifier (Or.inl rfl) ?_) ?_
          · exact fun h => ConnectionPhase.noConfusion h
          · exact fun _ _ hl => hl
        | some ci =>
          refine respects_bind (endsIdle_handleConnectionReadyToReadEvent _ ci) ?_
          rintro handled l rfl
          cases handled with
          | false => exact rfl
          | true =>
            refine endsIdle_outcome fun finished => ?_
            cases finished with
            | false => exact rfl
            | true =>
              refine endsIdle_outcome fun inTime => ?_
              cases inTime with
              | true => exact ih
              | false => exact rfl

theorem endsIdle_checkUnusedSockets (tNowInSeconds ulMaxTTLSession : Nat) (ids : List Nat) :
    EndsIdle (checkUnusedSockets tNowInSeconds ulMaxTTLSession ids) .idle := by
  induction ids with
  | nil => exact rfl
  | cons ulConnectionIdentifier rest ih =>
    refine respects_lift trivial fun old => ?_
    obtain ⟨bIsFreeSession, bIsOld⟩ := old
    cases bIsFreeSession with
    | true => exact ih
    | false =>
      cases bIsOld with
      | false => exact ih
      | true =>
        refine respects_lift (Or.inl rfl) fun err => ?_
        cases err with
        | socketFailed => exact rfl
        | errNoError => exact respects_lift rfl fun _ => ih
        | deleteSocketFailed => exact respects_lift rfl fun _ => ih

theorem endsIdle_updateSockets (n : Nat) : EndsIdle (updateSockets n) .idle := by
  induction n with
  | zero => exact rfl
  | succ n ih => exact respects_lift rfl fun _ => ih

end ConnectionProg

open ConnectionProg Discipline in
/-- **The programs** make their calls where they belong. -/
theorem ConnectionTask.endsIdle_body (cfg : ProcessorConfiguration) (task : ConnectionTask) :
    EndsIdle (task.body cfg) .idle := by
  cases task with
  | connectionToAccept =>
    exact respects_bind (endsIdle_acceptLoop _ _) fun _ _ hl => hl
  | connectionReadyToRead =>
    refine respects_lift rfl fun pevConnection => ?_
    cases pevConnection with
    | none => exact rfl
    | some ci =>
      exact respects_bind (endsIdle_handleConnectionReadyToReadEvent _ ci) fun _ _ hl => hl
  | checkUnusedSockets =>
    refine respects_lift trivial fun tNowInSeconds => ?_
    exact respects_bind (endsIdle_checkUnusedSockets _ _ _) fun _ _ hl => hl
  | checkSocketsPool => exact respects_lift trivial fun n => endsIdle_updateSockets n
  | httpProxyThread =>
    refine respects_lift rfl fun proxy => ?_
    cases proxy with
    | none => exact rfl
    | some ci =>
      refine respects_lift trivial fun n => ?_
      refine respects_bind (respects_writeResponses n ⟨true, Or.inr rfl⟩) fun _ l _ => ?_
      exact respects_lift trivial fun _ => rfl

/-- The threads of the connections manager. -/
def connectionTraffic (cfg : ProcessorConfiguration) :
    System ConnectionOp ConnectionOp.Result ConnectionPhase ConnectionsManager ConnectionTask
      ConnectionChoice :=
  connectionDiscipline.system (ConnectionTask.body cfg) ConnectionOp.exec

/-- A state of the connections manager with its threads. -/
abbrev ConnectionState (T : Type) :=
  State ConnectionOp ConnectionOp.Result ConnectionPhase ConnectionsManager T

namespace ConnectionState

variable {T : Type}

/-- After `init`, with the threads idle. -/
def initial (T : Type) (cfg : ProcessorConfiguration) : ConnectionState T :=
  ⟨.initial cfg, fun _ => none⟩

/-- What a thread is at. -/
def phase (s : ConnectionState T) : T → ConnectionPhase := connectionDiscipline.phase s

theorem kept_initial (cfg : ProcessorConfiguration) :
    connectionDiscipline.Kept (initial T cfg) := by
  intro t th hth
  cases hth

end ConnectionState

end CatraLibraries
