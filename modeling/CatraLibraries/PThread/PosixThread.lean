/-
# Threads

The status of a `PosixThread` and what `start`, `cancel` and the end of `runFunction` do with it.
`start` sets the status before the thread is created, so that a thread that is over at once finds
the status it replaces.  A detached thread deletes its object.
-/
import Mathlib.Init

namespace CatraLibraries

/-- `PThreadStatus_t`. -/
inductive PThreadStatus
  | builded
  | initialized
  | started
  | startedAndJoined
  | detached
  | initializedAgainAfterRunning
  deriving DecidableEq, Repr

namespace PThreadStatus

/-- What `start` and `finish` take for a thread that does not run. -/
def Ready (status : PThreadStatus) : Prop :=
  status = .initialized ∨ status = .initializedAgainAfterRunning

instance (status : PThreadStatus) : Decidable status.Ready := inferInstanceAs (Decidable (_ ∨ _))

/-- `start`, up to `pthread_create`; `created` is its outcome.  The first component says whether
the thread runs. -/
def start (bToBeDetached created : Bool) (status : PThreadStatus) : Bool × PThreadStatus :=
  if ¬status.Ready then (false, status)
  else if created = false then (false, .initialized)
  else (true, if bToBeDetached then .detached else .started)

/-- The end of `runFunction`: the object of a detached thread is deleted. -/
def runFunctionEnds : PThreadStatus → Option PThreadStatus
  | .detached => none
  | _ => some .initializedAgainAfterRunning

/-- `cancel`: whether `pthread_cancel` is called. -/
def cancel (status : PThreadStatus) : Bool := status = .started

end PThreadStatus

end CatraLibraries
