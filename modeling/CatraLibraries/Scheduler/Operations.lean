/-
# What an operation of the scheduler leaves behind

The methods of `Scheduler/src/Scheduler.cpp` lock the mutex and unlock it again by hand on every
way out.  An operation restores the scheduler when the depth of the lock is the one it began
with and, where it returns an error, the status and the list too.

Three methods do not: `start` sets the status before the thread is created and leaves it when
that fails, and both `deactiveTimes` check their argument before they lock, but unlock when the
check fails.  Where the thread holds the mutex, as the `handleTimeOut` of a pass does, that is
one unlock too many.  `restores_iff` says that there is nothing else.
-/
import CatraLibraries.Scheduler.Registration

namespace CatraLibraries

open Memory

/-- The errors of the operations: a code of the scheduler, or the error that
`PosixThread::start` returns and `start` hands on. -/
inductive OperationError
  | scheduler (code : SchedulerCode)
  | threadlibStart
  deriving DecidableEq, Repr

namespace Scheduler

/-! ### The operations -/

/-- The common body of the methods that change the status. -/
def changeStatus (allowed : SchedulerStatus → Bool) (status : SchedulerStatus) (s : Scheduler) :
    Reply Scheduler :=
  let s := s.lock
  if ¬allowed s.schedulerStatus then
    (.error (.schOperationNotAllowed s.schedulerStatus), s.unLock)
  else
    let s := { s with schedulerStatus := status }
    (.ok (), s.unLock)

/-- `start`; `threadStarts` says whether `PosixThread::start` succeeds. -/
def start (threadStarts : Bool) (s : Scheduler) : Except OperationError Unit × Scheduler :=
  match s.changeStatus (· = .schedulerInitialized) .schedulerStarted with
  | (.error e, s) => (.error (.scheduler e), s)
  | (.ok (), s) => if threadStarts then (.ok (), s) else (.error .threadlibStart, s)

/-- `suspend`. -/
def suspend : Scheduler → Reply Scheduler :=
  changeStatus (· = .schedulerStarted) .schedulerSuspended

/-- `resume`. -/
def resume : Scheduler → Reply Scheduler :=
  changeStatus (· = .schedulerSuspended) .schedulerStarted

/-- `cancel`. -/
def cancel : Scheduler → Reply Scheduler :=
  changeStatus (fun status => ¬(status = .schedulerBuilded ∨ status = .schedulerInitialized))
    .schedulerInitialized

/-- `getTimesNumber`; `pulTimesNumber` says whether the pointer is not NULL. -/
def getTimesNumber (pulTimesNumber : Bool) (s : Scheduler) :
    Except SchedulerCode Nat × Scheduler :=
  let s := s.lock
  if s.schedulerStatus = .schedulerBuilded then
    (.error (.schOperationNotAllowed s.schedulerStatus), s.unLock)
  else if ¬pulTimesNumber then (.error .schActivationWrong, s.unLock)
  else (.ok s.pTimesList.length, s.unLock)

/-- `getTimes`; `pTimes` says whether the pointer for the result is not NULL. -/
def getTimes (ulTimesIndex : Nat) (pTimes : Bool) (s : Scheduler) :
    Except SchedulerCode TimesP × Scheduler :=
  let s := s.lock
  if s.schedulerStatus = .schedulerBuilded then
    (.error (.schOperationNotAllowed s.schedulerStatus), s.unLock)
  else
    match s.pTimesList[ulTimesIndex]? with
    | none => (.error .schActivationWrong, s.unLock)
    | some times =>
      if ¬pTimes then (.error .schActivationWrong, s.unLock) else (.ok times, s.unLock)

/-- A call of one of the operations. -/
inductive Request
  | start (threadStarts : Bool)
  | suspend
  | resume
  | cancel
  | activeTimes (newOk : Bool) (pTimes : TimesP)
  | deactiveTimes (pTimes : TimesP)
  | deactiveTimesIndex (lTimesPointerIndex : Int)
  | getTimes (ulTimesIndex : Nat) (pTimes : Bool)
  | getTimesNumber (pulTimesNumber : Bool)
  deriving DecidableEq, Repr

/-- The error of a reply, and the scheduler after it. -/
def outcome {α : Type} : Except SchedulerCode α × Scheduler → Except OperationError Unit × Scheduler
  | (.error e, s) => (.error (.scheduler e), s)
  | (.ok _, s) => (.ok (), s)

def Request.run (s : Scheduler) : Request → Except Fault (Except OperationError Unit × Scheduler)
  | .start threadStarts => .ok (s.start threadStarts)
  | .suspend => .ok (outcome s.suspend)
  | .resume => .ok (outcome s.resume)
  | .cancel => .ok (outcome s.cancel)
  | .activeTimes newOk pTimes => (s.activeTimes newOk pTimes).map outcome
  | .deactiveTimes pTimes => .ok (outcome (s.deactiveTimes pTimes))
  | .deactiveTimesIndex i => .ok (outcome (s.deactiveTimesIndex i))
  | .getTimes ulTimesIndex pTimes => .ok (outcome (s.getTimes ulTimesIndex pTimes))
  | .getTimesNumber pulTimesNumber => .ok (outcome (s.getTimesNumber pulTimesNumber))

/-! ### What they restore -/

/-- The lock is as deep as before, and after an error status and list are as before. -/
structure Restored {α : Type} (s : Scheduler) (r : Except OperationError α × Scheduler) : Prop where
  depth : r.2.mtSchedulerMutex = s.mtSchedulerMutex
  status : ∀ e, r.1 = .error e → r.2.schedulerStatus = s.schedulerStatus
  list : ∀ e, r.1 = .error e → r.2.pTimesList = s.pTimesList

/-- When the operation returns, it has restored the scheduler. -/
def Request.Restores (s : Scheduler) (q : Request) : Prop :=
  ∀ r, q.run s = .ok r → Restored s r

/-- A thread that can be created, and for `deactiveTimes` an argument that passes its check, or
a mutex that the thread does not hold. -/
def Request.Meets (s : Scheduler) : Request → Prop
  | .start threadStarts => s.schedulerStatus = .schedulerInitialized → threadStarts = true
  | .deactiveTimes pTimes => pTimes ≠ 0 ∨ s.mtSchedulerMutex = 0
  | .deactiveTimesIndex i => (0 ≤ i ∧ i < s.pTimesList.length) ∨ s.mtSchedulerMutex = 0
  | _ => True

section

variable {s : Scheduler} {α : Type}

/-- A method that leaves the scheduler as it is. -/
theorem restored_self (r : Except OperationError α) : Restored s (r, s) :=
  ⟨rfl, fun _ _ => rfl, fun _ _ => rfl⟩

/-- A method that succeeds and has unlocked what it locked. -/
theorem restored_ok (a : α) {s' : Scheduler} (h : s'.mtSchedulerMutex = s.mtSchedulerMutex) :
    Restored s (.ok a, s') :=
  ⟨h, fun _ h => absurd h (by simp), fun _ h => absurd h (by simp)⟩

theorem changeStatus_restored (allowed : SchedulerStatus → Bool) (status : SchedulerStatus) :
    Restored s (outcome (s.changeStatus allowed status)) := by
  unfold changeStatus
  dsimp only
  split
  · exact restored_self _
  · exact restored_ok _ rfl

/-- A status is left behind exactly when the thread was to be created and could not be. -/
theorem start_restored {threadStarts : Bool} :
    Restored s (s.start threadStarts) ↔
      (s.schedulerStatus = .schedulerInitialized → threadStarts = true) := by
  unfold start changeStatus
  dsimp only
  by_cases hs : s.schedulerStatus = .schedulerInitialized
  · have hallowed : ¬¬decide (s.lock.schedulerStatus = .schedulerInitialized) = true :=
      not_not.mpr (decide_eq_true hs)
    rw [if_neg hallowed]
    dsimp only
    cases threadStarts with
    | true => exact ⟨fun _ _ => rfl, fun _ => restored_ok _ rfl⟩
    | false =>
      refine ⟨fun h => ?_, fun h => absurd (h hs) (by simp)⟩
      have hstatus : SchedulerStatus.schedulerStarted = s.schedulerStatus := h.status _ rfl
      rw [hs] at hstatus
      exact absurd hstatus (by simp)
  · have hallowed : ¬decide (s.lock.schedulerStatus = .schedulerInitialized) = true := fun h =>
      hs (of_decide_eq_true h)
    rw [if_pos hallowed]
    exact ⟨fun _ h => absurd h hs, fun _ => restored_self _⟩

theorem getTimesNumber_restored (pulTimesNumber : Bool) :
    Restored s (outcome (s.getTimesNumber pulTimesNumber)) := by
  unfold getTimesNumber
  dsimp only
  split_ifs
  · exact restored_self _
  · exact restored_self _
  · exact restored_self _

theorem getTimes_restored (ulTimesIndex : Nat) (pTimes : Bool) :
    Restored s (outcome (s.getTimes ulTimesIndex pTimes)) := by
  unfold getTimes
  dsimp only
  split_ifs
  · exact restored_self _
  · split
    · exact restored_self _
    · exact restored_self _
  · split
    · exact restored_self _
    · exact restored_self _

/-- The list of a scheduler to which an object has been added. -/
theorem append_depth {p : TimesP} {s' : Scheduler} (h : s.append p = .ok s') :
    s'.mtSchedulerMutex = s.mtSchedulerMutex := by
  unfold append at h
  split_ifs at h
  exact Except.ok.inj h ▸ rfl

/-- `activeTimes` unlocks on every way out. -/
theorem activeTimes_restored {newOk : Bool} {p : TimesP} {r : Reply Scheduler}
    (h : s.activeTimes newOk p = .ok r) : Restored s (outcome r) := by
  unfold activeTimes at h
  dsimp only at h
  split at h
  · exact Except.ok.inj h ▸ restored_self _
  · split at h
    · exact Except.ok.inj h ▸ restored_self _
    · split at h
      · exact Except.ok.inj h ▸ restored_self _
      · split at h
        · split at h
          · exact Except.ok.inj h ▸ ⟨rfl, fun _ _ => rfl, fun _ _ => rfl⟩
          · obtain ⟨s', happend, h⟩ := bind_eq_ok.mp h
            obtain rfl := Except.ok.inj h
            exact restored_ok _ (congrArg (· - 1) (append_depth happend))
        · obtain ⟨s', happend, h⟩ := bind_eq_ok.mp h
          obtain rfl := Except.ok.inj h
          exact restored_ok _ (congrArg (· - 1) (append_depth happend))

/-- The unlock of what is not locked changes the depth where the mutex is held. -/
theorem unLock_restored (e : OperationError) :
    Restored s ((.error e : Except OperationError α), s.unLock) ↔ s.mtSchedulerMutex = 0 := by
  constructor
  · intro h
    have hdepth : s.mtSchedulerMutex - 1 = s.mtSchedulerMutex := h.depth
    omega
  · intro h
    exact ⟨show s.mtSchedulerMutex - 1 = _ by omega, fun _ _ => rfl, fun _ _ => rfl⟩

theorem deactiveTimesIndex_restored {i : Int} :
    Restored s (outcome (s.deactiveTimesIndex i)) ↔
      (0 ≤ i ∧ i < s.pTimesList.length) ∨ s.mtSchedulerMutex = 0 := by
  unfold deactiveTimesIndex
  by_cases hi : i < 0 ∨ (s.pTimesList.length : Int) ≤ i
  · have hout : ¬(0 ≤ i ∧ i < s.pTimesList.length) := by omega
    rw [if_pos hi, or_iff_right hout]
    exact unLock_restored _
  · have hin : 0 ≤ i ∧ i < s.pTimesList.length := by omega
    rw [if_neg hi]
    refine iff_of_true ?_ (Or.inl hin)
    dsimp only
    split_ifs
    · exact restored_self _
    · exact restored_ok _ rfl

/-- The index that `deactiveTimes` looks up passes the check of the other overload. -/
theorem deactiveTimesIndex_of_getTimesPointerIndex {p : TimesP} {i : Nat}
    (h : s.getTimesPointerIndex p = .ok i) :
    s.deactiveTimesIndex i = (.ok (), { s with pTimesList := s.pTimesList.eraseIdx i }) := by
  unfold getTimesPointerIndex at h
  split_ifs at h with hstatus hp
  split at h
  · exact absurd h (by simp)
  · next hidx =>
    rw [Except.ok.inj h] at hidx
    have hlt : i < s.pTimesList.length := (List.idxOf?_eq_some_iff.mp hidx).1
    have hin : ¬((i : Int) < 0 ∨ (s.pTimesList.length : Int) ≤ i) := by omega
    have hlocked : ¬s.lock.schedulerStatus = .schedulerBuilded := hstatus
    unfold deactiveTimesIndex
    rw [if_neg hin]
    dsimp only
    rw [if_neg hlocked]
    rfl

theorem deactiveTimes_restored {p : TimesP} :
    Restored s (outcome (s.deactiveTimes p)) ↔ p ≠ 0 ∨ s.mtSchedulerMutex = 0 := by
  unfold deactiveTimes
  by_cases hp : p = 0
  · rw [if_pos hp, or_iff_right (not_not.mpr hp)]
    exact unLock_restored _
  · rw [if_neg hp]
    refine iff_of_true ?_ (Or.inl hp)
    dsimp only
    split
    · exact restored_self _
    · split
      · exact restored_self _
      · next i hi =>
        rw [deactiveTimesIndex_of_getTimesPointerIndex hi]
        exact restored_ok _ rfl

/-- **When an operation restores the scheduler.** -/
theorem restores_iff (s : Scheduler) (q : Request) : q.Restores s ↔ q.Meets s := by
  have hok : ∀ r, (∀ r', Except.ok r = (Except.ok r' : Except Fault _) → Restored s r')
      ↔ Restored (α := Unit) s r := fun r =>
    ⟨fun h => h r rfl, fun h r' heq => Except.ok.inj heq ▸ h⟩
  unfold Request.Restores
  cases q with
  | start threadStarts => exact (hok _).trans start_restored
  | suspend => exact iff_of_true ((hok _).mpr (changeStatus_restored _ _)) trivial
  | resume => exact iff_of_true ((hok _).mpr (changeStatus_restored _ _)) trivial
  | cancel => exact iff_of_true ((hok _).mpr (changeStatus_restored _ _)) trivial
  | activeTimes newOk p =>
    refine iff_of_true (fun r hr => ?_) trivial
    have hr : (s.activeTimes newOk p).map outcome = .ok r := hr
    cases h : s.activeTimes newOk p with
    | error fault => rw [h] at hr; exact absurd hr (by simp [Except.map])
    | ok r' =>
      rw [h] at hr
      exact Except.ok.inj hr ▸ activeTimes_restored h
  | deactiveTimes p => exact (hok _).trans deactiveTimes_restored
  | deactiveTimesIndex i => exact (hok _).trans deactiveTimesIndex_restored
  | getTimes ulTimesIndex pTimes => exact iff_of_true ((hok _).mpr (getTimes_restored _ _)) trivial
  | getTimesNumber pulTimesNumber =>
    exact iff_of_true ((hok _).mpr (getTimesNumber_restored _)) trivial

end

/-- A thread that cannot be created leaves the scheduler started, and in a `handleTimeOut` a
`deactiveTimes` of NULL gives away the lock of the pass. -/
theorem not_restores_start :
    ¬(Request.start false).Restores (init 1) ∧ ¬(Request.deactiveTimes 0).Restores (init 1).lock := by
  constructor
  · intro h
    exact absurd ((h _ rfl).status _ rfl) (by decide)
  · intro h
    exact absurd (h _ rfl).depth (by decide)

end Scheduler

end CatraLibraries
