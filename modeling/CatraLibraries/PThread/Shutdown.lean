/-
# Shutdown of a loop in a thread

`SocketsPool`, `HTTPCacheManager` and `HttpServer` run a loop in a thread of their own, with a flag
under a mutex that tells it to stop.  `run` resets the flag before the loop and reads it at the end
of every round; `cancel` sets it, waits for the thread, and cancels the thread itself when it takes
too long.  The three differ in how long `cancel` waits and for which states, and in what `run` does
before it resets the flag.

Every access to the flag is one step.  The steps of the thread, of any number of callers of
`cancel` and of `start` come in any order.
-/
import CatraLibraries.Lib.Transition
import CatraLibraries.PThread.PosixThread
import Mathlib.Data.Nat.Notation
import Mathlib.Logic.Function.Basic

namespace CatraLibraries

open Transition

/-- What the three classes differ in. -/
structure ShutdownLoop where
  /-- `run` has something to prepare, which may fail, before it resets the flag. -/
  prepares : Bool
  /-- `cancel` looks at the thread before it waits for the first time. -/
  looksFirst : Bool
  /-- The states in which `cancel` waits. -/
  waitsFor : List PThreadStatus
  /-- The seconds for which it waits. -/
  deadline : ℕ

/-- `SocketsPool::run` and `SocketsPool::cancel`. -/
def SocketsPool.shutdownLoop : ShutdownLoop where
  prepares := false
  looksFirst := true
  waitsFor := [.started, .startedAndJoined]
  deadline := 5

/-- `HTTPCacheManager::run` and `HTTPCacheManager::cancel`. -/
def HTTPCacheManager.shutdownLoop : ShutdownLoop where
  prepares := false
  looksFirst := true
  waitsFor := [.started, .startedAndJoined]
  deadline := 10

/-- `HttpServer::run`, which opens the socket first, and `HttpServer::cancel`. -/
def HttpServer.shutdownLoop : ShutdownLoop where
  prepares := true
  looksFirst := false
  waitsFor := [.started]
  deadline := 5

/-- Where the thread is in `run`. -/
inductive RunAt
  | preparing
  /-- about to call `setIsShutdown (false)` -/
  | resetting
  /-- at the head of the loop, with its `bIsShutdown` -/
  | testing (bIsShutdown : Bool)
  /-- in the loop, up to `getIsShutdown` -/
  | working
  /-- `run` is over, and `runFunction` is about to set the status -/
  | over
  deriving DecidableEq, Repr

/-- Where a call of `cancel` is, after it has set the flag. -/
inductive CancelAt
  /-- about to call `getThreadState`, if it looks first, and to take the time -/
  | looking
  /-- at the test of its loop, with the time and the state that it has read, if it has -/
  | waiting (tUTCNow : ℕ) (stThreadState : Option PThreadStatus)
  deriving DecidableEq, Repr

/-- The object, its thread and the callers of `cancel`.  `requested` records that `cancel` has set
the flag since the last start. -/
structure Shutdown (T : Type) where
  stPThreadStatus : PThreadStatus
  bIsShutdown : Bool
  thread : Option RunAt
  cancelled : Bool
  callers : T → Option CancelAt
  deleted : Bool
  requested : Bool

namespace Shutdown

variable {T : Type}

/-- The object after `init`; the constructor leaves the flag as the memory is. -/
def initial (bIsShutdown : Bool) : Shutdown T where
  stPThreadStatus := .initialized
  bIsShutdown := bIsShutdown
  thread := none
  cancelled := false
  callers _ := none
  deleted := false
  requested := false

/-- What the threads do. -/
inductive Action (T : Type)
  | start (bToBeDetached created : Bool)
  /-- the next step of `run`; `works` is the outcome of what can fail in it -/
  | run (works : Bool)
  /-- a cancelled thread ends at one of its waits -/
  | ends
  /-- `cancel` is called and sets the flag -/
  | cancel (caller : T)
  /-- the next step of a call of `cancel` -/
  | poll (caller : T) (now : ℕ)

section Steps

variable [DecidableEq T] (loop : ShutdownLoop) (s : Shutdown T)

/-- The thread goes on. -/
def runStep (works : Bool) : RunAt → Shutdown T
  | .preparing => { s with thread := some (if works then .resetting else .over) }
  | .resetting => { s with bIsShutdown := false, thread := some (.testing false) }
  | .testing bIsShutdown => { s with thread := some (if bIsShutdown then .over else .working) }
  | .working => { s with thread := some (if works then .testing s.bIsShutdown else .over) }
  | .over =>
    match s.stPThreadStatus.runFunctionEnds with
    | none => { s with thread := none, deleted := true }
    | some status => { s with thread := none, stPThreadStatus := status }

/-- The rest of `cancel`. -/
def pollStep (caller : T) (now : ℕ) : CancelAt → Shutdown T
  | .looking =>
    { s with
      callers := Function.update s.callers caller
        (some (.waiting now (if loop.looksFirst then some s.stPThreadStatus else none))) }
  | .waiting tUTCNow none =>
    { s with
      callers := Function.update s.callers caller
        (some (.waiting tUTCNow (some s.stPThreadStatus))) }
  | .waiting tUTCNow (some stThreadState) =>
    if stThreadState ∉ loop.waitsFor then
      { s with callers := Function.update s.callers caller none }
    else if now - tUTCNow < loop.deadline then
      { s with
        callers := Function.update s.callers caller
          (some (.waiting tUTCNow (some s.stPThreadStatus))) }
    else
      { s with
        callers := Function.update s.callers caller none,
        cancelled := s.cancelled || s.stPThreadStatus.cancel }

/-- One step.  Nothing is left to be called once a detached thread has deleted the object. -/
def step : Action T → Option (Shutdown T)
  | .start bToBeDetached created =>
    if s.deleted then none
    else
      match s.stPThreadStatus.start bToBeDetached created with
      | (false, status) => some { s with stPThreadStatus := status }
      | (true, status) =>
        some { s with
          stPThreadStatus := status
          thread := some (if loop.prepares then .preparing else .resetting)
          cancelled := false
          requested := false }
  | .run works => s.thread.map (s.runStep works)
  | .ends =>
    if s.cancelled ∧ s.thread.isSome then some { s with thread := none } else none
  | .cancel caller =>
    if s.deleted ∨ (s.callers caller).isSome then none
    else
      some { s with
        bIsShutdown := true
        requested := true
        callers := Function.update s.callers caller (some .looking) }
  | .poll caller now =>
    if s.deleted then none else (s.callers caller).map (s.pollStep loop caller now)

end Steps

/-! ### The request -/

/-- The thread has not come to the end of its loop. -/
def LoopRuns (s : Shutdown T) : Prop :=
  match s.thread with
  | none => False
  | some .over => False
  | some _ => True

/-- **A request is kept**: once `cancel` has been called after the start, the flag is set until the
loop has ended. -/
def RequestKept (s : Shutdown T) : Prop :=
  s.requested = true → s.LoopRuns → s.bIsShutdown = true

/-- The thread does not come to `setIsShutdown (false)` after a call of `cancel`. -/
def ResetsInTime (s : Shutdown T) : Action T → Prop
  | .run _ => s.thread = some .resetting → s.requested = false
  | _ => True

section Run

variable [DecidableEq T] {loop : ShutdownLoop} {s s' : Shutdown T} {a : Action T}

/-- The calls of `cancel` that wait leave the flag, the thread and the request. -/
theorem pollStep_kept (caller : T) (now : ℕ) (c : CancelAt) :
    (s.pollStep loop caller now c).RequestKept ↔ s.RequestKept := by
  cases c with
  | looking => exact Iff.rfl
  | waiting tUTCNow stThreadState =>
    cases stThreadState with
    | none => exact Iff.rfl
    | some stThreadState =>
      unfold pollStep
      dsimp only
      split
      · exact Iff.rfl
      · split
        · exact Iff.rfl
        · exact Iff.rfl

omit [DecidableEq T] in
/-- A step of `run` keeps the request unless it resets the flag after it. -/
theorem runStep_kept_iff (h : s.RequestKept) {at' : RunAt} (hthread : s.thread = some at')
    (works : Bool) :
    (s.runStep works at').RequestKept ↔ (at' = .resetting → s.requested = false) := by
  have hloop : at' ≠ .over → s.requested = true → s.bIsShutdown = true := by
    intro hne hrequested
    refine h hrequested ?_
    unfold LoopRuns
    rw [hthread]
    cases at' with
    | «over» => exact hne rfl
    | _ => trivial
  cases at' with
  | preparing =>
    refine iff_of_true ?_ RunAt.noConfusion
    exact fun hrequested _ => hloop RunAt.noConfusion hrequested
  | resetting =>
    constructor
    · intro hkept _
      -- the flag is false and the loop runs
      refine Bool.eq_false_iff.mpr fun hrequested => ?_
      exact Bool.false_ne_true (hkept hrequested trivial)
    · intro htime hrequested
      exact absurd hrequested (Bool.eq_false_iff.mp (htime rfl))
  | testing bIsShutdown =>
    refine iff_of_true ?_ RunAt.noConfusion
    exact fun hrequested _ => hloop RunAt.noConfusion hrequested
  | working =>
    refine iff_of_true ?_ RunAt.noConfusion
    exact fun hrequested _ => hloop RunAt.noConfusion hrequested
  | «over» =>
    refine iff_of_true ?_ RunAt.noConfusion
    intro _ hruns
    unfold runStep at hruns
    dsimp only at hruns
    split at hruns
    · exact hruns.elim
    · exact hruns.elim

/-- **One step** keeps the request exactly when it does not reset the flag after it. -/
theorem requestKept_step_iff (h : s.RequestKept) (hstep : step loop s a = some s') :
    s'.RequestKept ↔ s.ResetsInTime a := by
  cases a with
  | start bToBeDetached created =>
    refine iff_of_true ?_ trivial
    obtain ⟨-, hsome⟩ := Option.ite_none_left_eq_some.mp hstep
    split at hsome
    · cases hsome
      exact h
    · cases hsome
      intro hrequested
      cases hrequested
  | run works =>
    obtain ⟨at', hthread, rfl⟩ := Option.map_eq_some_iff.mp hstep
    rw [runStep_kept_iff h hthread works]
    unfold ResetsInTime
    rw [hthread, Option.some_inj]
  | ends =>
    refine iff_of_true ?_ trivial
    obtain ⟨-, hsome⟩ := Option.ite_none_right_eq_some.mp hstep
    cases hsome
    exact fun _ hruns => hruns.elim
  | cancel caller =>
    refine iff_of_true ?_ trivial
    obtain ⟨-, hsome⟩ := Option.ite_none_left_eq_some.mp hstep
    cases hsome
    exact fun _ _ => rfl
  | poll caller now =>
    refine iff_of_true ?_ trivial
    obtain ⟨-, hsome⟩ := Option.ite_none_left_eq_some.mp hstep
    obtain ⟨c, -, rfl⟩ := Option.map_eq_some_iff.mp hsome
    exact (pollStep_kept caller now c).mpr h

/-- What a kept request is for: the round that the thread is in is the last one. -/
theorem RequestKept.ends (h : s.RequestKept) (hrequested : s.requested = true)
    (hthread : s.thread = some .working) (works : Bool) :
    ∃ s₁ s₂, step loop s (.run true) = some s₁ ∧ step loop s₁ (.run works) = some s₂ ∧
      s₂.thread = some .over := by
  have hflag : s.bIsShutdown = true := by
    refine h hrequested ?_
    unfold LoopRuns
    rw [hthread]
    trivial
  refine ⟨s.runStep true .working, (s.runStep true .working).runStep works (.testing true), ?_, ?_,
    rfl⟩
  · exact congrArg (Option.map (s.runStep true)) hthread
  · show Option.map _ (some (RunAt.testing s.bIsShutdown)) = _
    rw [hflag]
    rfl

/-- **The requests of every run.**  In a run of the steps in any order a request is kept in every
state exactly when the thread never resets the flag after a call of `cancel`. -/
theorem requestKept_run_iff (loop : ShutdownLoop) (bIsShutdown : Bool)
    (actions : List (Action T)) :
    Always (step loop) (fun _ _ s' => s'.RequestKept) (initial bIsShutdown) actions ↔
      Always (step loop) (fun s a _ => s.ResetsInTime a) (initial bIsShutdown) actions := by
  have hinitial : (initial bIsShutdown : Shutdown T).RequestKept := by
    intro hrequested
    cases hrequested
  have hiff : ∀ (s : Shutdown T) a s', s.RequestKept → step loop s a = some s' →
      (s'.RequestKept ↔ s.ResetsInTime a) := fun s a s' h hstep => requestKept_step_iff h hstep
  exact always_iff_of_kept hiff (fun s a s' hkept => hkept) hinitial actions

end Run

/-- The thread is created, `cancel` sets the flag, and `run` resets it: each of the classes loses
the request. -/
theorem not_requestKept_of_cancel :
    ¬Always (step SocketsPool.shutdownLoop) (fun _ _ s' => s'.RequestKept)
      (initial (T := Unit) false) [.start false true, .cancel (), .run true] ∧
    ¬Always (step HTTPCacheManager.shutdownLoop) (fun _ _ s' => s'.RequestKept)
      (initial (T := Unit) false) [.start false true, .cancel (), .run true] ∧
    ¬Always (step HttpServer.shutdownLoop) (fun _ _ s' => s'.RequestKept)
      (initial (T := Unit) false) [.start false true, .cancel (), .run true, .run true] := by
  refine ⟨?_, ?_, ?_⟩
  · intro h
    have hkept := (((h _ rfl).2 _ rfl).2 _ rfl).1
    exact Bool.false_ne_true (hkept rfl trivial)
  · intro h
    have hkept := (((h _ rfl).2 _ rfl).2 _ rfl).1
    exact Bool.false_ne_true (hkept rfl trivial)
  · intro h
    have hkept := ((((h _ rfl).2 _ rfl).2 _ rfl).2 _ rfl).1
    exact Bool.false_ne_true (hkept rfl trivial)

end Shutdown

end CatraLibraries
