/-
# Lock files

`FileIO::lockFile` and `FileIO::unLockFile` (`Tools/src/FileIO.cpp`) on one path.  A lock file is
opened, and made where the name is not there; the lock is a write lock on the whole of it; in the end
the lock is given back, the file is closed and its name is removed.

A file is a number.  The lock belongs to the file and to a process; every `close` of a process gives
its lock on the file back; the removal of the name leaves the file to those who have it open.  A
process may have any number of calls under way; the steps of all the calls interleave.
-/
import Mathlib.Data.Nat.Notation
import Mathlib.Logic.Function.Basic
import CatraLibraries.Lib.Transition

namespace CatraLibraries

open Transition

namespace FileIO

/-! ### The calls -/

/-- What a caller of `lockFile` and `unLockFile` does next. -/
inductive LockPhase
  /-- `lockFile` is not called, or returned an error -/
  | idle
  /-- in the loop of `lockFile` -/
  | locking (fdLockFile : ℕ)
  /-- `lockFile` will close the file and return an error -/
  | failing (fdLockFile : ℕ)
  /-- `lockFile` returned `errNoError` -/
  | locked (fdLockFile : ℕ)
  /-- `unLockFile` will close the file -/
  | closing (fdLockFile : ℕ)
  /-- `unLockFile` will remove the name -/
  | removing
  deriving DecidableEq, Repr

/-- The file that the name stands for, the locks and the calls; `files` is the number of files made
so far. -/
structure LockFiles (C P : Type) where
  pLockPathName : Option ℕ
  files : ℕ
  lockedBy : ℕ → Option P
  phase : C → LockPhase

/-- The steps of the caller `c`. -/
inductive LockAction (C : Type)
  | openFile (c : C)
  /-- `fcntl` with `F_WRLCK` -/
  | setLock (c : C)
  /-- the time to wait is over, or `fcntl` failed for another reason -/
  | giveUp (c : C)
  /-- `fcntl` with `F_UNLCK` -/
  | unLock (c : C) (unlocks : Bool)
  | close (c : C)
  | remove (c : C) (removes : Bool)
  deriving DecidableEq, Repr

namespace LockFiles

variable {C P : Type}

/-- No call is under way; the lock file may be there. -/
def initial (pLockPathName : Option ℕ) : LockFiles C P where
  pLockPathName := pLockPathName
  files := pLockPathName.elim 0 (· + 1)
  lockedBy _ := none
  phase _ := .idle

variable [DecidableEq C]

/-- The call of `c` goes on. -/
def goTo (s : LockFiles C P) (c : C) (phase : LockPhase) : LockFiles C P :=
  { s with phase := Function.update s.phase c phase }

/-- `open` with `O_CREAT`. -/
def openFile (s : LockFiles C P) (c : C) : LockFiles C P :=
  match s.pLockPathName with
  | some file => s.goTo c (.locking file)
  | none =>
    { s.goTo c (.locking s.files) with
      pLockPathName := some s.files
      files := s.files + 1 }

variable [DecidableEq P] (process : C → P)

/-- No other process has a lock on the file. -/
def Lockable (s : LockFiles C P) (p : P) (file : ℕ) : Prop :=
  s.lockedBy file = none ∨ s.lockedBy file = some p

instance (s : LockFiles C P) (p : P) (file : ℕ) : Decidable (s.Lockable p file) :=
  inferInstanceAs (Decidable (_ ∨ _))

/-- `fcntl (fd, F_SETLK, …)` with `F_WRLCK`; where it fails `lockFile` tries again. -/
def setLock (s : LockFiles C P) (c : C) (file : ℕ) : LockFiles C P :=
  if s.Lockable (process c) file then
    { s.goTo c (.locked file) with
      lockedBy := Function.update s.lockedBy file (some (process c)) }
  else s

/-- The process has no lock on the file any more. -/
def release (s : LockFiles C P) (p : P) (file : ℕ) : LockFiles C P :=
  if s.lockedBy file = some p then
    { s with lockedBy := Function.update s.lockedBy file none }
  else s

/-- One step.  `unLockFile` goes on to close the file and to remove the name where a step fails. -/
def step (s : LockFiles C P) : LockAction C → Option (LockFiles C P)
  | .openFile c =>
    match s.phase c with
    | .idle => some (s.openFile c)
    | _ => none
  | .setLock c =>
    match s.phase c with
    | .locking file => some (s.setLock process c file)
    | _ => none
  | .giveUp c =>
    match s.phase c with
    | .locking file => some (s.goTo c (.failing file))
    | _ => none
  | .unLock c unlocks =>
    match s.phase c with
    | .locked file =>
      some ((if unlocks then s.release (process c) file else s).goTo c (.closing file))
    | _ => none
  | .close c =>
    match s.phase c with
    | .failing file => some ((s.release (process c) file).goTo c .idle)
    | .closing file => some ((s.release (process c) file).goTo c .removing)
    | _ => none
  | .remove c removes =>
    match s.phase c with
    | .removing =>
      some { s.goTo c .idle with pLockPathName := if removes then none else s.pLockPathName }
    | _ => none

/-! ### Mutual exclusion -/

/-- One process at most is between a `lockFile` that succeeded and its `unLockFile`. -/
def Exclusive (s : LockFiles C P) : Prop :=
  ∀ c c' file file', s.phase c = .locked file → s.phase c' = .locked file' →
    process c = process c'

/-- The file that is locked is the one that the name stands for; no lock is given back, and the name
is not removed, while another call needs it. -/
def Safe (s : LockFiles C P) : LockAction C → Prop
  | .setLock c => ∀ file, s.phase c = .locking file → s.Lockable (process c) file →
    s.pLockPathName = some file
  | .unLock c _ | .close c => ∀ c' ≠ c, process c' = process c → ∀ file,
    s.phase c' ≠ .locked file
  | .remove _ true => ∀ c file, s.phase c ≠ .locked file
  | .openFile _ | .giveUp _ | .remove _ false => True

/-- Whoever has the lock has it on the file that the name stands for. -/
def Guarded (s : LockFiles C P) : Prop :=
  ∀ c file, s.phase c = .locked file →
    s.pLockPathName = some file ∧ s.lockedBy file = some (process c)

variable {process} {s s' : LockFiles C P}

omit [DecidableEq C] [DecidableEq P] in
theorem Guarded.exclusive (h : s.Guarded process) : s.Exclusive process := by
  intro c c' file file' hc hc'
  obtain ⟨hname, hlock⟩ := h c file hc
  obtain ⟨hname', hlock'⟩ := h c' file' hc'
  obtain rfl : file = file' := Option.some.inj (hname.symm.trans hname')
  exact Option.some.inj (hlock.symm.trans hlock')

omit [DecidableEq P] in
/-- Whose lock it is after a call has gone on. -/
theorem phase_goTo {c c' : C} {phase : LockPhase} {file : ℕ}
    (h : (s.goTo c phase).phase c' = .locked file) :
    (c' = c ∧ phase = .locked file) ∨ c' ≠ c ∧ s.phase c' = .locked file := by
  change Function.update s.phase c phase c' = _ at h
  by_cases hc : c' = c
  · rw [hc, Function.update_self] at h
    exact .inl ⟨hc, h⟩
  · rw [Function.update_of_ne hc] at h
    exact .inr ⟨hc, h⟩

omit [DecidableEq C] in
/-- A lock that is given back is not one of another process. -/
theorem lockedBy_release {p q : P} {file file' : ℕ} (h : s.lockedBy file' = some q) (hne : q ≠ p) :
    (s.release p file).lockedBy file' = some q := by
  unfold release
  by_cases hp : s.lockedBy file = some p
  · rw [if_pos hp]
    have hfile : file' ≠ file := by
      rintro rfl
      exact hne (Option.some.inj (h.symm.trans hp))
    show Function.update s.lockedBy file none file' = _
    rw [Function.update_of_ne hfile, h]
  · rw [if_neg hp]
    exact h

omit [DecidableEq C] in
theorem release_pLockPathName (s : LockFiles C P) (p : P) (file : ℕ) :
    (s.release p file).pLockPathName = s.pLockPathName := by
  unfold release
  split <;> rfl

omit [DecidableEq C] in
theorem release_phase (s : LockFiles C P) (p : P) (file : ℕ) :
    (s.release p file).phase = s.phase := by
  unfold release
  split <;> rfl

omit [DecidableEq P] in
/-- A call that goes on without the lock. -/
theorem Guarded.goTo (h : s.Guarded process) {c : C} {phase : LockPhase}
    (hphase : ∀ file, phase ≠ .locked file) : (s.goTo c phase).Guarded process := by
  intro c' file hc'
  rcases phase_goTo hc' with ⟨-, hlocked⟩ | ⟨-, hlocked⟩
  · exact absurd hlocked (hphase file)
  · exact h c' file hlocked

/-- A process gives a lock back that none of its other calls needs. -/
theorem Guarded.release (h : s.Guarded process) {c : C} {file : ℕ} {phase : LockPhase}
    (hphase : ∀ file, phase ≠ .locked file)
    (hsafe : ∀ c' ≠ c, process c' = process c → ∀ file, s.phase c' ≠ .locked file) :
    ((s.release (process c) file).goTo c phase).Guarded process := by
  intro c' file' hc'
  rcases phase_goTo hc' with ⟨-, hlocked⟩ | ⟨hne, hlocked⟩
  · exact absurd hlocked (hphase file')
  · rw [release_phase] at hlocked
    obtain ⟨hname, hlock⟩ := h c' file' hlocked
    have hprocess : process c' ≠ process c := fun heq => hsafe c' hne heq file' hlocked
    exact ⟨(s.release_pLockPathName _ _).trans hname, lockedBy_release hlock hprocess⟩

omit [DecidableEq P] in
/-- A file is opened: where the name is not there nobody has the lock. -/
theorem Guarded.openFile (h : s.Guarded process) (c : C) : (s.openFile c).Guarded process := by
  unfold LockFiles.openFile
  cases hname : s.pLockPathName with
  | some file => exact h.goTo fun _ heq => (by cases heq)
  | none =>
    intro c' file hc'
    rcases phase_goTo hc' with ⟨-, hlocked⟩ | ⟨-, hlocked⟩
    · cases hlocked
    · have hsome := (h c' file hlocked).1
      rw [hname] at hsome
      cases hsome

/-- The file that the name stands for is locked. -/
theorem Guarded.setLock (h : s.Guarded process) {c : C} {file : ℕ}
    (hsafe : s.Lockable (process c) file → s.pLockPathName = some file) :
    (s.setLock process c file).Guarded process := by
  unfold LockFiles.setLock
  by_cases hlockable : s.Lockable (process c) file
  · rw [if_pos hlockable]
    intro c' file' hc'
    show s.pLockPathName = some file' ∧
      Function.update s.lockedBy file (some (process c)) file' = some (process c')
    rcases phase_goTo hc' with ⟨rfl, hlocked⟩ | ⟨-, hlocked⟩
    · cases hlocked
      exact ⟨hsafe hlockable, Function.update_self ..⟩
    · -- it had the same file locked, and is a call of the same process
      obtain ⟨hname, hlock⟩ := h c' file' hlocked
      obtain rfl : file = file' := Option.some.inj ((hsafe hlockable).symm.trans hname)
      refine ⟨hname, ?_⟩
      rw [Function.update_self]
      rcases hlockable with hnone | hsome
      · rw [hnone] at hlock
        cases hlock
      · exact hsome.symm.trans hlock
  · rw [if_neg hlockable]
    exact h

/-- **One step**: the lock stays on the file that the name stands for. -/
theorem Guarded.step {a : LockAction C} (h : s.Guarded process) (hsafe : s.Safe process a)
    (hstep : s.step process a = some s') : s'.Guarded process := by
  cases a with
  | openFile c =>
    unfold LockFiles.step at hstep
    cases hphase : s.phase c <;> simp only [hphase, Option.some.injEq, reduceCtorEq] at hstep
    exact hstep ▸ h.openFile c
  | setLock c =>
    unfold LockFiles.step at hstep
    cases hphase : s.phase c <;> simp only [hphase, Option.some.injEq, reduceCtorEq] at hstep
    exact hstep ▸ h.setLock (hsafe _ hphase)
  | giveUp c =>
    unfold LockFiles.step at hstep
    cases hphase : s.phase c <;> simp only [hphase, Option.some.injEq, reduceCtorEq] at hstep
    exact hstep ▸ h.goTo fun _ heq => (by cases heq)
  | unLock c unlocks =>
    unfold LockFiles.step at hstep
    cases hphase : s.phase c <;> simp only [hphase, Option.some.injEq, reduceCtorEq] at hstep
    subst hstep
    cases unlocks with
    | true => exact h.release (fun _ heq => (by cases heq)) hsafe
    | false => exact h.goTo fun _ heq => (by cases heq)
  | close c =>
    unfold LockFiles.step at hstep
    cases hphase : s.phase c <;> simp only [hphase, Option.some.injEq, reduceCtorEq] at hstep
    · exact hstep ▸ h.release (fun _ heq => (by cases heq)) hsafe
    · exact hstep ▸ h.release (fun _ heq => (by cases heq)) hsafe
  | remove c removes =>
    unfold LockFiles.step at hstep
    cases hphase : s.phase c <;> simp only [hphase, Option.some.injEq, reduceCtorEq] at hstep
    subst hstep
    cases removes with
    | true =>
      intro c' file hc'
      rcases phase_goTo hc' with ⟨-, hlocked⟩ | ⟨-, hlocked⟩
      · cases hlocked
      · exact absurd hlocked (hsafe c' file)
    | false => exact h.goTo fun _ heq => (by cases heq)

/-- **Mutual exclusion**: in every run in which each lock is taken on the file that the name stands
for, and no lock is given back and no name removed that another call needs, one process at most has
the lock. -/
theorem exclusive_of_safe (process : C → P) (pLockPathName : Option ℕ)
    {actions : List (LockAction C)}
    (hsafe : Always (step process) (fun s a _ => s.Safe process a) (initial pLockPathName)
      actions) :
    Always (step process) (fun _ _ s' => s'.Exclusive process) (initial pLockPathName) actions := by
  have hinitial : (initial pLockPathName : LockFiles C P).Guarded process :=
    fun _ _ h => by cases h
  refine always_of_invariant (fun s a s' h hsafe hstep => ?_) hinitial hsafe
  have hnext : s'.Guarded process := Guarded.step h hsafe hstep
  exact ⟨hnext, hnext.exclusive⟩

/-- Two processes, one after the other. -/
theorem exclusive_inTurn :
    Always (step id) (fun _ _ s' => s'.Exclusive id) (initial none)
      [.openFile false, .setLock false, .unLock false true, .close false,
        .remove false true, .openFile true, .setLock true] := by
  apply exclusive_of_safe
  refine Always.cons rfl trivial (Always.cons rfl ?_ (Always.cons rfl ?_ (Always.cons rfl ?_
    (Always.cons rfl ?_ (Always.cons rfl trivial (Always.cons rfl ?_ trivial))))))
  · exact fun file h _ => (by cases h; rfl)
  · exact fun c hne heq => absurd heq hne
  · exact fun c hne heq => absurd heq hne
  · exact fun c file h => (by cases c <;> cases h)
  · exact fun file h _ => (by cases h; rfl)

/-- A process locks the file that another has unlocked, before the name is removed; a third makes a
new file and locks that. -/
theorem not_exclusive_removed :
    ¬Always (step id) (fun _ _ s' => s'.Exclusive id) (initial none)
      [.openFile 0, .setLock 0, .openFile 1, .unLock 0 true, .setLock 1, .close 0,
        .remove 0 true, .openFile 2, .setLock 2] := by
  intro h
  have hlast := ((((((((h _ rfl).2 _ rfl).2 _ rfl).2 _ rfl).2 _ rfl).2 _ rfl).2 _ rfl).2 _ rfl).2 _
    rfl
  exact absurd (hlast.1 1 2 0 1 rfl rfl) (by decide)

end LockFiles

end FileIO

end CatraLibraries
