/-
# Waiting for a socket

`SocketImpl::isReadyForReading`, `isReadyForWriting` and `isThereException`, built with `poll` or with
`select`, and the wait of `SocketsPool::checkSocketsStatus`.  After an interruption the loops take the
time since the beginning off a limit that has been shortened before.

The clock is the one that the loops read, in milliseconds.  The pointers to the results are not null.
-/
import CatraLibraries.Lib.Waits
import CatraLibraries.Socket.PollSlots
import Mathlib.Algebra.Group.Int.Defs
import Mathlib.Algebra.Group.Nat.Defs

namespace CatraLibraries

namespace SocketImpl

open Waits SocketsPool HashMaps

variable {ρ : Type}

/-- The system call that the library is built with. -/
inductive Build
  | poll
  | select
  deriving DecidableEq, Repr

/-- The errors of the methods. -/
inductive ReadyError
  | activationWrong
  | fdSetSizeToBeIncremented (iFd : ℤ)
  | pollFailed (iErrno : ℤ)
  | selectFailed (iErrno : ℤ)
  deriving DecidableEq, Repr

/-! ### The loops -/

/-- The limit of the loops with `poll` is the `int` that is given to it; a negative one is no limit.
The time since the beginning is an `unsigned long long`, and so is what is left before it is
stored. -/
def pollLoop : Loop ℤ where
  ask iMilliSeconds :=
    if iMilliSeconds < 0 then .forever else .micros (1000 * iMilliSeconds.toNat)
  resume iMilliSeconds elapsed :=
    if (iMilliSeconds % 2 ^ 64).toNat ≤ elapsed then none
    else some (SocketsPool.toInt (iMilliSeconds - elapsed))

/-- `tvTimeval` and `ullMilliSecondsToWait`. -/
structure SelectLimit where
  tv_sec : ℤ
  tv_usec : ℕ
  ullMilliSecondsToWait : ℕ
  deriving DecidableEq, Repr

/-- The loops with `select`, which refuses a negative time. -/
def selectLoop : Loop SelectLimit where
  ask limit :=
    if limit.tv_sec < 0 then .invalid
    else .micros (1000000 * limit.tv_sec.toNat + limit.tv_usec)
  resume limit elapsed :=
    if limit.ullMilliSecondsToWait ≤ elapsed then none
    else
      let left := limit.ullMilliSecondsToWait - elapsed
      some ⟨(left / 1000 : ℕ), (left - left / 1000 * 1000) * 1000, left⟩

/-- A wait as it begins. -/
inductive Wait
  | poll (iMilliSeconds : ℤ)
  | select (limit : SelectLimit)
  deriving DecidableEq, Repr

/-- The ends of the system calls, with `ullNowUTCInMilliSecs - ullStartUTCInMilliSecs`. -/
def sinceStart (ullStartUTCInMilliSecs : UInt64) (returns : List (Return UInt64 ρ)) :
    List (Return ℕ ρ) :=
  returns.map fun r => ⟨(r.now - ullStartUTCInMilliSecs).toNat, r.ending⟩

/-- The loop. -/
def Wait.run (wait : Wait) (ullStartUTCInMilliSecs : UInt64) (returns : List (Return UInt64 ρ)) :
    Run ρ :=
  match wait with
  | .poll iMilliSeconds => Waits.run pollLoop iMilliSeconds (sinceStart ullStartUTCInMilliSecs returns)
  | .select limit => Waits.run selectLoop limit (sinceStart ullStartUTCInMilliSecs returns)

/-- The ends that its system calls can have. -/
def Wait.Allowed (wait : Wait) (ullStartUTCInMilliSecs : UInt64) (returns : List (Return UInt64 ρ)) :
    Prop :=
  match wait with
  | .poll iMilliSeconds =>
    Waits.Allowed pollLoop iMilliSeconds 0 (sinceStart ullStartUTCInMilliSecs returns)
  | .select limit => Waits.Allowed selectLoop limit 0 (sinceStart ullStartUTCInMilliSecs returns)

/-! ### The methods -/

/-- `iMilliSeconds` as it is first. -/
def iMilliSeconds (ulSecondsToWait ulMilliSecs : UInt64) : ℤ :=
  SocketsPool.toInt (ulSecondsToWait * 1000 + ulMilliSecs).toNat

/-- `tvTimeval` and `ullMilliSecondsToWait` as they are first. -/
def selectLimit (ulSecondsToWait ulAdditionalMicrosecondsToWait : UInt64) : SelectLimit where
  tv_sec := (ulSecondsToWait.toNat : ℤ).bmod (2 ^ 64)
  tv_usec := ulAdditionalMicrosecondsToWait.toNat
  ullMilliSecondsToWait := (ulSecondsToWait * 1000 + ulAdditionalMicrosecondsToWait / 1000).toNat

/-- A method up to its loop: the events that it asks for and the wait. -/
def readyWait (events : PollEvents) (build : Build) (iFd : ℤ)
    (ulSecondsToWait ulAdditionalMicrosecondsToWait : UInt64) :
    Except ReadyError (PollEvents × Wait) :=
  if 1000000 ≤ ulAdditionalMicrosecondsToWait then .error .activationWrong
  else
    match build with
    | .poll =>
      .ok (events, .poll (iMilliSeconds ulSecondsToWait (ulAdditionalMicrosecondsToWait / 1000)))
    | .select =>
      -- `FD_SETSIZE`
      if 1024 ≤ iFd then .error (.fdSetSizeToBeIncremented iFd)
      else .ok (events, .select (selectLimit ulSecondsToWait ulAdditionalMicrosecondsToWait))

def isReadyForReading := readyWait ⟨true, false, false⟩

def isReadyForWriting := readyWait ⟨false, true, false⟩

def isThereException := readyWait ⟨false, false, true⟩

/-- What a method returns after its loop. -/
def readyResult (build : Build) : Ending ρ → Except ReadyError Bool
  | .interrupted | .timedOut => .ok false
  | .ready _ => .ok true
  | .failed iErrno =>
    match build with
    | .poll => .error (.pollFailed iErrno)
    | .select => .error (.selectFailed iErrno)

/-- The wait of `checkSocketsStatus`. -/
def statusWait (ulSecondsToWait ulAdditionalMilliSecsToWait : UInt64) : Wait :=
  .poll (iMilliSeconds ulSecondsToWait ulAdditionalMilliSecsToWait)

/-- What `checkSocketsStatus` goes on with. -/
def statusReturn : Ending (ℤ → PollEvents) → PollReturn
  | .interrupted => .failed true
  | .timedOut => .timeout
  | .ready found => .ready found
  | .failed _ => .failed false

/-- The calls that wait. -/
inductive Call
  | isReadyForReading (build : Build) (iFd : ℤ)
  | isReadyForWriting (build : Build) (iFd : ℤ)
  | isThereException (build : Build) (iFd : ℤ)
  | checkSocketsStatus (records : List ℕ) (pool : Pool)

/-- The wait of a call with its two arguments, if it waits at all. -/
def Call.wait : Call → UInt64 → UInt64 → Option Wait
  | .isReadyForReading build iFd, sec, more =>
    (SocketImpl.isReadyForReading build iFd sec more).toOption.map Prod.snd
  | .isReadyForWriting build iFd, sec, more =>
    (SocketImpl.isReadyForWriting build iFd sec more).toOption.map Prod.snd
  | .isThereException build iFd, sec, more =>
    (SocketImpl.isThereException build iFd sec more).toOption.map Prod.snd
  | .checkSocketsStatus _ pool, sec, more =>
    if size pool.setByFileDescriptor = 0 then none else some (statusWait sec more)

/-- The call reports that nothing was found. -/
def Call.ReportsIdle : Call → Ending (ℤ → PollEvents) → Prop
  | .isReadyForReading build _, ending => readyResult build ending = .ok false
  | .isReadyForWriting build _, ending => readyResult build ending = .ok false
  | .isThereException build _, ending => readyResult build ending = .ok false
  | .checkSocketsStatus records pool, ending =>
    (SocketsPool.checkSocketsStatus (statusReturn ending) records pool).1 =
      .error .socketStatusNotChanged

/-- The requested time in microseconds: the second argument is in microseconds, for
`checkSocketsStatus` in milliseconds. -/
def Call.requested : Call → UInt64 → UInt64 → ℕ
  | .checkSocketsStatus _ _, sec, more => 1000 * (1000 * sec.toNat + more.toNat)
  | _, sec, more => 1000000 * sec.toNat + more.toNat

/-! ### What a call should do -/

/-- The ends of the system calls that a call can see. -/
def Call.Allowed (call : Call) (sec more start : UInt64)
    (returns : List (Return UInt64 (ℤ → PollEvents))) : Prop :=
  match call.wait sec more with
  | none => returns = []
  | some wait => wait.Allowed start returns

/-- A wait that begins again is for the requested time less the time since the beginning, and the call
reports that nothing was found only when the requested time has passed. -/
def Call.Keeps (call : Call) (sec more start : UInt64)
    (returns : List (Return UInt64 (ℤ → PollEvents))) : Prop :=
  ∀ wait, call.wait sec more = some wait →
    (∀ p ∈ (wait.run start returns).resumed,
      ∃ n, p.2 = .micros n ∧ n + 1000 * p.1 = call.requested sec more) ∧
    ∀ e, (wait.run start returns).returned = some e → call.ReportsIdle e.ending →
      call.requested sec more ≤ 1000 * e.now

/-- The requested time is whole milliseconds that the limit of the loop can hold; or the call does
not wait, or `select` refuses the time. -/
def readyExpressible (build : Build) (iFd : ℤ) (sec more : UInt64) : Prop :=
  1000000 ≤ more ∨
    match build with
    | .poll => more.toNat % 1000 = 0 ∧ 1000 * sec.toNat + more.toNat / 1000 < 2 ^ 31
    | .select =>
      1024 ≤ iFd ∨ 2 ^ 63 ≤ sec.toNat ∨
        more.toNat % 1000 = 0 ∧ 1000 * sec.toNat + more.toNat / 1000 < 2 ^ 64

def Call.Expressible : Call → UInt64 → UInt64 → Prop
  | .isReadyForReading build iFd, sec, more => readyExpressible build iFd sec more
  | .isReadyForWriting build iFd, sec, more => readyExpressible build iFd sec more
  | .isThereException build iFd, sec, more => readyExpressible build iFd sec more
  | .checkSocketsStatus _ pool, sec, more =>
    size pool.setByFileDescriptor = 0 ∨ 1000 * sec.toNat + more.toNat < 2 ^ 31

theorem readyResult_eq_false_iff (build : Build) (ending : Ending ρ) :
    readyResult build ending = .ok false ↔ ending.IsIdle := by
  cases ending with
  | failed iErrno => cases build <;> exact iff_of_false nofun id
  | ready found => exact iff_of_false nofun id
  | _ => exact iff_of_true rfl trivial

theorem Call.reportsIdle_iff {call : Call} {sec more : UInt64} {wait : Wait}
    (hwait : call.wait sec more = some wait) (ending : Ending (ℤ → PollEvents)) :
    call.ReportsIdle ending ↔ ending.IsIdle := by
  cases call with
  | checkSocketsStatus records pool =>
    have hsize : size pool.setByFileDescriptor ≠ 0 := by
      intro hzero
      rw [Call.wait, if_pos hzero] at hwait
      cases hwait
    rw [Call.ReportsIdle, SocketsPool.checkSocketsStatus.eq_def, if_neg hsize]
    cases ending with
    | failed iErrno => exact iff_of_false nofun id
    | ready found => exact iff_of_false nofun id
    | _ => exact iff_of_true rfl trivial
  | _ => exact readyResult_eq_false_iff _ ending

/-- What a call should do is what its loop should do. -/
theorem Call.keeps_iff_run (call : Call) (sec more start : UInt64)
    (returns : List (Return UInt64 (ℤ → PollEvents))) :
    call.Keeps sec more start returns ↔ ∀ wait, call.wait sec more = some wait →
      Waits.Keeps (call.requested sec more) (wait.run start returns) := by
  unfold Call.Keeps
  refine forall_congr' fun wait => forall_congr' fun hwait => ?_
  constructor
  · rintro ⟨hresumed, hidle⟩
    exact ⟨hresumed, fun e he h => hidle e he ((Call.reportsIdle_iff hwait _).mpr h)⟩
  · intro h
    exact ⟨h.resumed, fun e he hreports => h.idle e he ((Call.reportsIdle_iff hwait _).mp hreports)⟩

/-! ### Limits that hold the time -/

theorem pollLoop_embeds : Embeds shortening pollLoop (2 ^ 31) fun n => (n : ℤ) where
  ask n _ := by
    dsimp only [pollLoop, shortening]
    rw [if_neg (by omega), Int.toNat_natCast]
  resume n t hn := by
    have hlimit : ((n : ℤ) % 2 ^ 64).toNat = n := by omega
    dsimp only [pollLoop, shortening]
    rw [hlimit]
    by_cases hover : n ≤ t
    · rw [if_pos hover, if_pos hover]
      rfl
    · have hleft : SocketsPool.toInt ((n : ℤ) - t) = (n - t : ℕ) := by
        unfold SocketsPool.toInt
        rw [Int.bmod_eq_of_le (by omega) (by omega)]
        omega
      rw [if_neg hover, if_neg hover, hleft]
      rfl
  bounded n t n' hn h := by
    dsimp only [shortening] at h
    split at h
    · cases h
    · cases h
      omega

/-- The limit of `select` for whole milliseconds. -/
def wholeLimit (n : ℕ) : SelectLimit := ⟨(n / 1000 : ℕ), (n - n / 1000 * 1000) * 1000, n⟩

theorem ask_wholeLimit (n : ℕ) : selectLoop.ask (wholeLimit n) = .micros (1000 * n) := by
  dsimp only [selectLoop, wholeLimit]
  rw [if_neg (by omega), Int.toNat_natCast]
  congr 1
  omega

theorem selectLoop_embeds : Embeds shortening selectLoop (2 ^ 64) wholeLimit where
  ask n _ := ask_wholeLimit n
  resume n t _ := by
    dsimp only [selectLoop, shortening, wholeLimit]
    by_cases hover : n ≤ t
    · rw [if_pos hover, if_pos hover]
      rfl
    · rw [if_neg hover, if_neg hover]
      rfl
  bounded n t n' hn h := by
    dsimp only [shortening] at h
    split at h
    · cases h
    · cases h
      omega

/-- The limit is the whole time. -/
def Wait.Holds (time : ℕ) : Wait → Prop
  | .poll i => ∃ n : ℕ, n < 2 ^ 31 ∧ i = n ∧ time = 1000 * n
  | .select limit => ∃ n : ℕ, n < 2 ^ 64 ∧ limit = wholeLimit n ∧ time = 1000 * n

theorem Wait.Holds.keeps_iff_paced {wait : Wait} {time : ℕ} (hholds : wait.Holds time) {start : UInt64}
    {returns : List (Return UInt64 ρ)} (hallowed : wait.Allowed start returns) :
    Keeps time (wait.run start returns) ↔ Paced time (interruptions (sinceStart start returns)) := by
  cases wait with
  | poll i =>
    obtain ⟨n, hn, rfl, rfl⟩ := hholds
    unfold Wait.run
    dsimp only
    rw [pollLoop_embeds.run_eq _ hn]
    exact shortening_keeps_iff_paced ((pollLoop_embeds.allowed_iff _ hn).mp hallowed)
  | select limit =>
    obtain ⟨n, hn, rfl, rfl⟩ := hholds
    unfold Wait.run
    dsimp only
    rw [selectLoop_embeds.run_eq _ hn]
    exact shortening_keeps_iff_paced ((selectLoop_embeds.allowed_iff _ hn).mp hallowed)

/-! ### Limits that do not -/

/-- The limit is not the time, and the wait is not refused. -/
def Wait.Misses (time : ℕ) : Wait → Prop
  | .poll i => -2 ^ 31 ≤ i ∧ i < 2 ^ 31 ∧ (0 ≤ i → 1000 * i < time)
  | .select limit => 0 ≤ limit.tv_sec ∧ time ≠ 1000 * limit.ullMilliSecondsToWait

theorem sinceStart_zero (now : UInt64) (ending : Ending ρ) :
    sinceStart 0 [⟨now, ending⟩] = [⟨now.toNat, ending⟩] := by
  unfold sinceStart
  rw [List.map_singleton, UInt64.sub_zero]

/-- A limit that misses the time is seen at an interruption at the beginning, or when `poll` has
waited as long as it was asked to. -/
theorem Wait.Misses.exists_not_keeps {wait : Wait} {time : ℕ} (hmisses : wait.Misses time) :
    ∃ (start : UInt64) (returns : List (Return UInt64 ρ)), wait.Allowed start returns ∧
      Paced time (interruptions (sinceStart start returns)) ∧ ¬Keeps time (wait.run start returns) := by
  cases wait with
  | poll i =>
    obtain ⟨hlow, hhigh, htime⟩ := hmisses
    unfold Wait.Allowed Wait.run
    by_cases hi : i < 0
    · -- the wait after the interruption has no limit either
      have hresume : pollLoop.resume i 0 = some i := by
        dsimp only [pollLoop]
        rw [if_neg (by omega)]
        unfold SocketsPool.toInt
        rw [Int.natCast_zero, Int.sub_zero, Int.bmod_eq_of_le (by omega) (by omega)]
      have hask : pollLoop.ask i = .forever := if_pos hi
      have hrun : Waits.run pollLoop i [⟨0, .interrupted⟩] =
          (⟨[(0, .forever)], none⟩ : Run ρ) := by
        unfold Waits.run
        dsimp only
        rw [hresume]
        dsimp only [Waits.run]
        rw [hask]
      refine ⟨0, [⟨0, .interrupted⟩], ?_⟩
      dsimp only
      rw [sinceStart_zero, UInt64.toNat_zero, hrun]
      refine ⟨?_, List.IsChain.singleton _, fun h => ?_⟩
      · unfold Waits.Allowed
        rw [hask]
        dsimp only
        rw [hresume]
        exact ⟨le_refl _, trivial, trivial⟩
      · obtain ⟨n, hn, -⟩ := h.resumed _ List.mem_cons_self
        cases hn
    · have hnow : (UInt64.ofNat i.toNat).toNat = i.toNat := by
        apply UInt64.toNat_ofNat_of_lt'
        show i.toNat < 2 ^ 64
        omega
      refine ⟨0, [⟨UInt64.ofNat i.toNat, .timedOut⟩], ?_⟩
      dsimp only
      rw [sinceStart_zero, hnow]
      refine ⟨⟨Nat.zero_le _, ?_, rfl⟩, List.IsChain.nil, fun h => ?_⟩
      · rw [show pollLoop.ask i = .micros (1000 * i.toNat) from if_neg hi]
        exact le_refl _
      · have hidle : time ≤ 1000 * i.toNat := h.idle _ rfl trivial
        have := htime (by omega)
        omega
  | select limit =>
    obtain ⟨hsec, htime⟩ := hmisses
    unfold Wait.Allowed Wait.run
    refine ⟨0, [⟨0, .interrupted⟩], ?_⟩
    dsimp only
    rw [sinceStart_zero, UInt64.toNat_zero]
    have hadmits : (selectLoop.ask limit).Admits 0 (.interrupted : Ending ρ) := by
      rw [show selectLoop.ask limit = .micros _ from if_neg (by omega)]
      exact trivial
    unfold Waits.Allowed Waits.run
    dsimp only
    by_cases hover : limit.ullMilliSecondsToWait ≤ 0
    · have hresume : selectLoop.resume limit 0 = none := if_pos hover
      rw [hresume]
      refine ⟨⟨le_refl _, hadmits, rfl⟩, List.IsChain.singleton _, fun h => ?_⟩
      have hidle : time ≤ 1000 * 0 := h.idle _ rfl trivial
      omega
    · have hresume : selectLoop.resume limit 0 =
          some (wholeLimit limit.ullMilliSecondsToWait) := if_neg hover
      rw [hresume]
      refine ⟨⟨le_refl _, hadmits, trivial⟩, List.IsChain.singleton _, fun h => ?_⟩
      obtain ⟨n, hn, htotal⟩ := h.resumed _ List.mem_cons_self
      have hasked := Timeout.micros.inj ((ask_wholeLimit _).symm.trans hn)
      omega

/-! ### The arguments of a call -/

theorem iMilliSeconds_eq_bmod (sec ms : UInt64) :
    iMilliSeconds sec ms = ((1000 * sec.toNat + ms.toNat : ℕ) : ℤ).bmod (2 ^ 32) := by
  have hsum : (sec * 1000 + ms).toNat = (1000 * sec.toNat + ms.toNat) % 2 ^ 64 := by
    rw [UInt64.toNat_add, UInt64.toNat_mul, Nat.mod_add_mod, Nat.mul_comm]
    rfl
  have hmod : (((1000 * sec.toNat + ms.toNat) % 2 ^ 64 : ℕ) : ℤ) % ((2 ^ 32 : ℕ) : ℤ) =
      ((1000 * sec.toNat + ms.toNat : ℕ) : ℤ) % ((2 ^ 32 : ℕ) : ℤ) := by omega
  unfold iMilliSeconds SocketsPool.toInt
  rw [hsum, Int.bmod_def, hmod, ← Int.bmod_def]

theorem pollWait_holds {sec ms : UInt64} (h : 1000 * sec.toNat + ms.toNat < 2 ^ 31) :
    (Wait.poll (iMilliSeconds sec ms)).Holds (1000 * (1000 * sec.toNat + ms.toNat)) := by
  refine ⟨_, h, ?_, rfl⟩
  rw [iMilliSeconds_eq_bmod, Int.bmod_eq_of_le (by omega) (by omega)]

/-- The `int` is the number of milliseconds less a multiple of 2 to the 32. -/
theorem pollWait_misses {sec ms : UInt64} {time : ℕ}
    (htime : 1000 * (1000 * sec.toNat + ms.toNat) ≤ time)
    (h : 2 ^ 31 ≤ 1000 * sec.toNat + ms.toNat ∨ 1000 * (1000 * sec.toNat + ms.toNat) < time) :
    (Wait.poll (iMilliSeconds sec ms)).Misses time := by
  unfold Wait.Misses
  dsimp only
  rw [iMilliSeconds_eq_bmod]
  generalize 1000 * sec.toNat + ms.toNat = n at htime h
  rw [Int.bmod_def]
  split
  · exact ⟨by omega, by omega, fun _ => by omega⟩
  · exact ⟨by omega, by omega, fun _ => by omega⟩

theorem selectWait_holds {sec more : UInt64} (hmore : more.toNat < 1000000)
    (hwhole : more.toNat % 1000 = 0) (h : 1000 * sec.toNat + more.toNat / 1000 < 2 ^ 64) :
    (Wait.select (selectLimit sec more)).Holds (1000000 * sec.toNat + more.toNat) := by
  refine ⟨_, h, ?_, by omega⟩
  have hsum : (sec * 1000 + more / 1000).toNat = 1000 * sec.toNat + more.toNat / 1000 := by
    rw [UInt64.toNat_add, UInt64.toNat_mul, UInt64.toNat_div, Nat.mod_add_mod, Nat.mul_comm]
    exact Nat.mod_eq_of_lt h
  have hsec : (sec.toNat : ℤ).bmod (2 ^ 64) = sec.toNat := by
    rw [Int.bmod_eq_of_le (by omega) (by omega)]
  have htvsec : (sec.toNat : ℤ) =
      ((1000 * sec.toNat + more.toNat / 1000) / 1000 : ℕ) := by omega
  have htvusec : more.toNat = (1000 * sec.toNat + more.toNat / 1000 -
      (1000 * sec.toNat + more.toNat / 1000) / 1000 * 1000) * 1000 := by omega
  unfold selectLimit wholeLimit
  rw [hsum, hsec, ← htvsec, ← htvusec]

theorem selectWait_misses {sec more : UInt64} (hsec : sec.toNat < 2 ^ 63)
    (h : more.toNat % 1000 ≠ 0 ∨ 2 ^ 64 ≤ 1000 * sec.toNat + more.toNat / 1000) :
    (Wait.select (selectLimit sec more)).Misses (1000000 * sec.toNat + more.toNat) := by
  have hsum : (sec * 1000 + more / 1000).toNat < 2 ^ 64 := UInt64.toNat_lt _
  have hpositive : (sec.toNat : ℤ).bmod (2 ^ 64) = sec.toNat := by
    rw [Int.bmod_eq_of_le (by omega) (by omega)]
  unfold Wait.Misses selectLimit
  dsimp only
  rw [hpositive]
  exact ⟨by omega, by omega⟩

/-- A wait holds the requested time, or is refused, or misses the time. -/
def Decides (expressible : Prop) (time : ℕ) (wait : Wait) : Prop :=
  (expressible ∧ (wait.Holds time ∨ ∃ limit, wait = .select limit ∧ limit.tv_sec < 0)) ∨
    (¬expressible ∧ wait.Misses time)

theorem readyWait_decides (events : PollEvents) (build : Build) (iFd : ℤ) (sec more : UInt64) :
    ((readyWait events build iFd sec more).toOption = none ∧ readyExpressible build iFd sec more) ∨
      ∃ wait, (readyWait events build iFd sec more).toOption = some (events, wait) ∧
        Decides (readyExpressible build iFd sec more) (1000000 * sec.toNat + more.toNat) wait := by
  unfold readyWait readyExpressible
  by_cases hwrong : 1000000 ≤ more
  · rw [if_pos hwrong]
    exact Or.inl ⟨rfl, Or.inl hwrong⟩
  have hmore : more.toNat < 1000000 := by
    rw [UInt64.le_iff_toNat_le] at hwrong
    exact Nat.lt_of_not_le hwrong
  rw [if_neg hwrong]
  cases build with
  | poll =>
    refine Or.inr ⟨_, rfl, ?_⟩
    dsimp only
    have hms : (more / 1000).toNat = more.toNat / 1000 := UInt64.toNat_div _ _
    by_cases hfits : more.toNat % 1000 = 0 ∧ 1000 * sec.toNat + more.toNat / 1000 < 2 ^ 31
    · refine Or.inl ⟨Or.inr hfits, Or.inl ?_⟩
      have hholds : (Wait.poll (iMilliSeconds sec (more / 1000))).Holds _ :=
        pollWait_holds (by rw [hms]; exact hfits.2)
      rw [hms] at hholds
      rw [show 1000000 * sec.toNat + more.toNat =
        1000 * (1000 * sec.toNat + more.toNat / 1000) by omega]
      exact hholds
    · refine Or.inr ⟨not_or.mpr ⟨hwrong, hfits⟩, pollWait_misses ?_ ?_⟩
      · rw [hms]
        omega
      · rw [hms]
        omega
  | select =>
    dsimp only
    by_cases hfd : 1024 ≤ iFd
    · rw [if_pos hfd]
      exact Or.inl ⟨rfl, Or.inr (Or.inl hfd)⟩
    rw [if_neg hfd]
    refine Or.inr ⟨_, rfl, ?_⟩
    by_cases hsec : 2 ^ 63 ≤ sec.toNat
    · refine Or.inl ⟨Or.inr (Or.inr (Or.inl hsec)), Or.inr ⟨_, rfl, ?_⟩⟩
      have hlt := UInt64.toNat_lt sec
      unfold selectLimit
      dsimp only
      rw [Int.bmod_def]
      split <;> omega
    by_cases hfits : more.toNat % 1000 = 0 ∧ 1000 * sec.toNat + more.toNat / 1000 < 2 ^ 64
    · exact Or.inl ⟨Or.inr (Or.inr (Or.inr hfits)),
        Or.inl (selectWait_holds hmore hfits.1 hfits.2)⟩
    · refine Or.inr ⟨?_, selectWait_misses (Nat.lt_of_not_le hsec) (by omega)⟩
      rintro (h | h | h | h)
      · exact hwrong h
      · exact hfd h
      · exact hsec h
      · exact hfits h

theorem Call.decides (call : Call) (sec more : UInt64) :
    (call.wait sec more = none ∧ call.Expressible sec more) ∨
      ∃ wait, call.wait sec more = some wait ∧
        Decides (call.Expressible sec more) (call.requested sec more) wait := by
  have hready : ∀ events build iFd,
      ((readyWait events build iFd sec more).toOption.map Prod.snd = none ∧
        readyExpressible build iFd sec more) ∨
      ∃ wait, (readyWait events build iFd sec more).toOption.map Prod.snd = some wait ∧
        Decides (readyExpressible build iFd sec more) (1000000 * sec.toNat + more.toNat) wait := by
    intro events build iFd
    rcases readyWait_decides events build iFd sec more with ⟨hnone, h⟩ | ⟨wait, hsome, h⟩
    · exact Or.inl ⟨by rw [hnone]; rfl, h⟩
    · exact Or.inr ⟨wait, by rw [hsome]; rfl, h⟩
  cases call with
  | isReadyForReading build iFd => exact hready ⟨true, false, false⟩ build iFd
  | isReadyForWriting build iFd => exact hready ⟨false, true, false⟩ build iFd
  | isThereException build iFd => exact hready ⟨false, false, true⟩ build iFd
  | checkSocketsStatus records pool =>
    rw [Call.wait, Call.Expressible, Call.requested]
    · by_cases hsize : size pool.setByFileDescriptor = 0
      · exact Or.inl ⟨if_pos hsize, Or.inl hsize⟩
      · refine Or.inr ⟨_, if_neg hsize, ?_⟩
        by_cases hfits : 1000 * sec.toNat + more.toNat < 2 ^ 31
        · exact Or.inl ⟨Or.inr hfits, Or.inl (pollWait_holds hfits)⟩
        · refine Or.inr ⟨not_or.mpr ⟨hsize, hfits⟩, pollWait_misses (le_refl _) ?_⟩
          exact Or.inl (Nat.le_of_not_lt hfits)

/-! ### The calls -/

theorem Call.keeps_iff_paced {call : Call} {sec more : UInt64} (h : call.Expressible sec more)
    {start : UInt64} {returns : List (Return UInt64 (ℤ → PollEvents))}
    (hallowed : call.Allowed sec more start returns) :
    call.Keeps sec more start returns ↔
      Paced (call.requested sec more) (interruptions (sinceStart start returns)) := by
  rw [Call.keeps_iff_run]
  unfold Call.Allowed at hallowed
  rcases call.decides sec more with ⟨hnone, -⟩ | ⟨wait, hsome, ⟨-, hwait⟩ | ⟨hnot, -⟩⟩
  · rw [hnone] at hallowed ⊢
    obtain rfl : returns = [] := hallowed
    exact iff_of_true (fun _ h => by cases h) List.IsChain.nil
  · rw [hsome] at hallowed ⊢
    have hone : (∀ wait', some wait = some wait' →
        Waits.Keeps (call.requested sec more) (wait'.run start returns)) ↔
        Waits.Keeps (call.requested sec more) (wait.run start returns) :=
      ⟨fun h => h wait rfl, fun h wait' hwait' => Option.some.inj hwait' ▸ h⟩
    rw [hone]
    rcases hwait with hholds | ⟨limit, rfl, hrefused⟩
    · exact hholds.keeps_iff_paced hallowed
    · -- `select` fails at once
      have hask : selectLoop.ask limit = .invalid := if_pos hrefused
      cases returns with
      | nil => exact iff_of_true (keeps_waiting _) List.IsChain.nil
      | cons r rs =>
        obtain ⟨now, ending⟩ := r
        have hadmits := hallowed.2.1
        rw [hask] at hadmits
        cases ending with
        | failed iErrno =>
          obtain hrest : rs.map _ = [] := hallowed.2.2
          obtain rfl := List.map_eq_nil_iff.mp hrest
          exact iff_of_true ((keeps_returned_iff _ _).mpr nofun) List.IsChain.nil
        | _ => exact absurd hadmits id
  · exact absurd h hnot

/-- **The calls wait as long as they are asked to** just when the requested time is whole milliseconds
that their limit can hold, and then in the runs where an interruption that follows one after the
beginning comes when the time is over. -/
theorem Call.keeps_iff (call : Call) (sec more : UInt64) :
    (call.Expressible sec more ↔
      ∀ start returns, call.Allowed sec more start returns →
        Paced (call.requested sec more) (interruptions (sinceStart start returns)) →
        call.Keeps sec more start returns) ∧
    (call.Expressible sec more → ∀ start returns, call.Allowed sec more start returns →
      (call.Keeps sec more start returns ↔
        Paced (call.requested sec more) (interruptions (sinceStart start returns)))) := by
  refine ⟨⟨fun h start returns hallowed => (Call.keeps_iff_paced h hallowed).mpr, fun h => ?_⟩,
    fun h start returns => Call.keeps_iff_paced h⟩
  rcases call.decides sec more with ⟨-, hexpressible⟩ | ⟨wait, hsome, ⟨hexpressible, -⟩ | ⟨-, hmisses⟩⟩
  · exact hexpressible
  · exact hexpressible
  · obtain ⟨start, returns, hallowed, hpaced, hnot⟩ := hmisses.exists_not_keeps
    refine absurd ?_ hnot
    apply (call.keeps_iff_run sec more start returns).mp (h start returns ?_ hpaced) wait hsome
    unfold Call.Allowed
    rw [hsome]
    exact hallowed

/-- One second, interrupted after 400 and after 700 milliseconds. -/
def twiceInterrupted : List (Return UInt64 (ℤ → PollEvents)) :=
  [⟨400, .interrupted⟩, ⟨700, .interrupted⟩]

/-- After the second interruption the call gives up: 300 milliseconds are missing. -/
theorem not_keeps_twiceInterrupted :
    (Call.isReadyForReading .poll 3).Expressible 1 0 ∧
    (Call.isReadyForReading .poll 3).Allowed 1 0 0 twiceInterrupted ∧
    ¬(Call.isReadyForReading .poll 3).Keeps 1 0 0 twiceInterrupted := by
  have hwait : (Call.isReadyForReading .poll 3).wait 1 0 = some (.poll 1000) := by decide +kernel
  have hsince : sinceStart 0 twiceInterrupted = [⟨400, .interrupted⟩, ⟨700, .interrupted⟩] := by
    unfold sinceStart twiceInterrupted
    rw [List.map_cons, List.map_singleton, UInt64.sub_zero, UInt64.sub_zero]
    rfl
  have hfirst : pollLoop.resume 1000 400 = some 600 := by decide
  have hsecond : pollLoop.resume 600 700 = none := by decide
  refine ⟨Or.inr ⟨rfl, by decide⟩, ?_, fun h => ?_⟩
  · unfold Call.Allowed
    rw [hwait]
    unfold Wait.Allowed
    dsimp only
    rw [hsince]
    unfold Waits.Allowed
    dsimp only
    rw [hfirst]
    dsimp only [Waits.Allowed]
    rw [hsecond]
    exact ⟨by decide, trivial, by decide, trivial, rfl⟩
  · have hreturned : (Wait.run (.poll 1000) 0 twiceInterrupted).returned =
        some ⟨700, .interrupted⟩ := by
      unfold Wait.run
      dsimp only
      rw [hsince]
      unfold Waits.run
      dsimp only
      rw [hfirst]
      dsimp only [Waits.run]
      rw [hsecond]
    have hidle : 1000000 * 1 + 0 ≤ 1000 * 700 := (h (.poll 1000) hwait).2 _ hreturned rfl
    exact absurd hidle (by decide)

end SocketImpl

end CatraLibraries
