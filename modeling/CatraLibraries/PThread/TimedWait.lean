/-
# The deadline of a wait

`PCondition::timedWait` (`PThread/src/PCondition.cpp`) adds the requested time to the clock, and
`pthread_cond_timedwait` wants the sum as seconds and nanoseconds below a second.  The milliseconds of
the clock and of the request are added, and one second is carried if they reach 1000.

`EventsSet` passes the milliseconds of its caller, whatever they are.  One carry is enough exactly
where the two together stay below two seconds (`deadline_exact_iff`); beyond, the nanoseconds reach a
second, and no `pthread_cond_timedwait` takes such a deadline.
-/
import CatraLibraries.Socket.TimedLoop

namespace CatraLibraries

open SocketImpl (Timeval toLong)

namespace PCondition

/-! ### The code -/

/-- What `DateTime::nowUTCInMilliSecs` sets. -/
structure Now where
  ullNowUTCInSecs : UInt64
  ulAdditionalMilliSecs : UInt64
  millis_lt : ulAdditionalMilliSecs.toNat < 1000

/-- `nowUTCInMilliSecs`, from the reading of `gettimeofday`. -/
def nowUTCInMilliSecs (tvTimeval : Timeval) : Now where
  ullNowUTCInSecs := UInt64.ofNat tvTimeval.tv_sec
  ulAdditionalMilliSecs := UInt64.ofNat (tvTimeval.tv_usec / 1000)
  millis_lt := by
    have hlt := tvTimeval.usec_lt
    rw [UInt64.toNat_ofNat']
    omega

/-- A `timespec`. -/
structure Timespec where
  tv_sec : ℤ
  tv_nsec : ℤ
  deriving DecidableEq, Repr

def Timespec.nanos (t : Timespec) : ℤ := 1000000000 * t.tv_sec + t.tv_nsec

/-- Seconds and additional milliseconds, in the arithmetic of `unsigned long`, as a `timespec`. -/
def timespecOf (seconds milliSeconds : UInt64) : Timespec where
  tv_sec := toLong seconds.toNat
  tv_nsec := toLong (milliSeconds * 1000000).toNat

/-- `waitTime`. -/
def waitTime (now : Now) (ulSeconds ulAdditionalMilliSeconds : UInt64) : Timespec :=
  if ulAdditionalMilliSeconds + now.ulAdditionalMilliSecs ≥ 1000 then
    timespecOf (now.ullNowUTCInSecs + ulSeconds + 1)
      (ulAdditionalMilliSeconds + now.ulAdditionalMilliSecs - 1000)
  else
    timespecOf (now.ullNowUTCInSecs + ulSeconds)
      (ulAdditionalMilliSeconds + now.ulAdditionalMilliSecs)

/-- The error of the method, with the error number of the call. -/
inductive PConditionError
  | condTimedWaitFailed (lErrorNumber : ℤ)
  deriving DecidableEq, Repr

/-- `timedWait`; `pthread_cond_timedwait` is given by the number it returns for a deadline. -/
def timedWait (pthread_cond_timedwait : Timespec → ℤ) (now : Now)
    (ulSeconds ulAdditionalMilliSeconds : UInt64) : Except PConditionError Unit :=
  let lErrorNumber := pthread_cond_timedwait (waitTime now ulSeconds ulAdditionalMilliSeconds)
  if lErrorNumber ≠ 0 then .error (.condTimedWaitFailed lErrorNumber) else .ok ()

/-! ### The deadline -/

/-- **What the deadline should be**: the clock and the requested time together, with the nanoseconds
of one second. -/
structure Exact (now : Now) (ulSeconds ulAdditionalMilliSeconds : UInt64) (deadline : Timespec) :
    Prop where
  sum : deadline.nanos = 1000000 * (1000 * (now.ullNowUTCInSecs.toNat + ulSeconds.toNat)
    + (now.ulAdditionalMilliSecs.toNat + ulAdditionalMilliSeconds.toNat))
  nsec_nonneg : 0 ≤ deadline.tv_nsec
  nsec_lt : deadline.tv_nsec < 1000000000

/-- The deadline is one that `time_t` has. -/
def InRange (now : Now) (ulSeconds ulAdditionalMilliSeconds : UInt64) : Prop :=
  1000 * (now.ullNowUTCInSecs.toNat + ulSeconds.toNat)
    + (now.ulAdditionalMilliSecs.toNat + ulAdditionalMilliSeconds.toNat) < 1000 * 2 ^ 63

variable {now : Now} {ulSeconds ulAdditionalMilliSeconds : UInt64}

theorem toLong_of_lt {n : ℕ} (h : n < 2 ^ 63) : toLong n = n :=
  Int.bmod_eq_of_le (by omega) (by omega)

/-- A number from 2⁶³ on is negative as a `long`. -/
theorem toLong_neg {n : ℕ} (h : 2 ^ 63 ≤ n) (hlt : n < 2 ^ 64) : toLong n = n - 2 ^ 64 := by
  rw [toLong, Int.bmod_def]
  omega

/-- Milliseconds that do not overflow as nanoseconds. -/
theorem tv_nsec_timespecOf (seconds : UInt64) {milliSeconds : UInt64} {m : ℕ}
    (hm : milliSeconds.toNat = m) (hlt : m < 2 ^ 43) :
    (timespecOf seconds milliSeconds).tv_nsec = ((m * 1000000 : ℕ) : ℤ) := by
  have hmillion : (1000000 : UInt64).toNat = 1000000 := by decide
  have hmul : (milliSeconds * 1000000).toNat = m * 1000000 := by
    rw [UInt64.toNat_mul, hm, hmillion, Nat.mod_eq_of_lt]
    omega
  have hsmall : m * 1000000 < 2 ^ 63 := by omega
  generalize m * 1000000 = n at *
  unfold timespecOf
  dsimp only
  rw [hmul]
  exact toLong_of_lt hsmall

theorem tv_sec_timespecOf {seconds : UInt64} (milliSeconds : UInt64) {n : ℕ}
    (hn : seconds.toNat = n) (hlt : n < 2 ^ 63) : (timespecOf seconds milliSeconds).tv_sec = n := by
  unfold timespecOf
  dsimp only
  rw [hn]
  exact toLong_of_lt hlt

/-- One carry is enough below two seconds. -/
theorem exact_of_lt (hrange : InRange now ulSeconds ulAdditionalMilliSeconds)
    (h : ulAdditionalMilliSeconds.toNat + now.ulAdditionalMilliSecs.toNat < 2000) :
    Exact now ulSeconds ulAdditionalMilliSeconds
      (waitTime now ulSeconds ulAdditionalMilliSeconds) := by
  unfold InRange at hrange
  have hmillis : (ulAdditionalMilliSeconds + now.ulAdditionalMilliSecs).toNat
      = ulAdditionalMilliSeconds.toNat + now.ulAdditionalMilliSecs.toNat := by
    rw [UInt64.toNat_add]
    omega
  have hsecs : (now.ullNowUTCInSecs + ulSeconds).toNat
      = now.ullNowUTCInSecs.toNat + ulSeconds.toNat := by
    rw [UInt64.toNat_add]
    omega
  generalize hm : ulAdditionalMilliSeconds.toNat + now.ulAdditionalMilliSecs.toNat = m at *
  generalize hs : now.ullNowUTCInSecs.toNat + ulSeconds.toNat = secs at *
  unfold waitTime
  split
  · next hcarry =>
    have hle : 1000 ≤ m := hmillis ▸ UInt64.le_iff_toNat_le.mp hcarry
    have hrest : (ulAdditionalMilliSeconds + now.ulAdditionalMilliSecs - 1000).toNat
        = m - 1000 := by
      rw [UInt64.toNat_sub_of_le _ _ hcarry, hmillis]
      rfl
    have hnext : (now.ullNowUTCInSecs + ulSeconds + 1).toNat = secs + 1 := by
      rw [UInt64.toNat_add, hsecs]
      exact Nat.mod_eq_of_lt (by show secs + 1 < 2 ^ 64; omega)
    have hnsec := tv_nsec_timespecOf (now.ullNowUTCInSecs + ulSeconds + 1) hrest (by omega)
    have hsec := tv_sec_timespecOf
      (ulAdditionalMilliSeconds + now.ulAdditionalMilliSecs - 1000) hnext (by omega)
    refine ⟨?_, ?_, ?_⟩
    · rw [Timespec.nanos, hsec, hnsec]
      omega
    · rw [hnsec]
      omega
    · rw [hnsec]
      omega
  · next hbelow =>
    have hlt : m < 1000 := hmillis ▸ UInt64.lt_iff_toNat_lt.mp (UInt64.not_le.mp hbelow)
    have hnsec := tv_nsec_timespecOf (now.ullNowUTCInSecs + ulSeconds) hmillis (by omega)
    have hsec := tv_sec_timespecOf
      (ulAdditionalMilliSeconds + now.ulAdditionalMilliSecs) hsecs (by omega)
    refine ⟨?_, ?_, ?_⟩
    · rw [Timespec.nanos, hsec, hnsec]
      omega
    · rw [hnsec]
      omega
    · rw [hnsec]
      omega

/-- The other way: behind a carry the nanoseconds are those of less than a second. -/
theorem lt_of_exact (hrange : InRange now ulSeconds ulAdditionalMilliSeconds)
    (h : Exact now ulSeconds ulAdditionalMilliSeconds
      (waitTime now ulSeconds ulAdditionalMilliSeconds)) :
    ulAdditionalMilliSeconds.toNat + now.ulAdditionalMilliSecs.toNat < 2000 := by
  unfold InRange at hrange
  obtain ⟨hsum, hnonneg, hlt⟩ := h
  have hsecs : (now.ullNowUTCInSecs + ulSeconds).toNat
      = now.ullNowUTCInSecs.toNat + ulSeconds.toNat := by
    rw [UInt64.toNat_add]
    omega
  generalize hs : now.ullNowUTCInSecs.toNat + ulSeconds.toNat = secs at *
  unfold Timespec.nanos at hsum
  unfold waitTime at hsum hnonneg hlt
  split at hsum
  · next hcarry =>
    rw [if_pos hcarry] at hnonneg hlt
    have hnext : (now.ullNowUTCInSecs + ulSeconds + 1).toNat = secs + 1 := by
      rw [UInt64.toNat_add, hsecs]
      exact Nat.mod_eq_of_lt (by show secs + 1 < 2 ^ 64; omega)
    rcases Nat.lt_or_ge (secs + 1) (2 ^ 63) with hsmall | hlarge
    · rw [tv_sec_timespecOf _ hnext hsmall] at hsum
      omega
    · -- the carry makes the seconds negative
      have hneg : (timespecOf (now.ullNowUTCInSecs + ulSeconds + 1)
          (ulAdditionalMilliSeconds + now.ulAdditionalMilliSecs - 1000)).tv_sec < 0 := by
        unfold timespecOf
        dsimp only
        rw [hnext, toLong_neg hlarge (by omega)]
        omega
      omega
  · next hbelow =>
    have hmillis := UInt64.lt_iff_toNat_lt.mp (UInt64.not_le.mp hbelow)
    have hthousand : (1000 : UInt64).toNat = 1000 := by decide
    rw [hthousand] at hmillis
    rw [tv_sec_timespecOf _ hsecs (by omega), tv_nsec_timespecOf _ rfl (by omega)] at hsum
    omega

/-- **The deadline is exact** where one carry is enough. -/
theorem deadline_exact_iff (hrange : InRange now ulSeconds ulAdditionalMilliSeconds) :
    Exact now ulSeconds ulAdditionalMilliSeconds (waitTime now ulSeconds ulAdditionalMilliSeconds)
      ↔ ulAdditionalMilliSeconds.toNat + now.ulAdditionalMilliSecs.toNat < 2000 :=
  ⟨lt_of_exact hrange, exact_of_lt hrange⟩

/-- A clock at 999 milliseconds. -/
def lastMilli : Now := nowUTCInMilliSecs ⟨1500000000, 999999, by decide, by decide⟩

/-- Five seconds and a half from there. -/
theorem deadline_exact_iff_half : Exact lastMilli 5 500 (waitTime lastMilli 5 500) :=
  (deadline_exact_iff (by unfold InRange; decide)).mpr (by decide)

/-- Two seconds, all of them passed as milliseconds: the nanoseconds are a whole second. -/
theorem not_exact_of_twoThousand :
    InRange (nowUTCInMilliSecs ⟨1500000000, 0, by decide, by decide⟩) 0 2000 ∧
      waitTime (nowUTCInMilliSecs ⟨1500000000, 0, by decide, by decide⟩) 0 2000
        = ⟨1500000001, 1000000000⟩ ∧
      ¬ Exact (nowUTCInMilliSecs ⟨1500000000, 0, by decide, by decide⟩) 0 2000
        (waitTime (nowUTCInMilliSecs ⟨1500000000, 0, by decide, by decide⟩) 0 2000) := by
  have htime : waitTime (nowUTCInMilliSecs ⟨1500000000, 0, by decide, by decide⟩) 0 2000
      = ⟨1500000001, 1000000000⟩ := by decide
  refine ⟨by unfold InRange; decide, htime, fun h => ?_⟩
  have hlt := h.nsec_lt
  rw [htime] at hlt
  exact absurd hlt (by decide)

end PCondition

end CatraLibraries
