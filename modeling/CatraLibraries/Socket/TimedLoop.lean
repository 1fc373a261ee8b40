/-
# Loops with a time limit

`SocketImpl::waitForBuffer`, `vacuum` and `vacuumByTelnet` read one byte after the other until their
time is over.  At the head of each turn the three have the same text: the time since the start, whether
that is more than the limit, and otherwise the time that is left, which is how long the turn may wait
for a byte.  The seconds are computed with a borrow.  The microseconds of the time since the start,
however, are those of the sum of the two readings, and the microseconds left are those of the limit and
that sum together: both `+` stand where a difference is meant.

So the wait is right for some of the readings only (`ask_exact_iff`).

The clock counts seconds since the Epoch.
-/
import CatraLibraries.Lib.Memory
import Mathlib.Algebra.Order.Ring.Int
import Mathlib.Data.Int.Order.Basic

namespace CatraLibraries

namespace SocketImpl

open Memory

/-! ### The time that is left -/

/-- A reading of the clock. -/
structure Timeval where
  tv_sec : ℕ
  tv_usec : ℕ
  sec_lt : tv_sec < 2 ^ 63
  usec_lt : tv_usec < 1000000
  deriving DecidableEq, Repr

def Timeval.micros (t : Timeval) : ℤ := 1000000 * t.tv_sec + t.tv_usec

/-- A `long` where the code compares it with an `unsigned long`. -/
def toUnsignedLong (x : ℤ) : ℕ := (x % 2 ^ 64).toNat

/-- An `unsigned long` stored in a `long`. -/
def toLong (x : ℤ) : ℤ := x.bmod (2 ^ 64)

/-- `ulLocalTimeoutInSeconds` and `ulLocalAdditionalTimeoutInMicroSeconds`. -/
structure Timeout where
  ulLocalTimeoutInSeconds : ℕ
  ulLocalAdditionalTimeoutInMicroSeconds : ℕ
  deriving DecidableEq, Repr

def Timeout.micros (timeout : Timeout) : ℤ :=
  1000000 * timeout.ulLocalTimeoutInSeconds + timeout.ulLocalAdditionalTimeoutInMicroSeconds

/-- `SCK_MAXTIMEOUTINSECONDS`. -/
def maxTimeoutInSeconds : ℕ := 1000000

/-- The limit of a call; `none` where the call answers `SCK_ACTIVATION_WRONG`. -/
def localTimeout (lTimeoutInSeconds lAdditionalTimeoutInMicroSeconds : ℤ) : Option Timeout :=
  if lTimeoutInSeconds < 0 ∧ lTimeoutInSeconds ≠ -1
      ∨ lAdditionalTimeoutInMicroSeconds < 0 ∧ lAdditionalTimeoutInMicroSeconds ≠ -1
      ∨ 1000000 ≤ lAdditionalTimeoutInMicroSeconds then none
  else if lTimeoutInSeconds = -1 then some ⟨maxTimeoutInSeconds, 0⟩
  else some ⟨toUnsignedLong lTimeoutInSeconds, toUnsignedLong lAdditionalTimeoutInMicroSeconds⟩

/-- `tvElapsedTime` and `tvRemainingTime`. -/
structure Interval where
  tv_sec : ℤ
  tv_usec : ℤ
  deriving DecidableEq, Repr

def Interval.micros (interval : Interval) : ℤ := 1000000 * interval.tv_sec + interval.tv_usec

/-- `tvElapsedTime`. -/
def elapsedTime (start current : Timeval) : Interval where
  tv_sec :=
    if start.tv_usec ≤ current.tv_usec then (current.tv_sec : ℤ) - start.tv_sec
    else current.tv_sec - 1 - start.tv_sec
  tv_usec := ((current.tv_usec : ℤ) + start.tv_usec) % 1000000

/-- `tvRemainingTime`, or `none` where the loop ends. -/
def remainingTime (elapsed : Interval) (timeout : Timeout) : Option Interval :=
  if timeout.ulLocalTimeoutInSeconds < toUnsignedLong elapsed.tv_sec
      ∨ toUnsignedLong elapsed.tv_sec = timeout.ulLocalTimeoutInSeconds
        ∧ timeout.ulLocalAdditionalTimeoutInMicroSeconds < toUnsignedLong elapsed.tv_usec then none
  else some {
    tv_sec :=
      if toUnsignedLong elapsed.tv_usec ≤ timeout.ulLocalAdditionalTimeoutInMicroSeconds then
        toLong (timeout.ulLocalTimeoutInSeconds - elapsed.tv_sec)
      else toLong (timeout.ulLocalTimeoutInSeconds - 1 - elapsed.tv_sec)
    tv_usec := toLong
      (toUnsignedLong (timeout.ulLocalAdditionalTimeoutInMicroSeconds + elapsed.tv_usec)
        % 1000000) }

/-- The head of a turn: the wait for it. -/
def timeLeft (start current : Timeval) (timeout : Timeout) : Option Interval :=
  remainingTime (elapsedTime start current) timeout

/-! ### The loops -/

/-- What a turn meets: how `isReadyForReading` and `read` end, and the clock behind it. -/
inductive Ready
  | failed
  | notReady
  | readFailed
  | byte (b : UInt8)
  deriving DecidableEq, Repr

structure Turn where
  ready : Ready
  now : Option Timeval
  deriving DecidableEq, Repr

/-- How a loop ends: `overlap` at a `memcpy` without a defined result, and `waiting` where its turns are
over before it has ended. -/
inductive LoopEnd
  | activationWrong
  | finished
  | timeoutExpired
  | isReadyFailed
  | readFailed
  | decoderFailed
  | gettimeofdayFailed
  | fault (f : Fault)
  | overlap
  | waiting
  deriving DecidableEq, Repr

/-- The head of a turn: the reading of the clock, and the wait that comes of it. -/
structure Ask where
  current : Timeval
  left : Option Interval
  deriving DecidableEq, Repr

/-- A loop as it ends: the bytes that were read, and the head of each turn. -/
structure LoopRun where
  ending : LoopEnd
  taken : List UInt8
  asks : List Ask
  deriving DecidableEq, Repr

/-- The byte that a turn reads. -/
def Turn.taken (turn : Turn) : List UInt8 :=
  match turn.ready with
  | .byte b => [b]
  | _ => []

variable {σ : Type}

/-- The byte of a turn; `body` is what the loop does with it, and may end it. -/
def useByte (body : σ → UInt8 → Except LoopEnd σ) (s : σ) : Ready → Except LoopEnd σ
  | .failed => .error .isReadyFailed
  | .notReady => .ok s
  | .readFailed => .error .readFailed
  | .byte b => body s b

/-- A turn behind its head. -/
def takeTurn (body : σ → UInt8 → Except LoopEnd σ) (s : σ) (turn : Turn) :
    Except LoopEnd (σ × Timeval) := do
  let s ← useByte body s turn.ready
  match turn.now with
  | none => .error .gettimeofdayFailed
  | some now => .ok (s, now)

/-- The turns from the reading `current` on. -/
def timedLoop (start : Timeval) (timeout : Timeout) (body : σ → UInt8 → Except LoopEnd σ) (s : σ)
    (current : Timeval) : List Turn → LoopRun
  | [] =>
    match timeLeft start current timeout with
    | none => ⟨.timeoutExpired, [], [⟨current, none⟩]⟩
    | some left => ⟨.waiting, [], [⟨current, some left⟩]⟩
  | turn :: turns =>
    match timeLeft start current timeout with
    | none => ⟨.timeoutExpired, [], [⟨current, none⟩]⟩
    | some left =>
      match takeTurn body s turn with
      | .error ending => ⟨ending, turn.taken, [⟨current, some left⟩]⟩
      | .ok (s, now) =>
        let rest := timedLoop start timeout body s now turns
        ⟨rest.ending, turn.taken ++ rest.taken, ⟨current, some left⟩ :: rest.asks⟩

section

variable {start current : Timeval} {timeout : Timeout} {body : σ → UInt8 → Except LoopEnd σ}
  {s : σ} {turn : Turn} {left : Interval}

/-- A turn that ends the loop. -/
theorem timedLoop_of_error {ending : LoopEnd} (turns : List Turn)
    (hleft : timeLeft start current timeout = some left)
    (hturn : takeTurn body s turn = .error ending) :
    timedLoop start timeout body s current (turn :: turns)
      = ⟨ending, turn.taken, [⟨current, some left⟩]⟩ := by
  rw [timedLoop, hleft]
  dsimp only
  rw [hturn]

/-- A turn, and those behind it. -/
theorem timedLoop_of_ok {s' : σ} {now : Timeval} (turns : List Turn)
    (hleft : timeLeft start current timeout = some left)
    (hturn : takeTurn body s turn = .ok (s', now)) :
    timedLoop start timeout body s current (turn :: turns)
      = ⟨(timedLoop start timeout body s' now turns).ending,
          turn.taken ++ (timedLoop start timeout body s' now turns).taken,
          ⟨current, some left⟩ :: (timedLoop start timeout body s' now turns).asks⟩ := by
  rw [timedLoop, hleft]
  dsimp only
  rw [hturn]

end

/-- A method up to its loop, which starts with the reading `now`. -/
def timedCall (lTimeoutInSeconds lAdditionalTimeoutInMicroSeconds : ℤ) (now : Option Timeval)
    (body : σ → UInt8 → Except LoopEnd σ) (s : σ) (turns : List Turn) : LoopRun :=
  match localTimeout lTimeoutInSeconds lAdditionalTimeoutInMicroSeconds with
  | none => ⟨.activationWrong, [], []⟩
  | some timeout =>
    match now with
    | none => ⟨.gettimeofdayFailed, [], []⟩
    | some start => timedLoop start timeout body s start turns

/-- `vacuum` drops what it reads. -/
def vacuum (lTimeoutInSeconds lAdditionalTimeoutInMicroSeconds : ℤ) (now : Option Timeval)
    (turns : List Turn) : LoopRun :=
  timedCall lTimeoutInSeconds lAdditionalTimeoutInMicroSeconds now (fun _ _ => .ok ()) () turns

/-- `vacuumByTelnet` hands each byte to `telnetDecoder`, which goes from one state to the next or
fails. -/
def vacuumByTelnet (telnetDecoder : σ → UInt8 → Option σ) (s : σ)
    (lTimeoutInSeconds lAdditionalTimeoutInMicroSeconds : ℤ) (now : Option Timeval)
    (turns : List Turn) : LoopRun :=
  timedCall lTimeoutInSeconds lAdditionalTimeoutInMicroSeconds now
    (fun s b =>
      match telnetDecoder s b with
      | some s => .ok s
      | none => .error .decoderFailed) s turns

/-! ### When the wait is right -/

/-- **What a head of a turn should say**: the loop ends by timeout only when the time since the start
is at least the limit, and otherwise the wait is the limit less that time. -/
def Ask.Exact (start : Timeval) (timeout : Timeout) (ask : Ask) : Prop :=
  match ask.left with
  | none => timeout.micros ≤ ask.current.micros - start.micros
  | some left => left.micros = timeout.micros - (ask.current.micros - start.micros)
      ∧ 0 ≤ left.tv_sec ∧ 0 ≤ left.tv_usec ∧ left.tv_usec < 1000000

/-- The seconds and the microseconds since the start, and the microseconds that the code has in their
place. -/
def elapsedSec (start current : Timeval) : ℤ := (current.micros - start.micros) / 1000000

def elapsedUsec (start current : Timeval) : ℤ := (current.micros - start.micros) % 1000000

def sumUsec (start current : Timeval) : ℤ := ((current.tv_usec : ℤ) + start.tv_usec) % 1000000

/-- The readings for which the head of a turn is right: more whole seconds have passed than the limit
has; as many, and both kinds of microseconds reach the limit; or the limit is not reached, the clock
shows a whole or a half second, and both kinds of microseconds borrow or neither does. -/
def ExactWhen (start : Timeval) (timeout : Timeout) (current : Timeval) : Prop :=
  timeout.ulLocalTimeoutInSeconds < elapsedSec start current
    ∨ elapsedSec start current = timeout.ulLocalTimeoutInSeconds
      ∧ timeout.ulLocalAdditionalTimeoutInMicroSeconds < sumUsec start current
      ∧ timeout.ulLocalAdditionalTimeoutInMicroSeconds ≤ elapsedUsec start current
    ∨ (elapsedSec start current < timeout.ulLocalTimeoutInSeconds
        ∨ elapsedSec start current = timeout.ulLocalTimeoutInSeconds
          ∧ sumUsec start current ≤ timeout.ulLocalAdditionalTimeoutInMicroSeconds)
      ∧ current.tv_usec % 500000 = 0
      ∧ (elapsedUsec start current ≤ timeout.ulLocalAdditionalTimeoutInMicroSeconds
        ↔ sumUsec start current ≤ timeout.ulLocalAdditionalTimeoutInMicroSeconds)

theorem toUnsignedLong_of_nonneg {x : ℤ} (hx : 0 ≤ x) (hlt : x < 2 ^ 64) :
    (toUnsignedLong x : ℤ) = x := by
  unfold toUnsignedLong
  rw [Int.toNat_of_nonneg (Int.emod_nonneg _ (by decide)), Int.emod_eq_of_lt hx hlt]

theorem toLong_of_nonneg {x : ℤ} (hx : 0 ≤ x) (hlt : x < 2 ^ 63) : toLong x = x := by
  unfold toLong
  rw [Int.bmod_eq_of_le (by omega) (by omega)]

section

variable {start current : Timeval} {timeout : Timeout}

/-- The borrow is right: without it or with it, the seconds are the whole ones since the start. -/
theorem elapsedTime_eq (start current : Timeval) :
    elapsedTime start current = ⟨elapsedSec start current, sumUsec start current⟩ := by
  have hstart := start.usec_lt
  have hcurrent := current.usec_lt
  have hsec : (elapsedTime start current).tv_sec = elapsedSec start current := by
    unfold elapsedTime elapsedSec Timeval.micros
    dsimp only
    split <;> omega
  rw [← hsec]
  rfl

theorem elapsedSec_bounds (hlater : start.micros ≤ current.micros) :
    0 ≤ elapsedSec start current ∧ elapsedSec start current < 2 ^ 63 := by
  have hsec := current.sec_lt
  have husec := current.usec_lt
  unfold elapsedSec
  unfold Timeval.micros at *
  omega

theorem sumUsec_bounds (start current : Timeval) :
    0 ≤ sumUsec start current ∧ sumUsec start current < 1000000 := by
  unfold sumUsec
  omega

/-- What is left of the limit, without the conversions between `long` and `unsigned long`. -/
theorem remainingTime_eq {sec usec : ℤ} (hsec : 0 ≤ sec ∧ sec < 2 ^ 63)
    (husec : 0 ≤ usec ∧ usec < 1000000) (hlimit : timeout.ulLocalTimeoutInSeconds < 2 ^ 63)
    (hmicro : timeout.ulLocalAdditionalTimeoutInMicroSeconds < 1000000) :
    remainingTime ⟨sec, usec⟩ timeout
      = if timeout.ulLocalTimeoutInSeconds < sec
          ∨ sec = timeout.ulLocalTimeoutInSeconds
            ∧ timeout.ulLocalAdditionalTimeoutInMicroSeconds < usec then none
        else some {
          tv_sec :=
            if usec ≤ timeout.ulLocalAdditionalTimeoutInMicroSeconds then
              timeout.ulLocalTimeoutInSeconds - sec
            else timeout.ulLocalTimeoutInSeconds - 1 - sec
          tv_usec := (timeout.ulLocalAdditionalTimeoutInMicroSeconds + usec) % 1000000 } := by
  obtain ⟨T, ut⟩ := timeout
  dsimp only at hlimit hmicro
  have hsecLong : (toUnsignedLong sec : ℤ) = sec := toUnsignedLong_of_nonneg hsec.1 (by omega)
  have husecLong : (toUnsignedLong usec : ℤ) = usec :=
    toUnsignedLong_of_nonneg husec.1 (by omega)
  have hsumLong : (toUnsignedLong (ut + usec) : ℤ) = ut + usec :=
    toUnsignedLong_of_nonneg (by omega) (by omega)
  unfold remainingTime
  dsimp only
  by_cases hover : T < sec ∨ sec = T ∧ ut < usec
  · rw [if_pos hover, if_pos (by omega)]
  · have hmod : toLong ((ut + usec) % 1000000) = (ut + usec) % 1000000 :=
      toLong_of_nonneg (by omega) (by omega)
    rw [if_neg hover, if_neg (by omega), hsumLong, hmod]
    by_cases hborrow : usec ≤ ut
    · rw [if_pos hborrow, if_pos (by omega), toLong_of_nonneg (by omega) (by omega)]
    · rw [if_neg hborrow, if_neg (by omega), toLong_of_nonneg (by omega) (by omega)]

/-- The microseconds that the code adds and those that it means are, together, twice those of the
clock. -/
theorem elapsedUsec_add_sumUsec (start current : Timeval) :
    (elapsedUsec start current + sumUsec start current) % 1000000
      = (2 * current.tv_usec) % 1000000 := by
  unfold elapsedUsec sumUsec Timeval.micros
  omega

/-- The microseconds are right for a whole or a half second, if both kinds borrow or neither does. -/
theorem remaining_usec_iff {ut : ℕ} {eu sum cu : ℤ} (hut : ut < 1000000)
    (heu : 0 ≤ eu ∧ eu < 1000000) (hcu : (eu + sum) % 1000000 = 2 * cu % 1000000) :
    (if sum ≤ ut then 0 else -1000000) + (ut + sum) % 1000000 = ut - eu
      ↔ cu % 500000 = 0 ∧ (eu ≤ ut ↔ sum ≤ ut) := by
  split
  · omega
  · omega

/-- **The head of a turn**, exactly. -/
theorem timeLeft_exact_iff (hlater : start.micros ≤ current.micros)
    (hsec : timeout.ulLocalTimeoutInSeconds < 2 ^ 63)
    (husec : timeout.ulLocalAdditionalTimeoutInMicroSeconds < 1000000) :
    Ask.Exact start timeout ⟨current, timeLeft start current timeout⟩
      ↔ ExactWhen start timeout current := by
  have hsplit : current.micros - start.micros
      = 1000000 * elapsedSec start current + elapsedUsec start current :=
    (Int.mul_ediv_add_emod _ _).symm
  have heven := elapsedUsec_add_sumUsec start current
  have hes := elapsedSec_bounds hlater
  have hsum := sumUsec_bounds start current
  have heu : 0 ≤ elapsedUsec start current ∧ elapsedUsec start current < 1000000 :=
    ⟨Int.emod_nonneg _ (by decide), Int.emod_lt_of_pos _ (by decide)⟩
  rw [timeLeft, elapsedTime_eq, remainingTime_eq hes hsum hsec husec]
  unfold ExactWhen Ask.Exact
  rw [hsplit]
  generalize elapsedSec start current = es at *
  generalize elapsedUsec start current = eu at *
  generalize sumUsec start current = sum at *
  have husecs := remaining_usec_iff husec heu heven
  unfold Timeout.micros
  obtain ⟨T, ut⟩ := timeout
  dsimp only at *
  by_cases hover : T < es ∨ es = T ∧ ut < sum
  · rw [if_pos hover]
    dsimp only
    omega
  · rw [if_neg hover]
    dsimp only [Interval.micros]
    -- the whole seconds are right, up to the borrow
    have hmicros : 1000000 * (if sum ≤ ut then (T : ℤ) - es else T - 1 - es)
          + (ut + sum) % 1000000
        = 1000000 * (T - es)
          + ((if sum ≤ (ut : ℤ) then 0 else -1000000) + (ut + sum) % 1000000) := by
      split
      · omega
      · omega
    have hsecs : 0 ≤ (if sum ≤ (ut : ℤ) then (T : ℤ) - es else T - 1 - es) := by
      split
      · omega
      · omega
    rw [hmicros]
    constructor
    · rintro ⟨hexact, -, -, -⟩
      obtain ⟨hhalf, hborrows⟩ := husecs.mp (by omega)
      exact Or.inr (Or.inr ⟨by omega, by omega, hborrows⟩)
    · rintro (hmore | ⟨heq, hless, -⟩ | ⟨-, hhalf, hborrows⟩)
      · exact absurd (Or.inl hmore) hover
      · exact absurd (Or.inr ⟨heq, hless⟩) hover
      · have hright := husecs.mpr ⟨by omega, hborrows⟩
        exact ⟨by omega, hsecs, by omega, by omega⟩

end

/-! ### Runs -/

theorem now_of_takeTurn {body : σ → UInt8 → Except LoopEnd σ} {s s' : σ} {turn : Turn}
    {now : Timeval} (h : takeTurn body s turn = .ok (s', now)) : turn.now = some now := by
  unfold takeTurn at h
  obtain ⟨t, -, hnow⟩ := bind_eq_ok.mp h
  split at hnow
  · cases hnow
  · next hsome => rw [hsome, (Prod.mk.inj (Except.ok.inj hnow)).2]

theorem ask_of_head {start current : Timeval} {timeout : Timeout} {left : Option Interval}
    {ask : Ask} (hleft : timeLeft start current timeout = left)
    (hask : ask ∈ [(⟨current, left⟩ : Ask)]) :
    ask = ⟨ask.current, timeLeft start ask.current timeout⟩ ∧ ask.current = current := by
  obtain rfl := List.mem_singleton.mp hask
  exact ⟨by rw [hleft], rfl⟩

/-- The head of every turn comes from a reading: the first, or one behind a turn. -/
theorem asks_timedLoop {start : Timeval} {timeout : Timeout}
    {body : σ → UInt8 → Except LoopEnd σ} (turns : List Turn) (s : σ) (current : Timeval) :
    ∀ ask ∈ (timedLoop start timeout body s current turns).asks,
      ask = ⟨ask.current, timeLeft start ask.current timeout⟩
        ∧ (ask.current = current ∨ ∃ turn ∈ turns, turn.now = some ask.current) := by
  induction turns generalizing s current with
  | nil =>
    intro ask hask
    unfold timedLoop at hask
    split at hask
    · next hleft => exact (ask_of_head hleft hask).imp_right Or.inl
    · next left hleft => exact (ask_of_head hleft hask).imp_right Or.inl
  | cons turn turns ih =>
    intro ask hask
    unfold timedLoop at hask
    split at hask
    · next hleft => exact (ask_of_head hleft hask).imp_right Or.inl
    · next left hleft =>
      split at hask
      · exact (ask_of_head hleft hask).imp_right Or.inl
      · next s' now hturn =>
        rcases List.mem_cons.mp hask with rfl | hrest
        · exact ⟨by rw [hleft], Or.inl rfl⟩
        · obtain ⟨hask', hcurrent⟩ := ih s' now ask hrest
          refine ⟨hask', Or.inr ?_⟩
          rcases hcurrent with hfirst | ⟨later, hmem, hnow⟩
          · exact ⟨turn, List.mem_cons_self, by rw [now_of_takeTurn hturn, hfirst]⟩
          · exact ⟨later, List.mem_cons_of_mem turn hmem, hnow⟩

/-- The limit of a call that is not refused. -/
theorem localTimeout_lt {lTimeoutInSeconds lAdditionalTimeoutInMicroSeconds : ℤ}
    {timeout : Timeout} (hsec : lTimeoutInSeconds < 2 ^ 63)
    (husec : 0 ≤ lAdditionalTimeoutInMicroSeconds)
    (h : localTimeout lTimeoutInSeconds lAdditionalTimeoutInMicroSeconds = some timeout) :
    timeout.ulLocalTimeoutInSeconds < 2 ^ 63
      ∧ timeout.ulLocalAdditionalTimeoutInMicroSeconds < 1000000 := by
  unfold localTimeout at h
  split at h
  · cases h
  · next hvalid =>
    split at h
    · obtain rfl := Option.some.inj h
      exact ⟨by decide, by decide⟩
    · obtain rfl := Option.some.inj h
      unfold toUnsignedLong
      dsimp only
      omega

/-- **The waits of the three loops.**  Whatever a loop does with its bytes, the head of a turn is
right exactly for the readings of `ExactWhen`. -/
theorem ask_exact_iff {lTimeoutInSeconds lAdditionalTimeoutInMicroSeconds : ℤ} {timeout : Timeout}
    (hsec : lTimeoutInSeconds < 2 ^ 63) (husec : 0 ≤ lAdditionalTimeoutInMicroSeconds)
    (htimeout : localTimeout lTimeoutInSeconds lAdditionalTimeoutInMicroSeconds = some timeout)
    {start : Timeval} {turns : List Turn}
    (hlater : ∀ turn ∈ turns, ∀ now, turn.now = some now → start.micros ≤ now.micros)
    (body : σ → UInt8 → Except LoopEnd σ) (s : σ) :
    ∀ ask ∈ (timedCall lTimeoutInSeconds lAdditionalTimeoutInMicroSeconds (some start) body s
        turns).asks,
      ask.Exact start timeout ↔ ExactWhen start timeout ask.current := by
  intro ask hask
  obtain ⟨hlimit, hmicro⟩ := localTimeout_lt hsec husec htimeout
  unfold timedCall at hask
  rw [htimeout] at hask
  obtain ⟨hleft, hcurrent⟩ := asks_timedLoop turns s start ask hask
  rw [hleft]
  refine timeLeft_exact_iff ?_ hlimit hmicro
  rcases hcurrent with hfirst | ⟨turn, hturn, hnow⟩
  · rw [hfirst]
  · exact hlater turn hturn ask.current hnow

/-- The epoch, and times behind it. -/
def epoch : Timeval := ⟨0, 0, by decide, by decide⟩

def halfPast : Timeval := ⟨0, 500000, by decide, by decide⟩

def tenthPast : Timeval := ⟨0, 100000, by decide, by decide⟩

/-- At half past, half a second of the limit of a second is left. -/
theorem ask_exact_iff_halfPast :
    (⟨halfPast, some ⟨0, 500000⟩⟩ : Ask).Exact epoch ⟨1, 0⟩ := by
  have hlater : ∀ turn ∈ [(⟨.byte 65, some halfPast⟩ : Turn)], ∀ now,
      turn.now = some now → epoch.micros ≤ now.micros := by
    intro turn hturn now hnow
    obtain rfl := List.mem_singleton.mp hturn
    obtain rfl := Option.some.inj hnow
    decide
  have hask : (⟨halfPast, some ⟨0, 500000⟩⟩ : Ask) ∈ (timedCall 1 0 (some epoch)
      (fun _ _ => .ok ()) () [⟨.byte 65, some halfPast⟩]).asks := by decide +kernel
  refine (ask_exact_iff (by decide) (by decide) rfl hlater _ _ _ hask).mpr ?_
  exact Or.inr (Or.inr (by decide))

/-- At once after a start at a tenth, a fifth of a second is said to be left of a whole one. -/
theorem not_exact_of_tenthPast :
    ¬ ∀ ask ∈ (vacuum 1 0 (some tenthPast) []).asks, ask.Exact tenthPast ⟨1, 0⟩ := by
  intro h
  have hask := h ⟨tenthPast, some ⟨0, 200000⟩⟩ (by decide +kernel)
  exact absurd hask.1 (by decide)

end SocketImpl

end CatraLibraries
