/-
# The two pools of traces

A client's trace is filtered by the trace level and put into the first pool, or counted in
`lLostTracesNumber` when the pool has reached `lMaxTracesNumber`.  A round
(`populateTraceFileCache`) reports the lost traces with a trace of its own, exchanges the pools
and formats the traces of the one it has taken.

The trace that reports goes through `addTrace` like every other; without a cache `addTrace`
flushes, which is a round inside the round.  `stack` bounds how many of these calls may be
open.  The number -1 for the pool stands for no limit in `Tracer.h`; the comparison takes it as
a number.
-/
import CatraLibraries.Tracer.Tracer

namespace CatraLibraries

namespace Tracer

open Memory

/-- What one round meets: the trace that reports the losses, apart from its text and its level;
the traces it formats; the time when there are none and the flush then; and the flush after the
round. -/
structure RoundIO where
  tmDateTime : TraceDateTime
  bFileName : List Char
  lFileLine : ℤ
  ulThreadId : ℕ
  perform : ℕ → PerformIO
  time : ℤ
  expired : FlushIO
  flush : FlushIO

/-- How a call ends. -/
abbrev Call := Except Fault (Tracer × TracerError)

/-! ### Adding a trace -/

/-- The traces that `addTrace` leaves out. -/
def Filtered (s : Tracer) (t : TraceInfo) : Prop :=
  (s.bTraceOnFile = false ∧ s.bTraceOnTTY = false) ∨ t.lTraceLevel < s.lTraceLevel

instance (s : Tracer) (t : TraceInfo) : Decidable (s.Filtered t) :=
  inferInstanceAs (Decidable (_ ∨ _))

/-- A trace put into the pool, or lost. -/
def keepOrLose (s : Tracer) (t : TraceInfo) : Tracer :=
  if (s.ptiTraces.length : ℤ) < s.lMaxTracesNumber then { s with ptiTraces := s.ptiTraces ++ [t] }
  else { s with lLostTracesNumber := s.lLostTracesNumber + 1 }

/-- `addTrace`, with the `flushOfTraces` that it calls. -/
def addTraceWith (flushOfTraces : Tracer → Call) (s : Tracer) (t : TraceInfo) : Call :=
  if s.Filtered t then .ok (s, .errNoError)
  else if s.bTraceFileCacheActive then .ok (s.keepOrLose t, .errNoError)
  else flushOfTraces (s.keepOrLose t)

/-! ### A round -/

/-- The text of the trace that reports `n` losses. -/
def tracesMissing (n : ℕ) : List Char := Nat.toDigits 10 n ++ " TRACES MISSING".toList

/-- The trace that reports the losses. -/
def missingTrace (n : ℕ) (io : RoundIO) : TraceInfo where
  tmDateTime := io.tmDateTime
  lTraceLevel := 0
  bTraceMessage := tracesMissing n
  bFileName := io.bFileName
  lFileLine := io.lFileLine
  ulThreadId := io.ulThreadId
  lUpdateStackDeep := 0

/-- The report at the start of a round. -/
def reportLost (flushOfTraces : Tracer → Call) (s : Tracer) (io : RoundIO) : Call :=
  if 0 < s.lLostTracesNumber then
    match addTraceWith flushOfTraces s (missingTrace s.lLostTracesNumber io) with
    | .ok (s, .errNoError) => .ok ({ s with lLostTracesNumber := 0 }, .errNoError)
    | other => other
  else .ok (s, .errNoError)

/-- The traces of a pool, one after the other; one that is too long is skipped. -/
def performTraces (s : Tracer) : List TraceInfo → (ℕ → PerformIO) → Call
  | [], _ => .ok (s, .errNoError)
  | t :: ts, io =>
    match s.performTrace t (io 0) with
    | .ok (s, .errNoError) => performTraces s ts fun i => io (i + 1)
    | .ok (s, .TRACER_TRACETOOLONG) => performTraces s ts fun i => io (i + 1)
    | other => other

/-- The pools exchanged, and the traces of the full one formatted. -/
def exchangePools (s : Tracer) (io : RoundIO) : Call :=
  let s' := { s with ptiTraces := [] }
  if s.ptiTraces ≠ [] then s'.performTraces s.ptiTraces io.perform
  else .ok (s'.switchFile io.time io.expired)

/-- `populateTraceFileCache`, with the `flushOfTraces` that it calls. -/
def populateWith (flushOfTraces : Tracer → Call) (s : Tracer) (io : RoundIO) : Call :=
  match reportLost flushOfTraces s io with
  | .ok (s, .errNoError) => s.exchangePools io
  | other => other

/-- `flushOfTraces`, as deep as the stack allows. -/
def flushOfTraces : ℕ → (ℕ → RoundIO) → Tracer → Call
  | 0, _, _ => .error .outOfFuel
  | stack + 1, io, s =>
    match populateWith (flushOfTraces stack io) s (io stack) with
    | .ok (s, .errNoError) => .ok (s.flushTraceFileCache (io stack).flush)
    | other => other

/-- `populateTraceFileCache`. -/
def populateTraceFileCache (stack : ℕ) (io : ℕ → RoundIO) (s : Tracer) : Call :=
  populateWith (flushOfTraces stack io) s (io stack)

/-- `addTrace`. -/
def addTrace (stack : ℕ) (io : ℕ → RoundIO) (s : Tracer) (t : TraceInfo) : Call :=
  addTraceWith (flushOfTraces stack io) s t

/-- `trace`. -/
def trace (stack : ℕ) (io : ℕ → RoundIO) (s : Tracer) (t : TraceInfo) : Call :=
  s.addTrace stack io { t with lUpdateStackDeep := 0 }

/-- `traceFunctionBegin`. -/
def traceFunctionBegin (stack : ℕ) (io : ℕ → RoundIO) (s : Tracer) (t : TraceInfo) : Call :=
  s.addTrace stack io { t with lUpdateStackDeep := 1 }

/-- `traceFunctionEnd`. -/
def traceFunctionEnd (stack : ℕ) (io : ℕ → RoundIO) (s : Tracer) (t : TraceInfo) : Call :=
  s.addTrace stack io { t with lUpdateStackDeep := -1 }

end Tracer

end CatraLibraries
