/-
# The accounting of the traces

What should come of the traces that clients hand to a tracer is a log: one entry for each
trace at or above the level, kept or lost, and one for each report of losses.  The lines of the
trace file, of the cache and of the pool are the entries that are not lost, in their order, and
a report gives the number of losses since the one before it (`ExactReports`).

The code keeps this account as long as nothing is lost: a round that starts after a loss drops
its count, since the report goes into the pool that was full.  So the account holds in every
run in which each round starts without losses and each line that it formats fits, and a flush
then leaves the lines of all traces in the file (`accounted_run`).
-/
import CatraLibraries.Tracer.Rounds

namespace CatraLibraries

namespace Tracer

open Memory Transition

/-! ### The log -/

/-- An entry of the log. -/
inductive LogEntry
  | kept (t : TraceInfo)
  | lost (t : TraceInfo)
  | missing (n : ℕ) (t : TraceInfo)

/-- The client's trace of an entry. -/
def LogEntry.call : LogEntry → Option TraceInfo
  | .kept t => some t
  | .lost t => some t
  | .missing _ _ => none

/-- The trace that an entry puts into the file. -/
def LogEntry.line : LogEntry → Option TraceInfo
  | .kept t => some t
  | .lost _ => none
  | .missing _ t => some t

/-- Every report says how many traces were lost since the one before, with `k` losses before
the log and `rest` of them not reported at its end. -/
def ExactReports : ℕ → List LogEntry → ℕ → Prop
  | k, [], rest => rest = k
  | k, .kept _ :: log, rest => ExactReports k log rest
  | k, .lost _ :: log, rest => ExactReports (k + 1) log rest
  | k, .missing n t :: log, rest =>
    n = k ∧ t.bTraceMessage = tracesMissing n ∧ ExactReports 0 log rest

theorem ExactReports.kept {k rest : ℕ} {log : List LogEntry} (h : ExactReports k log rest)
    (t : TraceInfo) : ExactReports k (log ++ [.kept t]) rest := by
  induction log generalizing k with
  | nil => exact h
  | cons entry log ih =>
    cases entry with
    | kept u => exact ih h
    | lost u => exact ih h
    | missing n u => exact ⟨h.1, h.2.1, ih h.2.2⟩

theorem ExactReports.lost {k rest : ℕ} {log : List LogEntry} (h : ExactReports k log rest)
    (t : TraceInfo) : ExactReports k (log ++ [.lost t]) (rest + 1) := by
  induction log generalizing k with
  | nil => exact congrArg (· + 1) h
  | cons entry log ih =>
    cases entry with
    | kept u => exact ih h
    | lost u => exact ih h
    | missing n u => exact ⟨h.1, h.2.1, ih h.2.2⟩

/-- Without a line, every call is lost and none is reported. -/
theorem ExactReports.of_no_lines {k rest : ℕ} {log : List LogEntry}
    (h : ExactReports k log rest) (hlines : log.filterMap LogEntry.line = []) :
    rest = k + (log.filterMap LogEntry.call).length := by
  induction log generalizing k with
  | nil => exact h
  | cons entry log ih =>
    cases entry with
    | kept u => cases hlines
    | lost u =>
      have hrest := ih h hlines
      have hcalls : (LogEntry.lost u :: log).filterMap LogEntry.call
          = u :: log.filterMap LogEntry.call := rfl
      rw [hrest, hcalls, List.length_cons]
      omega
    | missing n u => cases hlines

/-- A tracer, and the traces at or above the level that clients handed to it. -/
structure History where
  tracer : Tracer
  calls : List TraceInfo

/-- The account of a history: its log, with the lines in the file and those in the cache. -/
structure Accounts (h : History) (log : List LogEntry) (filed cached : List TraceInfo) :
    Prop where
  calls : log.filterMap LogEntry.call = h.calls
  reports : ExactReports 0 log h.tracer.lLostTracesNumber
  lines : log.filterMap LogEntry.line = filed ++ cached ++ h.tracer.ptiTraces
  file : h.tracer.traceText = h.tracer.render 0 filed
  cache : h.tracer.cachedText = (h.tracer.render (filed.foldl nest 0) cached).map some

/-- **The account is right**: every trace at or above the level has its complete line, once and
in its place, in the file, the cache or the pool, or is counted in a report that has, or is not
reported yet. -/
def Accounted (h : History) : Prop := ∃ log filed cached, Accounts h log filed cached

/-! ### Runs -/

/-- What a client or the thread of the tracer does. -/
inductive TraceAction
  | addTrace (t : TraceInfo) (io : ℕ → RoundIO)
  | populateTraceFileCache (io : ℕ → RoundIO)
  | flushOfTraces (io : ℕ → RoundIO)

/-- What the file system answers to an action. -/
def TraceAction.io : TraceAction → ℕ → RoundIO
  | .addTrace _ io => io
  | .populateTraceFileCache io => io
  | .flushOfTraces io => io

/-- The tracer a call leaves; one without a defined end leaves it where it was. -/
def settle (s : Tracer) : Call → Tracer
  | .ok (s', _) => s'
  | .error _ => s

/-- One action; at least one `flushOfTraces` has room on the stack. -/
def recordStep (stack : ℕ) (h : History) : TraceAction → Option History
  | .addTrace t io => some {
      tracer := h.tracer.settle (h.tracer.addTrace (stack + 1) io t)
      calls := if h.tracer.Filtered t then h.calls else h.calls ++ [t] }
  | .populateTraceFileCache io => some { h with
      tracer := h.tracer.settle (populateTraceFileCache (stack + 1) io h.tracer) }
  | .flushOfTraces io => some { h with
      tracer := h.tracer.settle (flushOfTraces (stack + 1) io h.tracer) }

/-- A tracer just initialised. -/
def History.start (c : TracerConfiguration) (now : ℤ) : History := ⟨init c now, []⟩

/-- A round that starts here finds no loss to report, and can format what it finds. -/
def RoundFits (s : Tracer) (pool : List TraceInfo) : Prop :=
  s.lLostTracesNumber = 0 ∧ s.AllFit s.lFunctionsStackDeep pool

/-- Each round of an action starts without losses and its traces fit; without a cache, a trace
is in a round of its own. -/
def RoundsFit (h : History) : TraceAction → History → Prop
  | .addTrace t _, _ => h.tracer.Filtered t ∨ h.tracer.bTraceFileCacheActive = true
      ∨ (h.tracer.ptiTraces.length : ℤ) < h.tracer.lMaxTracesNumber
        ∧ h.tracer.RoundFits (h.tracer.ptiTraces ++ [t])
  | .populateTraceFileCache _, _ => h.tracer.RoundFits h.tracer.ptiTraces
  | .flushOfTraces _, _ => h.tracer.RoundFits h.tracer.ptiTraces

/-- **What an action does with the traces**: one that the pool has room for is not lost, a round leaves
none in the pool, and a flush none in the cache either; without a cache a trace is flushed at once. -/
def Delivers (h : History) : TraceAction → History → Prop
  | .addTrace t _, h' =>
    ((h.tracer.ptiTraces.length : ℤ) < h.tracer.lMaxTracesNumber →
      h'.tracer.lLostTracesNumber = h.tracer.lLostTracesNumber) ∧
    (¬h.tracer.Filtered t → h.tracer.bTraceFileCacheActive = false →
      h'.tracer.ptiTraces = [] ∧ h'.tracer.cachedText = [])
  | .populateTraceFileCache _, h' => h'.tracer.ptiTraces = []
  | .flushOfTraces _, h' => h'.tracer.ptiTraces = [] ∧ h'.tracer.cachedText = []

/-- The invariant: the log, with the lines formatted so far and the nesting that they leave. -/
structure Recorded (h : History) (log : List LogEntry) (filed cached : List TraceInfo) :
    Prop where
  calls : log.filterMap LogEntry.call = h.calls
  reports : ExactReports 0 log h.tracer.lLostTracesNumber
  lines : log.filterMap LogEntry.line = filed ++ cached ++ h.tracer.ptiTraces
  formatted : h.tracer.Formatted filed cached
  nesting : h.tracer.lFunctionsStackDeep = (filed ++ cached).foldl nest 0

theorem Recorded.accounted {h : History} {log : List LogEntry} {filed cached : List TraceInfo}
    (hrec : Recorded h log filed cached) : Accounted h :=
  ⟨log, filed, cached, hrec.calls, hrec.reports, hrec.lines, hrec.formatted.file,
    hrec.formatted.cache⟩

theorem start_recorded {c : TracerConfiguration} (hfile : c.bTraceOnFile = true) (now : ℤ) :
    Recorded (.start c now) [] [] [] where
  calls := rfl
  reports := rfl
  lines := rfl
  formatted := ⟨init_sized c now, hfile, rfl, rfl⟩
  nesting := rfl

theorem keepOrLose_of_lt {s : Tracer} (t : TraceInfo)
    (h : (s.ptiTraces.length : ℤ) < s.lMaxTracesNumber) :
    s.keepOrLose t = { s with ptiTraces := s.ptiTraces ++ [t] } := if_pos h

theorem keepOrLose_of_le {s : Tracer} (t : TraceInfo)
    (h : ¬ (s.ptiTraces.length : ℤ) < s.lMaxTracesNumber) :
    s.keepOrLose t = { s with lLostTracesNumber := s.lLostTracesNumber + 1 } := if_neg h

section

variable {h : History} {log : List LogEntry} {filed cached : List TraceInfo}

/-- The members that the lines do not depend on. -/
theorem Formatted.of_pool {s s' : Tracer} (hs : s.Formatted filed cached) (hsized : s'.Sized)
    (honFile : s'.bTraceOnFile = s.bTraceOnFile) (hname : s'.pName = s.pName)
    (hfile : s'.traceText = s.traceText) (hcache : s'.cachedText = s.cachedText) :
    s'.Formatted filed cached where
  sized := hsized
  onFile := honFile.trans hs.onFile
  file := by rw [hfile, render_congr hname]; exact hs.file
  cache := by rw [hcache, render_congr hname]; exact hs.cache

/-- A trace goes into the pool, or is a loss to report. -/
theorem Recorded.keepOrLose (hrec : Recorded h log filed cached) (t : TraceInfo) :
    ∃ entry, Recorded ⟨h.tracer.keepOrLose t, h.calls ++ [t]⟩ (log ++ [entry]) filed cached := by
  have hcalls : ∀ entry : LogEntry, entry.call = some t →
      (log ++ [entry]).filterMap LogEntry.call = h.calls ++ [t] := by
    intro entry hentry
    rw [List.filterMap_append, hrec.calls, List.filterMap_cons_some hentry, List.filterMap_nil]
  by_cases hroom : (h.tracer.ptiTraces.length : ℤ) < h.tracer.lMaxTracesNumber
  · rw [keepOrLose_of_lt t hroom]
    refine ⟨.kept t, hcalls _ rfl, hrec.reports.kept t, ?_, ?_, hrec.nesting⟩
    · rw [List.filterMap_append, hrec.lines, List.append_assoc]
      rfl
    · exact hrec.formatted.of_pool (hrec.formatted.sized.of_eq rfl rfl rfl) rfl rfl rfl rfl
  · rw [keepOrLose_of_le t hroom]
    refine ⟨.lost t, hcalls _ rfl, hrec.reports.lost t, ?_, ?_, hrec.nesting⟩
    · rw [List.filterMap_append, hrec.lines]
      exact List.append_nil _
    · exact hrec.formatted.of_pool (hrec.formatted.sized.of_eq rfl rfl rfl) rfl rfl rfl rfl

/-- What a round leaves. -/
theorem Recorded.afterRound (hrec : Recorded h log filed cached) {s' : Tracer}
    {filed' cached' : List TraceInfo} (hs' : s'.Formatted filed' cached')
    (happend : filed' ++ cached' = filed ++ cached ++ h.tracer.ptiTraces)
    (hframe : s'.frame = (h.tracer.takePool.withNesting
      (h.tracer.ptiTraces.foldl nest h.tracer.lFunctionsStackDeep)).frame) :
    Recorded ⟨s', h.calls⟩ log filed' cached' where
  calls := hrec.calls
  reports := by
    show ExactReports 0 log s'.frame.lLostTracesNumber
    rw [hframe]
    exact hrec.reports
  lines := by
    show _ = filed' ++ cached' ++ s'.frame.ptiTraces
    rw [hframe, happend]
    exact hrec.lines.trans (List.append_nil _).symm
  formatted := hs'
  nesting := by
    show s'.frame.lFunctionsStackDeep = _
    rw [hframe, happend, List.foldl_append, ← hrec.nesting]
    rfl

end

/-- What a round leaves of the members that it does not format. -/
theorem frame_eq_of_round {s s' : Tracer} {deep : ℤ}
    (hframe : s'.frame = (s.takePool.withNesting deep).frame) :
    s'.ptiTraces = [] ∧ s'.lLostTracesNumber = s.lLostTracesNumber := by
  refine ⟨?_, ?_⟩
  · show s'.frame.ptiTraces = []
    rw [hframe]
    rfl
  · show s'.frame.lLostTracesNumber = s.lLostTracesNumber
    rw [hframe]
    rfl

/-- No line is in the cache. -/
theorem Formatted.cachedText_eq_nil {s : Tracer} {filed : List TraceInfo} (h : s.Formatted filed []) :
    s.cachedText = [] := h.cache

/-- **One action** keeps the account and delivers, if no call to the file system fails and each of
its rounds starts without losses and fits. -/
theorem recordStep_recorded {stack : ℕ} {h h' : History} {a : TraceAction}
    (hio : ∀ n, (a.io n).NoFailure) (hinv : ∃ log filed cached, Recorded h log filed cached)
    (hfit : RoundsFit h a h') (hstep : recordStep stack h a = some h') :
    (∃ log filed cached, Recorded h' log filed cached) ∧ Delivers h a h' := by
  obtain ⟨log, filed, cached, hrec⟩ := hinv
  cases a with
  | addTrace t io =>
    replace hio : ∀ n, (io n).NoFailure := hio
    obtain rfl := Option.some.inj hstep
    unfold Delivers addTrace addTraceWith
    by_cases hfiltered : h.tracer.Filtered t
    · rw [if_pos hfiltered, if_pos hfiltered]
      exact ⟨⟨log, filed, cached, hrec⟩, fun _ => rfl, fun hnot => absurd hfiltered hnot⟩
    · rw [if_neg hfiltered, if_neg hfiltered]
      obtain ⟨entry, hkept⟩ := hrec.keepOrLose t
      by_cases hactive : h.tracer.bTraceFileCacheActive = true
      · rw [if_pos hactive]
        refine ⟨⟨log ++ [entry], filed, cached, hkept⟩, fun hroom => ?_, fun _ hnot => ?_⟩
        · show (h.tracer.keepOrLose t).lLostTracesNumber = _
          rw [keepOrLose_of_lt t hroom]
        · rw [hactive] at hnot
          cases hnot
      · -- the trace is kept, and a round follows at once
        obtain ⟨hroom, hlost, hall⟩ := (hfit.resolve_left hfiltered).resolve_left hactive
        rw [if_neg hactive]
        rw [keepOrLose_of_lt t hroom] at hkept ⊢
        obtain ⟨s', hcall, hs', hframe⟩ :=
          hkept.formatted.flushOfTraces hio stack hkept.nesting hlost (hall.congr rfl rfl)
        rw [hcall]
        obtain ⟨hpool, hsame⟩ := frame_eq_of_round hframe
        exact ⟨⟨log ++ [entry], _, [], hkept.afterRound hs' (List.append_nil _) hframe⟩,
          fun _ => hsame, fun _ _ => ⟨hpool, hs'.cachedText_eq_nil⟩⟩
  | populateTraceFileCache io =>
    replace hio : ∀ n, (io n).NoFailure := hio
    obtain ⟨hlost, hall⟩ := hfit
    obtain ⟨s', filed', cached', hcall, hs', happend, hframe⟩ :=
      hrec.formatted.populate (flushOfTraces (stack + 1) io) (hio (stack + 1)) hrec.nesting hlost
        hall
    obtain rfl := Option.some.inj hstep
    unfold Delivers
    rw [populateTraceFileCache, hcall]
    exact ⟨⟨log, filed', cached', hrec.afterRound hs' happend hframe⟩, (frame_eq_of_round hframe).1⟩
  | flushOfTraces io =>
    replace hio : ∀ n, (io n).NoFailure := hio
    obtain ⟨hlost, hall⟩ := hfit
    obtain ⟨s', hcall, hs', hframe⟩ :=
      hrec.formatted.flushOfTraces hio stack hrec.nesting hlost hall
    obtain rfl := Option.some.inj hstep
    unfold Delivers
    rw [hcall]
    exact ⟨⟨log, _, [], hrec.afterRound hs' (List.append_nil _) hframe⟩,
      (frame_eq_of_round hframe).1, hs'.cachedText_eq_nil⟩

/-- **The account of a tracer over a run.**  Whatever clients trace and whenever the rounds
come, the account is right in every state, and the rounds and flushes put the traces into the file,
as long as each round starts without losses and the lines that it formats fit. -/
theorem accounted_run {c : TracerConfiguration} (hfile : c.bTraceOnFile = true) (now : ℤ)
    (stack : ℕ) {as : List TraceAction} (hio : ∀ a ∈ as, ∀ n, (a.io n).NoFailure)
    (hfit : Always (recordStep stack) RoundsFit (.start c now) as) :
    Always (recordStep stack) (fun h a h' => Accounted h' ∧ Delivers h a h') (.start c now) as := by
  have hquiet : Always (recordStep stack) (fun _ a _ => ∀ n, (a.io n).NoFailure)
      (.start c now) as := always_of_actions (fun a ha _ _ => hio a ha) _
  have hstep : ∀ h a h', (∃ log filed cached, Recorded h log filed cached) →
      ((∀ n, (a.io n).NoFailure) ∧ RoundsFit h a h') → recordStep stack h a = some h' →
      (∃ log filed cached, Recorded h' log filed cached) ∧ Accounted h' ∧ Delivers h a h' := by
    rintro h a h' hinv ⟨hcalls, hfits⟩ hstep
    obtain ⟨⟨log, filed, cached, hrec⟩, hdelivers⟩ := recordStep_recorded hcalls hinv hfits hstep
    exact ⟨⟨log, filed, cached, hrec⟩, hrec.accounted, hdelivers⟩
  exact always_of_invariant hstep ⟨[], [], [], start_recorded hfile now⟩ (hquiet.and hfit)

instance (s : Tracer) (deep : ℤ) (t : TraceInfo) : Decidable (s.Fits deep t) :=
  decidable_of_iff (0 ≤ t.lTraceLevel ∧ t.lTraceLevel < maxTraceLevels ∧ 0 ≤ leave deep t
      ∧ ((s.withNesting (leave deep t)).completeTraceMessage t).length
        < s.lCacheSizeOfTraceFile * 1024)
    ⟨fun h => ⟨h.1, h.2.1, h.2.2.1, h.2.2.2⟩, fun h => ⟨h.1, h.2, h.3, h.4⟩⟩

instance AllFit.decidable (s : Tracer) : (deep : ℤ) → (ts : List TraceInfo) →
    Decidable (s.AllFit deep ts)
  | _, [] => isTrue trivial
  | deep, t :: ts =>
    have := AllFit.decidable s (nest deep t) ts
    inferInstanceAs (Decidable (s.Fits deep t ∧ s.AllFit (nest deep t) ts))

instance (s : Tracer) (pool : List TraceInfo) : Decidable (s.RoundFits pool) :=
  inferInstanceAs (Decidable (_ ∧ _))

instance (h : History) : (a : TraceAction) → (h' : History) → Decidable (RoundsFit h a h')
  | .addTrace t _, _ => inferInstanceAs (Decidable (h.tracer.Filtered t
      ∨ h.tracer.bTraceFileCacheActive = true
      ∨ (h.tracer.ptiTraces.length : ℤ) < h.tracer.lMaxTracesNumber
        ∧ h.tracer.RoundFits (h.tracer.ptiTraces ++ [t])))
  | .populateTraceFileCache _, _ =>
    inferInstanceAs (Decidable (h.tracer.RoundFits h.tracer.ptiTraces))
  | .flushOfTraces _, _ => inferInstanceAs (Decidable (h.tracer.RoundFits h.tracer.ptiTraces))

/-- Rounds on a file system without failures. -/
def quietRound (_ : ℕ) : RoundIO where
  tmDateTime := (traceOfF 0).tmDateTime
  bFileName := "Tracer.cpp".toList
  lFileLine := 1
  ulThreadId := 1
  perform := fun _ => quietIO
  time := 0
  expired := quietIO.last
  flush := quietIO.last

theorem quietRound_noFailure (n : ℕ) : (quietRound n).NoFailure where
  perform := fun _ => ⟨⟨rfl, rfl, rfl, rfl, rfl⟩, ⟨rfl, rfl, rfl, rfl, rfl⟩⟩
  expired := ⟨rfl, rfl, rfl, rfl, rfl⟩
  flush := ⟨rfl, rfl, rfl, rfl, rfl⟩

theorem accounted_run_beginEnd :
    Always (recordStep 0) (fun h a h' => Accounted h' ∧ Delivers h a h') (.start smallTracer 0)
      [.addTrace (traceOfF 1) quietRound, .addTrace (traceOfF (-1)) quietRound,
        .flushOfTraces quietRound] := by
  refine accounted_run rfl 0 0 ?_ ?_
  · intro a ha n
    simp only [List.mem_cons, List.not_mem_nil, or_false] at ha
    rcases ha with rfl | rfl | rfl <;> exact quietRound_noFailure n
  · decide +kernel

/-! ### A pool without a limit -/

/-- The tracer whose pool should have no limit. -/
def unlimitedTracer : TracerConfiguration := { smallTracer with lMaxTracesNumber := -1 }

/-- The trace is lost, and the round drops its count. -/
theorem not_accounted_of_unlimited :
    ¬ Always (recordStep 0) (fun _ _ h' => Accounted h') (.start unlimitedTracer 0)
      [.addTrace (traceOfF 0) quietRound, .populateTraceFileCache quietRound] := by
  intro h
  have hfirst := (h _ rfl).2
  obtain ⟨log, filed, cached, haccounts⟩ := (hfirst _ rfl).1
  -- nothing is written, and nothing is waiting
  obtain rfl : filed = [] := render_eq_nil haccounts.file.symm
  obtain rfl : cached = [] := render_eq_nil (List.map_eq_nil_iff.mp haccounts.cache.symm)
  have hlost := haccounts.reports.of_no_lines haccounts.lines
  rw [haccounts.calls] at hlost
  exact absurd hlost (by decide)

end Tracer

end CatraLibraries
